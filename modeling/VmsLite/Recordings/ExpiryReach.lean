import VmsLite.Recordings.HeldFootage
import VmsLite.Recordings.PurgeReach

/-!
# What an expiry of the motion buffer can touch

An expiry, its calls failing or not, touches nothing but the buffered rows that it looks at, that
ended before its cutoff and that lie below its root, and without failures it deletes all of these
(`expireBufferedSegments_spec`).
-/

set_option autoImplicit false

namespace VmsLite.Recordings

open VmsLite.Async Program

section Expiry

variable (outcomes : Call → World → Outcome) (ingest : SegmentIngest)

/-- A row that an expiry may touch, among the ones it looks at. -/
def MayExpire (cutoff : ℤ) (row : Recording) : Prop :=
  row.endTime < cutoff ∧ isWithinRoot ingest.recordingsRoot row.filePath = true

/-- One segment of an expiry, however its calls end. -/
theorem expireSegment_spec (cutoff : ℤ) {segment : Recording} {world : World}
    (hsegment : segment ∈ world.recordings.rows) :
    ∃ reached, eval answer outcomes (ingest.expireSegment cutoff segment) world =
        (.ok (), reached) ∧
      LeavesAlone (fun row ↦ row = segment ∧ MayExpire ingest cutoff row) world reached ∧
      (outcomes = calm → MayExpire ingest cutoff segment → Gone segment reached) := by
  unfold SegmentIngest.expireSegment
  split_ifs with hcutoff
  · refine ⟨world, rfl, LeavesAlone.refl _ world, fun _ hmay ↦ ?_⟩
    exact absurd hmay.1 (not_lt.mpr hcutoff)
  by_cases hroot : isWithinRoot ingest.recordingsRoot segment.filePath = true
  · obtain ⟨result, reached, heval, hattempt, hresult⟩ :=
      deleteSegmentInternal_attempt outcomes hroot segment.sizeBytes world
    have hmay : MayExpire ingest cutoff segment := ⟨not_le.mp hcutoff, hroot⟩
    have htouched : ∀ row, row = segment → row = segment ∧ MayExpire ingest cutoff row :=
      fun row hrow ↦ ⟨hrow, hrow ▸ hmay⟩
    refine ⟨reached, ?_, ?_, fun hcalm _ ↦ ?_⟩
    · rw [eval_catching, bind_eq, eval_bind, heval]
      cases result <;> rfl
    · refine (LeavesAlone.of_attempt hsegment hattempt ?_).mono htouched
      exact hresult.elim (fun hdone ↦ Or.inr hdone.choose_spec.2.2) fun hfailed ↦ Or.inl hfailed.2
    · obtain ⟨value, gone, heval', hsuccess, -, hrows⟩ :=
        eval_deleteSegmentInternal hsegment hroot segment.sizeBytes
      rw [hcalm, heval'] at heval
      obtain rfl : gone = reached := (Prod.mk.inj heval).2
      intro other hother
      rw [hrows] at hother
      simpa using (List.mem_filter.mp hother).2
  · refine ⟨world, ?_, LeavesAlone.refl _ world, fun _ hmay ↦ absurd hmay.2 hroot⟩
    rw [eval_catching, bind_eq, eval_bind]
    unfold deleteSegmentInternal
    rw [if_neg hroot]
    rfl

/-- The segments of an expiry, one after another. -/
theorem expireSegments_spec (cutoff : ℤ) {segments : List Recording} {world : World}
    (hrows : ∀ segment ∈ segments, segment ∈ world.recordings.rows) (hnodup : segments.Nodup) :
    ∃ reached, eval answer outcomes
        (segments.foldlM (fun _ segment ↦ ingest.expireSegment cutoff segment) ()) world =
          (.ok (), reached) ∧
      LeavesAlone (fun row ↦ row ∈ segments ∧ MayExpire ingest cutoff row) world reached ∧
      (outcomes = calm → ∀ row ∈ segments, MayExpire ingest cutoff row → Gone row reached) := by
  induction segments generalizing world with
  | nil => exact ⟨world, rfl, LeavesAlone.refl _ world, fun _ _ hrow ↦ absurd hrow List.not_mem_nil⟩
  | cons segment segments ih =>
    obtain ⟨hnew, hnodup⟩ := List.nodup_cons.mp hnodup
    obtain ⟨middle, heval, halone, hgone⟩ :=
      expireSegment_spec outcomes ingest cutoff (hrows segment List.mem_cons_self)
    -- The others are as they were
    have hmiddle : ∀ other ∈ segments, other ∈ middle.recordings.rows := by
      intro other hother
      refine (halone.kept other (hrows other (List.mem_cons_of_mem _ hother)) ?_).1
      rintro ⟨rfl, -⟩
      exact hnew hother
    obtain ⟨reached, heval', halone', hgone'⟩ := ih hmiddle hnodup
    refine ⟨reached, ?_, ?_, ?_⟩
    · rw [List.foldlM_cons, bind_eq, eval_bind_of_ok answer outcomes heval]
      exact heval'
    · refine (halone.mono ?_).trans (halone'.mono ?_)
      · rintro row ⟨rfl, hmay⟩
        exact ⟨List.mem_cons_self, hmay⟩
      · rintro row ⟨hrow, hmay⟩
        exact ⟨List.mem_cons_of_mem _ hrow, hmay⟩
    · intro hcalm row hrow hmay
      rcases List.mem_cons.mp hrow with rfl | hrow
      · exact (hgone hcalm hmay).of_spares halone'
      · exact hgone' hcalm row hrow hmay

theorem mem_bufferedPage {world : World} {row : Recording} (hrow : row ∈ bufferedPage world) :
    row ∈ world.recordings.rows ∧ row.status = .buffered :=
  RecordingTable.mem_findRecordingsByStatus hrow

theorem nodup_bufferedPage (world : World) : (bufferedPage world).Nodup := by
  unfold bufferedPage RecordingTable.findRecordingsByStatus
  refine List.Nodup.sublist (List.take_sublist _ _) ?_
  refine (List.perm_insertionSort _ _).nodup_iff.mpr (List.Nodup.filter _ ?_)
  exact world.recordings.ids_nodup.of_map

/-- An expiry touches nothing but the buffered rows it looks at that it may touch, and without
failures it deletes all of these. -/
theorem expireBufferedSegments_spec (world : World) :
    LeavesAlone (fun row ↦ row ∈ bufferedPage world ∧
        MayExpire ingest (ingest.expiryCutoff world.now) row) world
        (eval answer outcomes ingest.expireBufferedSegments world).2 ∧
      (outcomes = calm → ∀ row ∈ bufferedPage world,
        MayExpire ingest (ingest.expiryCutoff world.now) row →
          Gone row (eval answer outcomes ingest.expireBufferedSegments world).2) := by
  obtain ⟨reached, heval, halone, hgone⟩ := expireSegments_spec outcomes ingest
    (ingest.expiryCutoff world.now) (fun row hrow ↦ (mem_bufferedPage hrow).1)
    (nodup_bufferedPage world)
  have hquery := (outcomes (.findRecordingsByStatus .buffered maxBufferedScan) world).orFail_cases
    (bufferedPage world)
  have hlisted : eval answer outcomes (findRecordingsByStatus .buffered maxBufferedScan) world =
      ((outcomes (.findRecordingsByStatus .buffered maxBufferedScan) world).orFail
        (bufferedPage world), world) := by
    unfold findRecordingsByStatus
    rw [bind_eq, request_bind, eval_await]
    rcases hquery with hok | ⟨error, -, herror⟩
    · simp only [answer, bufferedPage] at hok ⊢
      rw [hok]
      rfl
    · simp only [answer, bufferedPage] at herror ⊢
      rw [herror]
      rfl
  have hclock : eval answer outcomes (call .clockNow) world = (.ok world.now, world) := rfl
  unfold SegmentIngest.expireBufferedSegments
  rw [bind_eq, eval_bind_of_ok answer outcomes hclock, bind_eq]
  rcases hquery with hok | ⟨error, hfail, herror⟩
  · rw [hok] at hlisted
    rw [eval_bind_of_ok answer outcomes hlisted, heval]
    exact ⟨halone, hgone⟩
  · rw [herror] at hlisted
    rw [eval_bind_of_error answer outcomes hlisted]
    refine ⟨LeavesAlone.refl _ world, fun hcalm ↦ ?_⟩
    rw [hcalm] at hfail
    cases hfail

end Expiry

end VmsLite.Recordings
