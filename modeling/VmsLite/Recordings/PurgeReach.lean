import VmsLite.Recordings.VolumeGuard

/-!
# What a purge by age can touch

A purge by age, its calls failing or not: it touches no row beyond its reach, none that the policy
keeps and none outside the root, and without failures it deletes every other one
(`purgeRetention_spec`). The pass keeps its place by counting what it steps over, so after some
pages the order it pages through is what it stepped over followed by the rows it has not seen, and
these are as they were.
-/

set_option autoImplicit false

namespace VmsLite.Recordings

open VmsLite.Async Program

/-! ### Changes of one row -/

/-- Rows of which only the one with an id may have changed, and neither its id nor its start. -/
def Marks (id : RecordingId) (before after : List Recording) : Prop :=
  ∃ change : Recording → Recording, (∀ row, row.id ≠ id → change row = row) ∧
    (∀ row, (change row).id = row.id ∧ (change row).startTime = row.startTime) ∧
      after = before.map change

theorem Marks.refl (id : RecordingId) (rows : List Recording) : Marks id rows rows :=
  ⟨fun row ↦ row, fun _ _ ↦ rfl, fun _ ↦ ⟨rfl, rfl⟩, (List.map_id' rows).symm⟩

theorem Marks.trans {id : RecordingId} {first second third : List Recording}
    (hfirst : Marks id first second) (hsecond : Marks id second third) : Marks id first third := by
  obtain ⟨change, hothers, hkeys, rfl⟩ := hfirst
  obtain ⟨change', hothers', hkeys', rfl⟩ := hsecond
  refine ⟨change' ∘ change, ?_, ?_, by simp⟩
  · intro row hrow
    rw [Function.comp_apply, hothers row hrow, hothers' row hrow]
  · intro row
    exact ⟨(hkeys' _).1.trans (hkeys row).1, (hkeys' _).2.trans (hkeys row).2⟩

theorem Marks.of_update (table : RecordingTable) (id : RecordingId) (patch : RowPatch) :
    Marks id table.rows (table.update id patch).rows := by
  refine ⟨fun row ↦ if row.id = id then patch.apply row else row, ?_, ?_, rfl⟩
  · intro row hrow
    exact if_neg hrow
  · intro row
    dsimp only
    split_ifs <;> exact ⟨rfl, rfl⟩

/-- Dropping the row undoes its change. -/
theorem Marks.filter {id : RecordingId} {before after : List Recording}
    (h : Marks id before after) :
    (after.filter fun row ↦ row.id ≠ id) = before.filter fun row ↦ row.id ≠ id := by
  obtain ⟨change, hothers, hkeys, rfl⟩ := h
  induction before with
  | nil => rfl
  | cons row rows ih =>
    rw [List.map_cons]
    by_cases hid : row.id = id
    · rw [List.filter_cons_of_neg (by simp [(hkeys row).1, hid]),
        List.filter_cons_of_neg (by simp [hid]), ih]
    · rw [List.filter_cons_of_pos (by simp [(hkeys row).1, hid]),
        List.filter_cons_of_pos (by simp [hid]), ih, hothers row hid]

theorem oldestFirst_map {change : Recording → Recording}
    (hstart : ∀ row, (change row).startTime = row.startTime) (rows : List Recording) :
    oldestFirst (rows.map change) = (oldestFirst rows).map change := by
  unfold oldestFirst
  refine (List.map_insertionSort _ _ change rows ?_).symm
  intro first _ second _
  rw [hstart, hstart]

theorem passOrder_map {change : Recording → Recording}
    (hstart : ∀ row, (change row).startTime = row.startTime) (rows : List Recording) :
    passOrder none (rows.map change) = (passOrder none rows).map change := by
  unfold passOrder
  rw [filter_isInPass_none, filter_isInPass_none, oldestFirst_map hstart]

theorem passOrder_ids_nodup (table : RecordingTable) :
    ((passOrder none table.rows).map Recording.id).Nodup := by
  have hperm : (passOrder none table.rows).Perm table.rows := by
    unfold passOrder oldestFirst
    rw [filter_isInPass_none]
    exact List.perm_insertionSort _ _
  exact (hperm.map Recording.id).nodup_iff.mpr table.ids_nodup

/-- An attempt on the next row of the order leaves it at its place, or takes it out. -/
theorem passOrder_attempt {before : RecordingTable} (after : List Recording)
    {stepped rest : List Recording} {segment : Recording}
    (horder : passOrder none before.rows = stepped ++ segment :: rest) :
    (Marks segment.id before.rows after →
        ∃ segment', passOrder none after = stepped ++ segment' :: rest) ∧
      ((after = before.rows.filter fun row ↦ row.id ≠ segment.id) →
        passOrder none after = stepped ++ rest) := by
  have hnodup := passOrder_ids_nodup before
  rw [horder, List.map_append, List.map_cons, List.nodup_append, List.nodup_cons] at hnodup
  obtain ⟨-, ⟨hrest, -⟩, hstepped⟩ := hnodup
  have hrestId : ∀ row ∈ rest, row.id ≠ segment.id := by
    intro row hrow hid
    exact hrest (hid ▸ List.mem_map_of_mem hrow)
  have hsteppedId : ∀ row ∈ stepped, row.id ≠ segment.id := by
    intro row hrow
    exact hstepped _ (List.mem_map_of_mem hrow) _ List.mem_cons_self
  constructor
  · rintro ⟨change, hothers, hkeys, rfl⟩
    refine ⟨change segment, ?_⟩
    rw [passOrder_map fun row ↦ (hkeys row).2, horder, List.map_append, List.map_cons]
    congr 1
    · exact (List.map_congr_left fun row hrow ↦ hothers row (hsteppedId row hrow)).trans
        (List.map_id _)
    · congr 1
      exact (List.map_congr_left fun row hrow ↦ hothers row (hrestId row hrow)).trans
        (List.map_id _)
  · rintro rfl
    rw [passOrder_filter, horder, List.filter_append, List.filter_cons_of_neg (by simp)]
    congr 1
    · exact List.filter_eq_self.mpr fun row hrow ↦ by simpa using hsteppedId row hrow
    · exact List.filter_eq_self.mpr fun row hrow ↦ by simpa using hrestId row hrow

/-! ### Attempts -/

/-- What an attempt to delete a row may do, however it ends: no other file goes, and nothing that
decides what may be deleted changes. -/
structure Attempt (segment : Recording) (before after : World) : Prop where
  bookmarks : after.bookmarks = before.bookmarks
  exportJobs : after.exportJobs = before.exportJobs
  now : after.now = before.now
  otherFiles : ∀ path, path ≠ segment.filePath → before.onDisk path = true →
    after.onDisk path = true

theorem Attempt.refl (segment : Recording) (world : World) : Attempt segment world world :=
  ⟨rfl, rfl, rfl, fun _ _ hdisk ↦ hdisk⟩

theorem Attempt.trans {segment : Recording} {first second third : World}
    (hfirst : Attempt segment first second) (hsecond : Attempt segment second third) :
    Attempt segment first third where
  bookmarks := hsecond.bookmarks.trans hfirst.bookmarks
  exportJobs := hsecond.exportJobs.trans hfirst.exportJobs
  now := hsecond.now.trans hfirst.now
  otherFiles := fun path hpath hdisk ↦
    hsecond.otherFiles path hpath (hfirst.otherFiles path hpath hdisk)

/-- An update of a row that is being deleted. -/
theorem answerUpdate_attempt (segment : Recording) (patch : RowPatch) (outcome : Outcome)
    (world : World) :
    Attempt segment world (world.answerUpdate segment.id patch outcome).2 ∧
      Marks segment.id world.recordings.rows
        (world.answerUpdate segment.id patch outcome).2.recordings.rows := by
  rcases world.answerUpdate_cases segment.id patch outcome with ⟨-, hanswer⟩ | ⟨-, hanswer⟩
  · rw [hanswer]
    exact ⟨⟨rfl, rfl, rfl, fun _ _ hdisk ↦ hdisk⟩, Marks.of_update _ _ _⟩
  · rw [hanswer]
    exact ⟨Attempt.refl segment world, Marks.refl _ _⟩

/-- However its calls end, a deletion succeeds exactly when the row is gone. -/
theorem deleteSegmentInternal_attempt (outcomes : Call → World → Outcome)
    {recordingsRoot : Path} {segment : Recording}
    (hroot : isWithinRoot recordingsRoot segment.filePath = true) (reportedSize : ℕ)
    (world : World) :
    ∃ result reached, eval answer outcomes
        (deleteSegmentInternal recordingsRoot segment.id segment.filePath reportedSize) world =
          (result, reached) ∧ Attempt segment world reached ∧
      ((∃ value, result = .ok value ∧ value.success = true ∧
          reached.recordings.rows = world.recordings.rows.filter fun row ↦ row.id ≠ segment.id) ∨
        (∀ value, result = .ok value → value.success = false) ∧
          Marks segment.id world.recordings.rows reached.recordings.rows) := by
  unfold deleteSegmentInternal
  rw [if_pos hroot]
  simp only [updateRecordingStatus, fsUnlinkFn, call, bind_eq, request_bind, eval_await, answer]
  generalize outcomes (.updateRecordingStatus segment.id .deletePending none) world = marking
  obtain ⟨hmarked, hmarks⟩ := answerUpdate_attempt segment
    { status := some .deletePending, errorReason := some none } marking world
  generalize (world.answerUpdate segment.id
    { status := some .deletePending, errorReason := some none } marking).2 =
        marked at hmarked hmarks ⊢
  generalize outcomes (.unlink segment.filePath) marked = unlinking
  have hremoved : Attempt segment marked (marked.removeFile segment.filePath) :=
    ⟨rfl, rfl, rfl, fun path hpath hdisk ↦ World.onDisk_removeFile.mpr ⟨hpath, hdisk⟩⟩
  have hdeleted : ∀ unlinked : World, unlinked.recordings.rows = marked.recordings.rows →
      (unlinked.removeRows fun row ↦ row.id = segment.id).recordings.rows =
        world.recordings.rows.filter fun row ↦ row.id ≠ segment.id := by
    intro unlinked hrows
    rw [← hmarks.filter, ← hrows]
    simp [World.removeRows, RecordingTable.remove]
  rcases marked.answerUnlink_cases segment.filePath unlinking with
    ⟨-, hunlink⟩ | ⟨error, hunlink, -⟩
  · rw [hunlink]
    simp only [tryDeleteRecording, call, request_bind, eval_await, answer]
    generalize outcomes (.deleteRecording segment.id) (marked.removeFile segment.filePath) =
      deleting
    rcases (marked.removeFile segment.filePath).answerDelete_cases segment.id deleting with
      hdelete | ⟨dbErr, hdelete⟩
    · rw [hdelete]
      refine ⟨_, _, rfl, hmarked.trans (hremoved.trans ⟨rfl, rfl, rfl, fun _ _ hdisk ↦ hdisk⟩), ?_⟩
      exact Or.inl ⟨_, rfl, rfl, hdeleted _ rfl⟩
    · rw [hdelete]
      simp only [eval_await, answer]
      generalize outcomes (.updateRecordingStatus segment.id .garbage _) _ = giving
      obtain ⟨hgiven, hgivenMarks⟩ := answerUpdate_attempt segment
        { status := some .garbage
          errorReason := some (some ("Database deletion failed: " ++ dbErr.message)) } giving
        (marked.removeFile segment.filePath)
      refine ⟨_, _, rfl, hmarked.trans (hremoved.trans hgiven), Or.inr ⟨?_, ?_⟩⟩
      · rintro value ⟨⟩
        rfl
      · exact hmarks.trans hgivenMarks
  · rw [hunlink]
    simp only
    split_ifs with hmissing
    · simp only [deleteRecording, tryDeleteRecording, call, bind_eq, request_bind, await_bind,
        eval_await, answer]
      generalize outcomes (.deleteRecording segment.id) marked = deleting
      rcases marked.answerDelete_cases segment.id deleting with hdelete | ⟨dbErr, hdelete⟩
      · rw [hdelete]
        refine ⟨_, _, rfl, hmarked.trans ⟨rfl, rfl, rfl, fun _ _ hdisk ↦ hdisk⟩, ?_⟩
        exact Or.inl ⟨_, rfl, rfl, hdeleted _ rfl⟩
      · rw [hdelete]
        refine ⟨_, _, rfl, hmarked, Or.inr ⟨?_, hmarks⟩⟩
        rintro value ⟨⟩
    · simp only [eval_await, answer]
      generalize outcomes (.updateRecordingStatus segment.id .garbage _) _ = giving
      obtain ⟨hgiven, hgivenMarks⟩ := answerUpdate_attempt segment
        { status := some .garbage
          errorReason := some (some ("Filesystem unlink error: " ++ error.message)) } giving marked
      refine ⟨_, _, rfl, hmarked.trans hgiven, Or.inr ⟨?_, hmarks.trans hgivenMarks⟩⟩
      rintro value ⟨⟩
      rfl

/-! ### A run of attempts -/

/-- What a run of attempts leaves alone: the rows it does not touch, their files, the holds and the
clock. No row appears. -/
structure LeavesAlone (touched : Recording → Prop) (before after : World) : Prop where
  bookmarks : after.bookmarks = before.bookmarks
  exportJobs : after.exportJobs = before.exportJobs
  now : after.now = before.now
  kept : ∀ row ∈ before.recordings.rows, ¬ touched row → row ∈ after.recordings.rows ∧
    (before.onDisk row.filePath = true → after.onDisk row.filePath = true)
  known : ∀ row ∈ after.recordings.rows, ∃ old ∈ before.recordings.rows, old.id = row.id

namespace LeavesAlone

variable {touched wider : Recording → Prop} {first second third : World}

theorem refl (touched : Recording → Prop) (world : World) : LeavesAlone touched world world :=
  ⟨rfl, rfl, rfl, fun _ hrow _ ↦ ⟨hrow, fun hdisk ↦ hdisk⟩, fun row hrow ↦ ⟨row, hrow, rfl⟩⟩

theorem mono (h : LeavesAlone touched first second) (hwider : ∀ row, touched row → wider row) :
    LeavesAlone wider first second :=
  { h with kept := fun row hrow hnot ↦ h.kept row hrow fun htouched ↦ hnot (hwider row htouched) }

theorem trans (hfirst : LeavesAlone touched first second)
    (hsecond : LeavesAlone touched second third) :
    LeavesAlone touched first third where
  bookmarks := hsecond.bookmarks.trans hfirst.bookmarks
  exportJobs := hsecond.exportJobs.trans hfirst.exportJobs
  now := hsecond.now.trans hfirst.now
  kept := by
    intro row hrow hnot
    obtain ⟨hmiddle, hdisk⟩ := hfirst.kept row hrow hnot
    obtain ⟨hlast, hdisk'⟩ := hsecond.kept row hmiddle hnot
    exact ⟨hlast, fun h ↦ hdisk' (hdisk h)⟩
  known := by
    intro row hrow
    obtain ⟨middle, hmiddle, hid⟩ := hsecond.known row hrow
    obtain ⟨old, hold, hid'⟩ := hfirst.known middle hmiddle
    exact ⟨old, hold, hid'.trans hid⟩

/-- What decides whether a row may be deleted does not change. -/
theorem mayDelete (h : LeavesAlone touched first second) (policy : RetentionPolicy)
    (mode : PurgeMode)
    (overrideDays : Option ℤ) :
    policy.mayDelete second mode overrideDays = policy.mayDelete first mode overrideDays := by
  funext row
  unfold RetentionPolicy.mayDelete RetentionPolicy.holds
  rw [h.bookmarks, h.exportJobs, h.now]

/-- An attempt on one row spares the others. -/
theorem of_attempt {segment : Recording} (hsegment : segment ∈ first.recordings.rows)
    (hattempt : Attempt segment first second)
    (hrows : Marks segment.id first.recordings.rows second.recordings.rows ∨
      second.recordings.rows = first.recordings.rows.filter fun row ↦ row.id ≠ segment.id) :
    LeavesAlone (· = segment) first second where
  bookmarks := hattempt.bookmarks
  exportJobs := hattempt.exportJobs
  now := hattempt.now
  kept := by
    intro row hrow hnot
    have hid : row.id ≠ segment.id := fun hid ↦ hnot (RecordingTable.eq_of_id_eq hrow hsegment hid)
    have hpath : row.filePath ≠ segment.filePath :=
      fun hpath ↦ hnot (RecordingTable.eq_of_filePath_eq hrow hsegment hpath)
    refine ⟨?_, hattempt.otherFiles _ hpath⟩
    rcases hrows with ⟨change, hothers, -, hrows⟩ | hrows
    · rw [hrows]
      exact List.mem_map.mpr ⟨row, hrow, hothers row hid⟩
    · rw [hrows]
      exact List.mem_filter.mpr ⟨hrow, by simpa using hid⟩
  known := by
    intro row hrow
    rcases hrows with ⟨change, -, hkeys, hrows⟩ | hrows
    · rw [hrows] at hrow
      obtain ⟨old, hold, rfl⟩ := List.mem_map.mp hrow
      exact ⟨old, hold, (hkeys old).1.symm⟩
    · rw [hrows] at hrow
      exact ⟨row, (List.mem_filter.mp hrow).1, rfl⟩

end LeavesAlone

/-- Whether a row is gone for good: no row has its id. -/
def Gone (row : Recording) (world : World) : Prop :=
  ∀ other ∈ world.recordings.rows, other.id ≠ row.id

theorem Gone.of_spares {touched : Recording → Prop} {before after : World} {row : Recording}
    (hgone : Gone row before) (hspares : LeavesAlone touched before after) : Gone row after := by
  intro other hother hid
  obtain ⟨old, hold, hsame⟩ := hspares.known other hother
  exact hgone old hold (hsame.trans hid)

section Purge

variable (outcomes : Call → World → Outcome) (controller : StorageController)

/-- The counters after an attempt. -/
def afterAttempt (progress : PurgeProgress) (result : Except Failure SegmentDeletionResult) :
    PurgeProgress :=
  match result with
  | .ok res =>
    if res.success then
      { progress with
        deletedSegmentsCount := progress.deletedSegmentsCount + 1
        freedBytes := progress.freedBytes + res.freedBytes
        batchDeleted := progress.batchDeleted + 1 }
    else { progress with skip := progress.skip + 1 }
  | .error _ => { progress with skip := progress.skip + 1 }

theorem eval_deleteCandidate {ids : List RecordingId} {segment : Recording}
    (hids : segment.id ∈ ids) (progress : PurgeProgress) {world reached : World}
    {result : Except Failure SegmentDeletionResult}
    (heval : eval answer outcomes (deleteSegmentInternal controller.recordingsRoot segment.id
      segment.filePath segment.sizeBytes) world = (result, reached)) :
    eval answer outcomes (controller.deleteCandidate ids progress segment) world =
      (.ok (afterAttempt progress result), reached) := by
  unfold StorageController.deleteCandidate
  rw [if_pos hids, eval_catching, bind_eq, eval_bind, heval]
  cases result <;> rfl

/-- One candidate: however its calls end, it is stepped over at its place or taken out of the
order. -/
theorem deleteCandidate_spec (ids : List RecordingId) {segment : Recording} {world : World}
    {stepped rest : List Recording} (progress : PurgeProgress)
    (horder : passOrder none world.recordings.rows = stepped ++ segment :: rest)
    (hskip : stepped.length = progress.skip) :
    ∃ progress' reached stepped',
      eval answer outcomes (controller.deleteCandidate ids progress segment) world =
        (.ok progress', reached) ∧
      passOrder none reached.recordings.rows = stepped' ++ rest ∧
      stepped'.length = progress'.skip ∧
      LeavesAlone (fun row ↦ row = segment ∧ segment.id ∈ ids ∧
        isWithinRoot controller.recordingsRoot segment.filePath = true) world reached ∧
      (outcomes = calm → segment.id ∈ ids →
        isWithinRoot controller.recordingsRoot segment.filePath = true → Gone segment reached) := by
  have hsegment : segment ∈ world.recordings.rows :=
    (mem_passOrder.mp (horder ▸ List.mem_append_right _ List.mem_cons_self)).1
  by_cases hdelete : segment.id ∈ ids ∧
      isWithinRoot controller.recordingsRoot segment.filePath = true
  · obtain ⟨hids, hroot⟩ := hdelete
    obtain ⟨result, reached, heval, hattempt, hresult⟩ :=
      deleteSegmentInternal_attempt outcomes hroot segment.sizeBytes world
    have hcandidate := eval_deleteCandidate outcomes controller hids progress heval
    obtain ⟨hmarked, hremoved⟩ := passOrder_attempt reached.recordings.rows horder
    rcases hresult with ⟨value, rfl, hsuccess, hrows⟩ | ⟨hfailed, hmarks⟩
    · refine ⟨_, reached, stepped, hcandidate, hremoved hrows, ?_, ?_, fun _ _ _ ↦ ?_⟩
      · simpa [afterAttempt, hsuccess] using hskip
      · refine (LeavesAlone.of_attempt hsegment hattempt (Or.inr hrows)).mono fun row hrow ↦ ?_
        exact ⟨hrow, hids, hroot⟩
      · intro other hother
        rw [hrows] at hother
        simpa using (List.mem_filter.mp hother).2
    · have hsteps : (afterAttempt progress result).skip = progress.skip + 1 := by
        cases result with
        | ok value => simp [afterAttempt, hfailed value rfl]
        | error error => rfl
      obtain ⟨segment', horder'⟩ := hmarked hmarks
      refine ⟨_, reached, stepped ++ [segment'], hcandidate, by simp [horder'],
        by simp [hskip, hsteps], ?_, ?_⟩
      · refine (LeavesAlone.of_attempt hsegment hattempt (Or.inl hmarks)).mono fun row hrow ↦ ?_
        exact ⟨hrow, hids, hroot⟩
      · rintro rfl - -
        obtain ⟨value, _, hcalm, hsuccess, -⟩ :=
          eval_deleteSegmentInternal hsegment hroot segment.sizeBytes
        rw [heval, Prod.mk.injEq] at hcalm
        rw [hfailed value hcalm.1] at hsuccess
        contradiction
  · have hover : segment.id ∈ ids →
        isWithinRoot controller.recordingsRoot segment.filePath = false := by
      intro hids
      simpa using fun hroot ↦ hdelete ⟨hids, hroot⟩
    rw [deleteCandidate_eq hover]
    refine ⟨_, world, stepped ++ [segment], rfl, by simp [horder], by simp [hskip],
      LeavesAlone.refl _ world, fun _ hids hroot ↦ ?_⟩
    exact absurd ⟨hids, hroot⟩ hdelete

/-- A batch: what it steps over and takes out is at the head of the order, and the rows behind it
stay as they are. -/
theorem deleteCandidates_spec (ids : List RecordingId) {candidates : List Recording} {world : World}
    {stepped rest : List Recording} (progress : PurgeProgress)
    (horder : passOrder none world.recordings.rows = stepped ++ (candidates ++ rest))
    (hskip : stepped.length = progress.skip) :
    ∃ progress' reached stepped',
      eval answer outcomes (candidates.foldlM (controller.deleteCandidate ids) progress) world =
        (.ok progress', reached) ∧
      passOrder none reached.recordings.rows = stepped' ++ rest ∧
      stepped'.length = progress'.skip ∧
      LeavesAlone (fun row ↦ row ∈ candidates ∧ row.id ∈ ids ∧
        isWithinRoot controller.recordingsRoot row.filePath = true) world reached ∧
      (outcomes = calm → ∀ row ∈ candidates, row.id ∈ ids →
        isWithinRoot controller.recordingsRoot row.filePath = true → Gone row reached) := by
  induction candidates generalizing progress world stepped with
  | nil =>
    refine ⟨progress, world, stepped,
      rfl, by simpa using horder, hskip, LeavesAlone.refl _ world, ?_⟩
    intro _ row hrow
    contradiction
  | cons segment candidates ih =>
    rw [List.cons_append] at horder
    obtain ⟨progress', middle, stepped', heval, horder', hskip', hspares, hgone⟩ :=
      deleteCandidate_spec outcomes controller ids progress horder hskip
    obtain ⟨progress'', reached, stepped'', heval', horder'', hskip'', hspares', hgone'⟩ :=
      ih progress' horder' hskip'
    refine ⟨progress'', reached, stepped'', ?_, horder'', hskip'', ?_, ?_⟩
    · rw [List.foldlM_cons, bind_eq, eval_bind_of_ok answer outcomes heval]
      exact heval'
    · refine (hspares.mono ?_).trans (hspares'.mono ?_)
      · rintro row ⟨rfl, htouched⟩
        exact ⟨List.mem_cons_self, htouched⟩
      · rintro row ⟨hrow, htouched⟩
        exact ⟨List.mem_cons_of_mem _ hrow, htouched⟩
    · intro hcalm row hrow hids hroot
      rcases List.mem_cons.mp hrow with rfl | hrow
      · exact (hgone hcalm hids hroot).of_spares hspares'
      · exact hgone' hcalm row hrow hids hroot

/-- What the windows of the holds are when the queries may fail. -/
theorem eval_holdWindows_cases (policy : RetentionPolicy) (segments : List Recording)
    (world : World) :
    eval answer outcomes (policy.holdWindows segments) world =
        (.ok (((world.bookmarks.filter fun bookmark ↦
            policy.holdsFrom segments ≤ bookmark.timestamp &&
              bookmark.timestamp ≤ policy.holdsTo segments).map policy.bookmarkWindow) ++
            (world.exportJobs.filter fun job ↦
              job.status = .queued || job.status = .running).map RetentionPolicy.exportWindow),
          world) ∨
      ∃ error, eval answer outcomes (policy.holdWindows segments) world =
          (.error error, world) := by
  unfold RetentionPolicy.holdWindows
  have hexports := (outcomes .findActiveExports world).orFail_cases
    (world.exportJobs.filter fun job ↦ job.status = .queued || job.status = .running)
  have hbookmarks := (outcomes (.findBookmarks (policy.holdsFrom segments)
    (policy.holdsTo segments)) world).orFail_cases (world.bookmarks.filter fun bookmark ↦
      policy.holdsFrom segments ≤ bookmark.timestamp &&
        bookmark.timestamp ≤ policy.holdsTo segments)
  simp only [call, bind_eq, request_bind]
  rw [eval_await]
  by_cases hfirst : (answer .promiseAllOrder (outcomes .promiseAllOrder world) world).1 = true
  · rw [if_pos hfirst]
    rcases hbookmarks with hbookmarks | ⟨error, -, hbookmarks⟩
    · rcases hexports with hexports | ⟨error, -, hexports⟩
      · left
        simp [answer, hbookmarks, hexports]
      · right
        exact ⟨error, by simp [answer, hbookmarks, hexports]⟩
    · right
      exact ⟨error, by simp [answer, hbookmarks]⟩
  · rw [if_neg hfirst]
    rcases hexports with hexports | ⟨error, -, hexports⟩
    · rcases hbookmarks with hbookmarks | ⟨error, -, hbookmarks⟩
      · left
        simp [answer, hbookmarks, hexports]
      · right
        exact ⟨error, by simp [answer, hbookmarks, hexports]⟩
    · right
      exact ⟨error, by simp [answer, hexports]⟩

/-- What the policy answers when its calls may fail. -/
theorem eval_deletable_cases (policy : RetentionPolicy) (candidates : List Recording)
    (mode : PurgeMode) (overrideDays : Option ℤ) (world : World) :
    eval answer outcomes (policy.deletable candidates mode overrideDays) world =
        (.ok (candidates.filter (policy.mayDelete world mode overrideDays)), world) ∨
      ∃ error, eval answer outcomes (policy.deletable candidates mode overrideDays) world =
        (.error error, world) := by
  have hnow : answer .clockNow (outcomes .clockNow world) world = (world.now, world) := rfl
  unfold RetentionPolicy.deletable
  simp only [call, bind_eq, request_bind]
  rw [eval_await, hnow, ← policy.due_filter_holds]
  split_ifs with hempty
  · left
    rw [List.isEmpty_iff.mp hempty]
    rfl
  · rw [eval_bind]
    rcases eval_holdWindows_cases outcomes policy
        (policy.due world.now candidates mode overrideDays) world with hwindows | ⟨error, hwindows⟩
    · left
      rw [hwindows]
      simp only [pure_eq, eval_done, Prod.mk.injEq, Except.ok.injEq, and_true]
      exact List.filter_congr fun row hrow ↦ by rw [policy.overlapsAny_span world hrow]
    · right
      rw [hwindows]
      exact ⟨error, rfl⟩

theorem eval_getOldestRecordings_cases (limit skip : ℕ) (statuses : Option (List SegmentStatus))
    (world : World) :
    eval answer outcomes (getOldestRecordings limit skip statuses) world =
        (.ok (((passOrder statuses world.recordings.rows).drop skip).take limit), world) ∨
      ∃ error, eval answer outcomes (getOldestRecordings limit skip statuses) world =
        (.error error, world) := by
  have hquery := (outcomes (.findOldestRecordings limit skip statuses) world).orFail_cases
    (world.recordings.findOldestRecordings limit skip statuses)
  unfold getOldestRecordings
  simp only [call, bind_eq, request_bind, eval_await, answer]
  rcases hquery with hquery | ⟨error, -, hquery⟩
  · left
    rw [hquery]
    rfl
  · right
    exact ⟨error, by simp [hquery]⟩

/-- A row that a purge by age may touch: the policy lets it go and it lies below the root. -/
def MayTouch (world : World) (overrideDays : Option ℤ) (row : Recording) : Prop :=
  controller.retention.mayDelete world .age overrideDays row = true ∧
    isWithinRoot controller.recordingsRoot row.filePath = true

/-- The pages of a purge by age: what they touch is among the rows that come next in the order, and
without failures they delete all of these that they may touch. -/
theorem purgePass_spec (overrideDays : Option ℤ) {origin : World} (iterations seen : ℕ)
    {world : World} {stepped : List Recording} (progress : PurgeProgress)
    (horder : passOrder none world.recordings.rows =
      stepped ++ (passOrder none origin.recordings.rows).drop seen)
    (hskip : stepped.length = progress.skip)
    (hsame : controller.retention.mayDelete world .age overrideDays =
      controller.retention.mayDelete origin .age overrideDays) :
    ∃ result reached,
      eval answer outcomes
        (controller.purgePass { mode := .age, overrideDays } none iterations progress) world =
          (result, reached) ∧
      LeavesAlone (fun row ↦ MayTouch controller origin overrideDays row ∧
        row ∈ ((passOrder none origin.recordings.rows).drop seen).take
          (iterations * controller.batchSize)) world reached ∧
      (outcomes = calm → ∀ row ∈ ((passOrder none origin.recordings.rows).drop seen).take
          (iterations * controller.batchSize), MayTouch controller origin overrideDays row →
        Gone row reached) := by
  induction iterations generalizing seen world stepped progress with
  | zero =>
    refine ⟨_, world, rfl, LeavesAlone.refl _ world, ?_⟩
    simp
  | succ iterations ih =>
    let order := passOrder none origin.recordings.rows
    let page := (order.drop seen).take controller.batchSize
    have hrest : order.drop seen = page ++ order.drop (seen + controller.batchSize) := by
      rw [← List.drop_drop]
      exact (List.take_append_drop _ _).symm
    have hnext : (order.drop seen).take ((iterations + 1) * controller.batchSize) =
        page ++ (order.drop (seen + controller.batchSize)).take
          (iterations * controller.batchSize) := by
      rw [Nat.succ_mul, Nat.add_comm, List.take_add, List.drop_drop]
    have hpage : ((passOrder none world.recordings.rows).drop progress.skip).take
        controller.batchSize = page := by
      rw [horder, ← hskip, List.drop_left]
    have hpageRows : ∀ row ∈ page, row ∈ world.recordings.rows := by
      intro row hrow
      rw [← hpage] at hrow
      exact (mem_passOrder.mp (List.mem_of_mem_drop (List.mem_of_mem_take hrow))).1
    rw [hnext]
    unfold StorageController.purgePass
    rw [bind_eq, eval_bind]
    rcases eval_getOldestRecordings_cases outcomes controller.batchSize progress.skip
      none world with
      hquery | ⟨error, hquery⟩
    · rw [hquery, hpage]
      simp only
      split_ifs with hempty
      · have hnone : page = [] := List.isEmpty_iff.mp hempty
        have hall := Paging.take_pages_eq_nil (iterations + 1) hnone
        rw [hnext] at hall
        rw [hall]
        refine ⟨_, world, rfl, LeavesAlone.refl _ world, ?_⟩
        simp
      · simp only [StorageController.continues, Option.getD_none, pure_eq, bind_eq, done_bind,
          if_true]
        rw [eval_bind]
        rcases eval_deletable_cases outcomes controller.retention page .age overrideDays world with
          hdeletable | ⟨error, hdeletable⟩
        · let ids := (page.filter (controller.retention.mayDelete origin .age overrideDays)).map
            Recording.id
          have hids : ∀ row ∈ page, row.id ∈ ids ↔
              controller.retention.mayDelete origin .age overrideDays row = true :=
            fun row hrow ↦ mem_deletable_ids hpageRows hrow
          obtain ⟨progress', middle, stepped', heval, horder', hskip', hspares, hgone⟩ :=
            deleteCandidates_spec outcomes controller ids { progress with batchDeleted := 0 }
              (horder.trans (congrArg (stepped ++ ·) hrest)) hskip
          have hspares : LeavesAlone (fun row ↦ MayTouch controller origin overrideDays row ∧
              row ∈ page ++ (order.drop (seen + controller.batchSize)).take
                (iterations * controller.batchSize)) world middle := by
            refine hspares.mono ?_
            rintro row ⟨hrow, hmem, hroot⟩
            exact ⟨⟨(hids row hrow).mp hmem, hroot⟩, List.mem_append_left _ hrow⟩
          have hgone : outcomes = calm → ∀ row ∈ page,
              MayTouch controller origin overrideDays row → Gone row middle := by
            rintro hcalm row hrow ⟨hmay, hroot⟩
            exact hgone hcalm row hrow ((hids row hrow).mpr hmay) hroot
          rw [hdeletable, hsame]
          simp only
          rw [eval_bind_of_ok answer outcomes heval]
          split_ifs with hlast
          · have hshort : page.length < controller.batchSize := by
              simp only [Bool.and_eq_true, decide_eq_true_eq] at hlast
              exact hlast.2
            refine ⟨_, middle, rfl, hspares, ?_⟩
            rw [Paging.drop_of_short_page hshort, List.take_nil, List.append_nil]
            exact hgone
          · obtain ⟨result, reached, heval', hspares', hgone'⟩ := ih
              (seen + controller.batchSize) progress' horder' hskip'
              ((hspares.mayDelete _ _ _).trans hsame)
            refine ⟨result, reached, heval', hspares.trans (hspares'.mono ?_), ?_⟩
            · rintro row ⟨hmay, hrow⟩
              exact ⟨hmay, List.mem_append_right _ hrow⟩
            · intro hcalm row hrow hmay
              rcases List.mem_append.mp hrow with hrow | hrow
              · exact (hgone hcalm row hrow hmay).of_spares hspares'
              · exact hgone' hcalm row hrow hmay
        · rw [hdeletable]
          refine ⟨_, world, rfl, LeavesAlone.refl _ world, ?_⟩
          rintro rfl
          rw [controller.retention.eval_deletable calm_unhindered, Prod.mk.injEq] at hdeletable
          exact absurd hdeletable.1 (by simp)
    · rw [hquery]
      refine ⟨_, world, rfl, LeavesAlone.refl _ world, ?_⟩
      rintro rfl
      rw [eval_getOldestRecordings calm_unhindered, Prod.mk.injEq] at hquery
      exact absurd hquery.1 (by simp)

/-- A purge by age touches nothing but what it may touch among the first rows of its reach, and
without failures it deletes all of that. -/
theorem purgeRetention_spec (overrideDays : Option ℤ) (world : World) :
    LeavesAlone (fun row ↦ MayTouch controller world overrideDays row ∧
        row ∈ (passOrder none world.recordings.rows).take
          (controller.maxIterations * controller.batchSize)) world
        (eval answer outcomes (controller.purgeRetention overrideDays) world).2 ∧
      (outcomes = calm → ∀ row ∈ (passOrder none world.recordings.rows).take
          (controller.maxIterations * controller.batchSize),
        MayTouch controller world overrideDays row →
          Gone row (eval answer outcomes (controller.purgeRetention overrideDays) world).2) := by
  have hstart : passOrder none world.recordings.rows =
      [] ++ (passOrder none world.recordings.rows).drop 0 := rfl
  obtain ⟨result, reached, heval, hspares, hgone⟩ := purgePass_spec outcomes controller overrideDays
    controller.maxIterations 0 { skip := 0 } hstart rfl rfl
  have hrun : (eval answer outcomes (controller.purgeRetention overrideDays) world).2 =
      reached := by
    unfold StorageController.purgeRetention StorageController.deleteOldestSegments
    simp only [StorageController.passes, StorageController.purgePasses, bind_eq]
    rw [eval_bind, heval]
    rcases result with error | ⟨returned, progress⟩
    · rfl
    · cases returned <;> rfl
  rw [hrun]
  exact ⟨hspares, hgone⟩

end Purge

end VmsLite.Recordings
