import VmsLite.Recordings.PurgeProgress

/-!
# Storage ticks on an unusable volume

Invariant 7: a storage failure halts deletions. On a volume whose health is MOUNT_MISSING or
WRITE_FAILED a tick should change no row and unlink no file. `checkStorage` looks at the health
before it deletes, but the tick purges by age first, without looking. `atUnusableTicks_iff` says
exactly when this does no harm: when no row in reach of the purge is past its lifetime and unheld.
The unlinks of a tick may end in any way, as they do on a volume that is gone or read-only.
-/

set_option autoImplicit false

namespace VmsLite.Recordings

open VmsLite.Async VmsLite.Paging Program

/-! ### The invariant -/

/-- Every unlink has an outcome of its own, and every other call goes through. -/
def withUnlinks (unlinks : Path → World → Outcome) : Call → World → Outcome
  | .unlink path, world => unlinks path world
  | _, _ => .ok

theorem withUnlinks_unhindered (unlinks : Path → World → Outcome) :
    Unhindered (withUnlinks unlinks) := by
  intro call world hcall
  cases call with
  | unlink path => exact absurd rfl (hcall path)
  | _ => rfl

/-- What happens to a storage controller: its surroundings change, settings are applied, or it
ticks. -/
inductive StorageEvent
  | surroundings (change : EnvironmentChange)
  | settings (retentionDays : ℤ) (warning critical : ℕ)
  | tick (unlinks : Path → World → Outcome)

/-- The volume cannot be written to. -/
def Unusable (controller : StorageController) (world : World) : Prop :=
  controller.volumeHealth world.volume = .mountMissing ∨
    controller.volumeHealth world.volume = .writeFailed

/-- A property of every tick of a history that finds the volume unusable. -/
def AtUnusableTicks
    (property : (Path → World → Outcome) → StorageController → World → Prop) :
    List StorageEvent → StorageController → World → Prop
  | [], _, _ => True
  | .surroundings change :: events, controller, world =>
    AtUnusableTicks property events controller (react change world)
  | .settings retentionDays warning critical :: events, controller, world =>
    AtUnusableTicks property events
      ((controller.setRetentionDays retentionDays).setThresholds warning critical none none) world
  | .tick unlinks :: events, controller, world =>
    (Unusable controller world → property unlinks controller world) ∧
      AtUnusableTicks property events controller
        (eval answer (withUnlinks unlinks) controller.tickStorage world).2

/-- No step of a tick changes a row or a file. -/
def TickKeepsStore (unlinks : Path → World → Outcome) (controller : StorageController)
    (world : World) : Prop :=
  ∀ reached ∈ visited answer (withUnlinks unlinks) controller.tickStorage world,
    KeepsStore world reached

/-- Whether the purge by age would delete a row. -/
def isAged (controller : StorageController) (world : World) (row : Recording) : Bool :=
  controller.retention.mayDelete world .age none row &&
    isWithinRoot controller.recordingsRoot row.filePath

/-- No row in reach of the purge by age would be deleted by it. -/
def NothingAged (controller : StorageController) (world : World) : Prop :=
  ∀ row ∈ (passOrder none world.recordings.rows).take
      (controller.maxIterations * controller.batchSize), isAged controller world row = false

/-! ### A deletion leaves a trace -/

section Trace

variable {policy : Call → World → Outcome}

/-- A row can be told by its id among the rows after an update. -/
theorem eq_of_update_rows_eq {table : RecordingTable} {segment : Recording} {patch : RowPatch}
    (hsegment : segment ∈ table.rows)
    (hrows : (table.update segment.id patch).rows = table.rows) :
    patch.apply segment = segment := by
  have hupdated : patch.apply segment ∈ (table.update segment.id patch).rows :=
    RecordingTable.mem_update.mpr ⟨segment, hsegment, (if_pos rfl).symm⟩
  rw [hrows] at hupdated
  exact RecordingTable.eq_of_id_eq hupdated hsegment (patch.apply_id segment)

/-- However its unlink ends, a deletion of a catalogued segment under the root changes a row or a
file on the way. -/
theorem deleteSegmentInternal_changes (hpolicy : Unhindered policy) {recordingsRoot : Path}
    {segment : Recording} {world : World} (hsegment : segment ∈ world.recordings.rows)
    (hroot : isWithinRoot recordingsRoot segment.filePath = true) (reportedSize : ℕ) :
    ∃ reached ∈ visited answer policy
        (deleteSegmentInternal recordingsRoot segment.id segment.filePath reportedSize) world,
      ¬ KeepsStore world reached := by
  let pending : RowPatch := { status := some .deletePending, errorReason := some none }
  let marked := world.updateRow segment.id pending
  unfold deleteSegmentInternal
  rw [if_pos hroot]
  simp only [updateRecordingStatus, fsUnlinkFn, call, bind_eq, request_bind, visited_await]
  rw [hpolicy _ _ (by simp), show answer (.updateRecordingStatus segment.id .deletePending none)
    .ok world = ((world.recordings.update segment.id pending).find segment.id, marked) from rfl]
  by_cases hmarked : marked.recordings.rows = world.recordings.rows
  · -- The row was DELETE_PENDING before: the trace is what the unlink leads to
    have hstatus : segment.status = .deletePending :=
      (congrArg Recording.status (eq_of_update_rows_eq hsegment hmarked)).symm
    have hthere : segment ∈ marked.recordings.rows := hmarked ▸ hsegment
    rcases World.answerUnlink_cases marked segment.filePath
      (policy (.unlink segment.filePath) marked) with ⟨hdisk, hanswer⟩ | ⟨error, hanswer, -⟩
    · rw [show answer (.unlink segment.filePath) (policy (.unlink segment.filePath) marked)
        marked = (.ok (), marked.removeFile segment.filePath) from hanswer]
      refine ⟨_, List.mem_cons_of_mem _ List.mem_cons_self, fun hkept ↦ ?_⟩
      have hgone : (marked.removeFile segment.filePath).onDisk segment.filePath = false :=
        World.not_onDisk_removeFile segment.filePath
      rw [World.onDisk, hkept.2] at hgone
      exact absurd (hgone.symm.trans hdisk) (by decide)
    · rw [show answer (.unlink segment.filePath) (policy (.unlink segment.filePath) marked)
        marked = (.error error, marked) from hanswer]
      by_cases hcode : error.code = .enoent
      · have hfind : (marked.recordings.find segment.id).isSome = true :=
          RecordingTable.find_update_isSome hsegment pending
        have hremoved : (marked.removeRows fun row ↦ row.id = segment.id) ∈
            visited answer policy (deleteRecording segment.id) marked := by
          simp only [deleteRecording, tryDeleteRecording, call, bind_eq, request_bind,
            visited_await]
          rw [hpolicy _ _ (by simp), show answer (.deleteRecording segment.id) .ok marked =
            (.ok (), marked.removeRows fun row ↦ row.id = segment.id) from if_pos hfind]
          exact List.mem_cons_self
        simp only [hcode, if_true]
        refine ⟨_, List.mem_cons_of_mem _ (List.mem_cons_of_mem _
          (mem_visited_bind answer policy hremoved)), fun hkept ↦ ?_⟩
        have hrows : world.recordings.rows.filter (fun row ↦ row.id ≠ segment.id) =
            world.recordings.rows :=
          (world.recordings.rows_remove_update segment.id pending).symm.trans hkept.1
        have hstill : segment ∈ world.recordings.rows.filter fun row ↦ row.id ≠ segment.id := by
          rw [hrows]
          exact hsegment
        exact absurd (List.mem_filter.mp hstill).2 (by simp)
      · simp only [hcode, if_false, visited_await]
        rw [hpolicy _ _ (by simp)]
        refine ⟨_, List.mem_cons_of_mem _ (List.mem_cons_of_mem _ List.mem_cons_self),
          fun hkept ↦ ?_⟩
        have hgarbage := eq_of_update_rows_eq hthere (hkept.1.trans hmarked.symm)
        exact absurd ((congrArg Recording.status hgarbage).trans hstatus) (by simp)
  · exact ⟨marked, List.mem_cons_self, fun hkept ↦ hmarked hkept.1⟩

end Trace

/-! ### The purge by age -/

section PurgeByAge

variable {policy : Call → World → Outcome} {controller : StorageController} {world : World}

/-- A candidate that would not be deleted is stepped over. -/
theorem deleteCandidate_eq {ids : List RecordingId} {segment : Recording}
    (hids : segment.id ∈ ids → isWithinRoot controller.recordingsRoot segment.filePath = false)
    (progress : PurgeProgress) :
    controller.deleteCandidate ids progress segment =
      done { progress with skip := progress.skip + 1 } := by
  unfold StorageController.deleteCandidate
  split_ifs with hmem
  · unfold deleteSegmentInternal
    rw [if_neg (by rw [hids hmem]; decide)]
    rfl
  · rfl

/-- A batch of rows that would not be deleted is stepped over. -/
theorem deleteCandidates_eq {ids : List RecordingId} {candidates : List Recording}
    (hids : ∀ row ∈ candidates, row.id ∈ ids →
      isWithinRoot controller.recordingsRoot row.filePath = false) (progress : PurgeProgress) :
    candidates.foldlM (controller.deleteCandidate ids) progress =
      done { progress with skip := progress.skip + candidates.length } := by
  induction candidates generalizing progress with
  | nil => rfl
  | cons segment rest ih =>
    rw [List.foldlM_cons, deleteCandidate_eq (hids segment List.mem_cons_self), bind_eq, done_bind,
      ih fun row hrow ↦ hids row (List.mem_cons_of_mem _ hrow)]
    simp only [List.length_cons, Nat.add_assoc, Nat.add_comm 1]

/-- A batch with a row that would be deleted leaves a trace. -/
theorem deleteCandidates_changes (hpolicy : Unhindered policy) {ids : List RecordingId}
    {candidates : List Recording} (hrows : ∀ row ∈ candidates, row ∈ world.recordings.rows)
    (hexists : ∃ row ∈ candidates, row.id ∈ ids ∧
      isWithinRoot controller.recordingsRoot row.filePath = true) (progress : PurgeProgress) :
    ∃ reached ∈ visited answer policy
        (candidates.foldlM (controller.deleteCandidate ids) progress) world,
      ¬ KeepsStore world reached := by
  induction candidates generalizing progress with
  | nil =>
    obtain ⟨row, hrow, -⟩ := hexists
    exact absurd hrow List.not_mem_nil
  | cons segment rest ih =>
    rw [List.foldlM_cons, bind_eq]
    by_cases hfirst : segment.id ∈ ids ∧
        isWithinRoot controller.recordingsRoot segment.filePath = true
    · obtain ⟨reached, hreached, hchanged⟩ := deleteSegmentInternal_changes hpolicy
        (hrows segment List.mem_cons_self) hfirst.2 segment.sizeBytes
      refine ⟨reached, mem_visited_bind answer policy ?_, hchanged⟩
      unfold StorageController.deleteCandidate
      rw [if_pos hfirst.1]
      exact mem_visited_catching answer policy (mem_visited_bind answer policy hreached)
    · have hover : segment.id ∈ ids →
          isWithinRoot controller.recordingsRoot segment.filePath = false := fun hmem ↦ by
        simpa using fun hroot ↦ hfirst ⟨hmem, hroot⟩
      rw [deleteCandidate_eq hover, done_bind]
      refine ih (fun row hrow ↦ hrows row (List.mem_cons_of_mem _ hrow)) ?_ _
      obtain ⟨row, hrow, hdeleted⟩ := hexists
      rcases List.mem_cons.mp hrow with rfl | hlater
      · exact absurd hdeleted hfirst
      · exact ⟨row, hlater, hdeleted⟩

theorem getOldestRecordings_uses (limit skip : ℕ) (statuses : Option (List SegmentStatus)) :
    (getOldestRecordings limit skip statuses).Uses (Call.harmless · = true) :=
  Uses.bind (Uses.request rfl) fun _ ↦ Uses.orThrow

/-- What an iteration of the purge by age does once it has its page. -/
def purgePage (controller : StorageController) (iterations : ℕ) (progress : PurgeProgress)
    (page : List Recording) (deletable : List Recording) : Async (Bool × PurgeProgress) := do
  let progress ← page.foldlM (controller.deleteCandidate (deletable.map Recording.id))
    { progress with batchDeleted := 0 }
  if progress.batchDeleted = 0 && page.length < controller.batchSize then
    pure (false, { progress with allRemainingProtected := true })
  else controller.purgePass { mode := .age } none iterations progress

/-- The page an iteration looks at. -/
def pageOf (controller : StorageController) (world : World) (skip : ℕ) : List Recording :=
  ((passOrder none world.recordings.rows).drop skip).take controller.batchSize

theorem pageOf_subset {skip : ℕ} :
    ∀ row ∈ pageOf controller world skip, row ∈ world.recordings.rows := fun _ hrow ↦
  (mem_passOrder.mp (List.mem_of_mem_drop (List.mem_of_mem_take hrow))).1

/-- The rows of the next iterations are those of the next page and those of the others. -/
theorem rows_succ (skip iterations : ℕ) :
    ((passOrder none world.recordings.rows).drop skip).take
        ((iterations + 1) * controller.batchSize) =
      pageOf controller world skip ++
        ((passOrder none world.recordings.rows).drop (skip + controller.batchSize)).take
          (iterations * controller.batchSize) := by
  rw [pageOf, Nat.succ_mul, Nat.add_comm, List.take_add, List.drop_drop]

/-- An iteration whose page is empty ends the pass. -/
theorem purgePass_of_empty (hpolicy : Unhindered policy) (iterations : ℕ)
    {progress : PurgeProgress} (hpage : pageOf controller world progress.skip = []) :
    (∃ progress', eval answer policy
        (controller.purgePass { mode := .age } none (iterations + 1) progress) world =
          (.ok (false, progress'), world)) ∧
      ∀ reached ∈ visited answer policy
        (controller.purgePass { mode := .age } none (iterations + 1) progress) world,
          KeepsStore world reached := by
  have hquery := eval_getOldestRecordings hpolicy controller.batchSize progress.skip none world
  rw [show ((passOrder none world.recordings.rows).drop progress.skip).take
    controller.batchSize = [] from hpage] at hquery
  unfold StorageController.purgePass
  rw [bind_eq, eval_bind_of_ok answer policy hquery, visited_bind_of_ok answer policy hquery]
  refine ⟨⟨_, rfl⟩, fun reached hreached ↦ ?_⟩
  exact keepsStore_of_uses (getOldestRecordings_uses controller.batchSize progress.skip none)
    policy world reached (by simpa using hreached)

/-- An iteration with a page reads it, asks the policy, and goes on with `purgePage`. -/
theorem purgePass_of_page (hpolicy : Unhindered policy) (iterations : ℕ)
    {progress : PurgeProgress} (hpage : pageOf controller world progress.skip ≠ []) :
    eval answer policy
        (controller.purgePass { mode := .age } none (iterations + 1) progress) world =
      eval answer policy (purgePage controller iterations progress
        (pageOf controller world progress.skip) ((pageOf controller world progress.skip).filter
          (controller.retention.mayDelete world .age none))) world ∧
    ∃ reads : List World, (∀ reached ∈ reads, KeepsStore world reached) ∧
      visited answer policy
          (controller.purgePass { mode := .age } none (iterations + 1) progress) world =
        reads ++ visited answer policy (purgePage controller iterations progress
          (pageOf controller world progress.skip) ((pageOf controller world progress.skip).filter
            (controller.retention.mayDelete world .age none))) world := by
  have hquery := eval_getOldestRecordings hpolicy controller.batchSize progress.skip none world
  have hdeletable := controller.retention.eval_deletable hpolicy
    (pageOf controller world progress.skip) .age none world
  have hnonempty : ¬ (pageOf controller world progress.skip).isEmpty = true := by
    simpa using hpage
  unfold StorageController.purgePass
  rw [bind_eq, eval_bind_of_ok answer policy hquery, visited_bind_of_ok answer policy hquery]
  rw [pageOf] at hnonempty
  simp only [if_neg hnonempty, StorageController.continues, Option.getD_none, pure_eq, bind_eq,
    done_bind, if_true]
  rw [pageOf] at hdeletable ⊢
  rw [eval_bind_of_ok answer policy hdeletable, visited_bind_of_ok answer policy hdeletable,
    ← List.append_assoc]
  refine ⟨rfl, _, fun reached hreached ↦ ?_, rfl⟩
  rcases List.mem_append.mp hreached with hfirst | hsecond
  · exact keepsStore_of_uses (getOldestRecordings_uses controller.batchSize progress.skip none)
      policy world reached hfirst
  · exact keepsStore_of_uses (controller.retention.deletable_uses _ .age none) policy world
      reached hsecond

/-- A purge by age that meets no aged row ends where it began, and changes nothing on the way. -/
theorem purgePass_of_nothingAged (hpolicy : Unhindered policy) (iterations : ℕ)
    (progress : PurgeProgress)
    (haged : ∀ row ∈ ((passOrder none world.recordings.rows).drop progress.skip).take
      (iterations * controller.batchSize), isAged controller world row = false) :
    (∃ progress', eval answer policy
        (controller.purgePass { mode := .age } none iterations progress) world =
          (.ok (false, progress'), world)) ∧
      ∀ reached ∈ visited answer policy
        (controller.purgePass { mode := .age } none iterations progress) world,
          KeepsStore world reached := by
  induction iterations generalizing progress with
  | zero => exact ⟨⟨progress, rfl⟩, fun reached hreached ↦ absurd hreached List.not_mem_nil⟩
  | succ iterations ih =>
    by_cases hpage : pageOf controller world progress.skip = []
    · exact purgePass_of_empty hpolicy iterations hpage
    · obtain ⟨heval, reads, hreads, hvisited⟩ := purgePass_of_page hpolicy iterations hpage
      rw [rows_succ] at haged
      have hover : ∀ row ∈ pageOf controller world progress.skip,
          row.id ∈ ((pageOf controller world progress.skip).filter
            (controller.retention.mayDelete world .age none)).map Recording.id →
          isWithinRoot controller.recordingsRoot row.filePath = false := by
        intro row hrow hmem
        have hkept := haged row (List.mem_append_left _ hrow)
        rw [isAged, (mem_deletable_ids pageOf_subset hrow).mp hmem, Bool.true_and] at hkept
        exact hkept
      rw [heval, hvisited]
      unfold purgePage
      rw [deleteCandidates_eq hover, bind_eq, done_bind]
      split_ifs with hlast
      · exact ⟨⟨_, rfl⟩, fun reached hreached ↦ hreads reached (by simpa using hreached)⟩
      · have hlength : (pageOf controller world progress.skip).length = controller.batchSize := by
          simp only [Bool.and_eq_true, decide_eq_true_eq, true_and] at hlast
          exact le_antisymm (List.length_take_le _ _) (not_lt.mp hlast)
        obtain ⟨hend, hkept⟩ := ih
          { progress with
            batchDeleted := 0
            skip := progress.skip + (pageOf controller world progress.skip).length }
          fun row hrow ↦ haged row (List.mem_append_right _ (by simpa [hlength] using hrow))
        refine ⟨hend, fun reached hreached ↦ ?_⟩
        rcases List.mem_append.mp hreached with hread | hlater
        · exact hreads reached hread
        · exact hkept reached hlater

/-- A purge by age that meets an aged row changes something on the way. -/
theorem purgePass_changes (hpolicy : Unhindered policy) (iterations : ℕ)
    (progress : PurgeProgress)
    (haged : ∃ row ∈ ((passOrder none world.recordings.rows).drop progress.skip).take
      (iterations * controller.batchSize), isAged controller world row = true) :
    ∃ reached ∈ visited answer policy
        (controller.purgePass { mode := .age } none iterations progress) world,
      ¬ KeepsStore world reached := by
  induction iterations generalizing progress with
  | zero => simp at haged
  | succ iterations ih =>
    obtain ⟨row, hrow, hrowAged⟩ := haged
    have hpage : pageOf controller world progress.skip ≠ [] := by
      intro hempty
      rw [take_pages_eq_nil (iterations + 1) hempty] at hrow
      exact absurd hrow List.not_mem_nil
    obtain ⟨-, reads, -, hvisited⟩ := purgePass_of_page hpolicy iterations hpage
    rw [rows_succ] at hrow
    rw [hvisited]
    unfold purgePage
    by_cases hpageAged : ∃ row ∈ pageOf controller world progress.skip,
        isAged controller world row = true
    · obtain ⟨aged, hagedPage, haged⟩ := hpageAged
      rw [isAged, Bool.and_eq_true] at haged
      obtain ⟨reached, hreached, hchanged⟩ := deleteCandidates_changes hpolicy pageOf_subset
        ⟨aged, hagedPage, (mem_deletable_ids pageOf_subset hagedPage).mpr haged.1, haged.2⟩
        { progress with batchDeleted := 0 }
      exact ⟨reached, List.mem_append_right _ (mem_visited_bind answer policy hreached), hchanged⟩
    · have hover : ∀ row ∈ pageOf controller world progress.skip,
          row.id ∈ ((pageOf controller world progress.skip).filter
            (controller.retention.mayDelete world .age none)).map Recording.id →
          isWithinRoot controller.recordingsRoot row.filePath = false := by
        intro other hother hmem
        by_contra hroot
        refine hpageAged ⟨other, hother, ?_⟩
        rw [isAged, (mem_deletable_ids pageOf_subset hother).mp hmem, Bool.true_and]
        simpa using hroot
      have htail := (List.mem_append.mp hrow).resolve_left fun hfirst ↦
        hpageAged ⟨row, hfirst, hrowAged⟩
      have hlength : (pageOf controller world progress.skip).length = controller.batchSize := by
        refine le_antisymm (List.length_take_le _ _) (not_lt.mp fun hshort ↦ ?_)
        rw [drop_of_short_page hshort, List.take_nil] at htail
        exact absurd htail List.not_mem_nil
      obtain ⟨reached, hreached, hchanged⟩ := ih
        { progress with
          batchDeleted := 0
          skip := progress.skip + (pageOf controller world progress.skip).length }
        ⟨row, by simpa [hlength] using htail, hrowAged⟩
      rw [deleteCandidates_eq hover, bind_eq, done_bind,
        if_neg (by simp [hlength] : ¬ (decide (0 = 0) && decide
          ((pageOf controller world progress.skip).length < controller.batchSize)) = true)]
      exact ⟨reached, List.mem_append_right _ hreached, hchanged⟩

end PurgeByAge

/-! ### Ticks -/

section Ticks

variable {policy : Call → World → Outcome} {controller : StorageController} {world : World}

/-- The purge by age of a tick, when it meets no aged row. -/
theorem purgeRetention_of_nothingAged (hpolicy : Unhindered policy)
    (haged : NothingAged controller world) :
    (∃ purged, eval answer policy controller.purgeRetention world = (.ok purged, world)) ∧
      ∀ reached ∈ visited answer policy controller.purgeRetention world,
        KeepsStore world reached := by
  obtain ⟨⟨progress, heval⟩, hkept⟩ := purgePass_of_nothingAged hpolicy controller.maxIterations
    { skip := 0 } haged
  unfold StorageController.purgeRetention StorageController.deleteOldestSegments
  simp only [StorageController.passes, StorageController.purgePasses, bind_eq]
  rw [eval_bind_of_ok answer policy heval, visited_bind_of_ok answer policy heval]
  exact ⟨⟨progress, rfl⟩, fun reached hreached ↦ hkept reached (by simpa using hreached)⟩

/-- The purge by age of a tick, when it meets an aged row. -/
theorem purgeRetention_changes (hpolicy : Unhindered policy)
    (haged : ¬ NothingAged controller world) :
    ∃ reached ∈ visited answer policy controller.purgeRetention world,
      ¬ KeepsStore world reached := by
  have hexists : ∃ row ∈ ((passOrder none world.recordings.rows).drop 0).take
      (controller.maxIterations * controller.batchSize), isAged controller world row = true := by
    by_contra hnone
    refine haged fun row hrow ↦ ?_
    by_contra hrowAged
    exact hnone ⟨row, hrow, by simpa using hrowAged⟩
  obtain ⟨reached, hreached, hchanged⟩ :=
    purgePass_changes hpolicy controller.maxIterations { skip := 0 } hexists
  exact ⟨reached, mem_visited_bind answer policy hreached, hchanged⟩

/-- On an unusable volume, `checkStorage` reads the metrics and stops. -/
theorem checkStorage_of_unusable (hpolicy : Unhindered policy)
    (hunusable : Unusable controller world) :
    (∃ result reached, eval answer policy controller.checkStorage world = (.ok result, reached)) ∧
      ∀ reached ∈ visited answer policy controller.checkStorage world,
        KeepsStore world reached := by
  obtain ⟨metrics, read, heval, -, -, hhealth⟩ := controller.eval_getStorageMetrics hpolicy world
  have hkept := keepsStore_of_uses controller.getStorageMetrics_uses policy world
  unfold StorageController.checkStorage
  rw [bind_eq, eval_bind_of_ok answer policy heval, visited_bind_of_ok answer policy heval, hhealth]
  rcases hunusable with hmissing | hfailed
  · rw [hmissing]
    exact ⟨⟨_, _, rfl⟩, fun reached hreached ↦ hkept reached (by simpa using hreached)⟩
  · rw [hfailed]
    exact ⟨⟨_, _, rfl⟩, fun reached hreached ↦ hkept reached (by simpa using hreached)⟩

/-- A tick on an unusable volume keeps the store exactly when nothing in its reach is aged. -/
theorem tickKeepsStore_of_unusable_iff (unlinks : Path → World → Outcome)
    (hunusable : Unusable controller world) :
    TickKeepsStore unlinks controller world ↔ NothingAged controller world := by
  have hpolicy := withUnlinks_unhindered unlinks
  unfold TickKeepsStore StorageController.tickStorage
  constructor
  · intro hkept
    by_contra haged
    obtain ⟨reached, hreached, hchanged⟩ := purgeRetention_changes hpolicy haged
    exact hchanged (hkept reached (mem_visited_catching answer _
      (mem_visited_bind answer _ hreached)))
  · intro haged reached hreached
    obtain ⟨⟨purged, hpurge⟩, hpurgeKept⟩ := purgeRetention_of_nothingAged hpolicy haged
    obtain ⟨⟨result, checked, hcheck⟩, hcheckKept⟩ := checkStorage_of_unusable hpolicy hunusable
    rw [visited_catching, bind_eq, visited_bind_of_ok answer _ hpurge,
      eval_bind_of_ok answer _ hpurge, bind_eq, visited_bind_of_ok answer _ hcheck,
      eval_bind_of_ok answer _ hcheck] at hreached
    simp only [pure_eq, visited_done, eval_done, List.append_nil] at hreached
    rcases List.mem_append.mp hreached with hfirst | hsecond
    · exact hpurgeKept reached hfirst
    · exact hcheckKept reached hsecond

end Ticks

/-- In every history of a storage controller, the ticks on an unusable volume keep the store exactly
when each of them finds nothing aged in its reach. -/
theorem atUnusableTicks_iff (events : List StorageEvent) (controller : StorageController)
    (world : World) :
    AtUnusableTicks TickKeepsStore events controller world ↔
      AtUnusableTicks (fun _ controller world ↦ NothingAged controller world) events controller
        world := by
  induction events generalizing controller world with
  | nil => exact Iff.rfl
  | cons event events ih =>
    cases event with
    | surroundings change => exact ih controller (react change world)
    | settings retentionDays warning critical => exact ih _ world
    | tick unlinks =>
      refine and_congr ?_ (ih controller _)
      exact forall_congr' fun hunusable ↦ tickKeepsStore_of_unusable_iff unlinks hunusable

/-- On a missing mount, where every unlink says `ENOENT`, one tick wipes a segment that is past its
lifetime from the catalogue. -/
theorem not_atUnusableTicks_missing_mount :
    ¬ AtUnusableTicks TickKeepsStore
      [.tick fun _ _ ↦ .fail { code := .enoent, message := "ENOENT" }]
      { recordingsRoot := ["rec"] }
      { yardWorld with now := 700000000 } := by
  rintro ⟨hkept, -⟩
  have hunusable : Unusable { recordingsRoot := ["rec"] } { yardWorld with now := 700000000 } :=
    Or.inl (by decide)
  have haged := (tickKeepsStore_of_unusable_iff _ hunusable).mp (hkept hunusable)
  exact absurd (haged yardSegment (by decide)) (by decide)

end VmsLite.Recordings
