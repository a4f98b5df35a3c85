import VmsLite.Paging.Pages
import VmsLite.Recordings.PurgeReadings
import VmsLite.Recordings.PurgeReach

/-!
# The pages of a purge

What a pass of a purge makes of the rows it looks at, over a file system that refuses to unlink some
files (`Looked`), and where in its order it is (`At`). A segment whose file is refused becomes
GARBAGE, so it drops out of a pass over the quarantined segments, though the pass counts it as left
behind: a gap opens before the next page (`At.next`).
-/

set_option autoImplicit false

namespace VmsLite.Recordings

open VmsLite.Async Program Paging

/-! ### What a pass does to the rows -/

/-- What a purge asks `deleteOldestSegments` for. -/
def Purge.opts (purge : Purge) (controller : StorageController) : PurgeOptions :=
  match purge with
  | age overrideDays => { mode := .age, overrideDays }
  | capacity => { mode := .capacity, shouldContinue := some controller.aboveTarget }

theorem Purge.mayDelete_eq (purge : Purge) (controller : StorageController) (world : World) :
    controller.retention.mayDelete world (purge.opts controller).mode
      (purge.opts controller).overrideDays = purge.deletable controller world := by
  cases purge <;> rfl

/-- The catalogued size of some segments. -/
def totalBytes : List Recording → ℕ
  | [] => 0
  | row :: rows => row.sizeBytes + totalBytes rows

@[simp] theorem totalBytes_nil : totalBytes [] = 0 := rfl

@[simp] theorem totalBytes_cons (row : Recording) (rows : List Recording) :
    totalBytes (row :: rows) = row.sizeBytes + totalBytes rows := rfl

@[simp] theorem totalBytes_append (first second : List Recording) :
    totalBytes (first ++ second) = totalBytes first + totalBytes second := by
  induction first with
  | nil => exact (Nat.zero_add _).symm
  | cons row rows ih => simp only [List.cons_append, totalBytes_cons, ih, Nat.add_assoc]

theorem totalBytes_eq_of_perm {first second : List Recording} (hperm : first.Perm second) :
    totalBytes first = totalBytes second := by
  induction hperm with
  | nil => rfl
  | cons row _ ih => simp only [totalBytes_cons, ih]
  | swap first second rows => exact Nat.add_left_comm _ _ _
  | trans _ _ ihFirst ihSecond => exact ihFirst.trans ihSecond

/-- A pass of a purge that begins in a world, over a file system with refusals and a disk with
readings. -/
structure PurgePass where
  controller : StorageController
  purge : Purge
  statuses : Option (List SegmentStatus)
  refusals : Option (List SegmentStatus) → Path → Option Failure
  readings : ℕ → DiskStats
  origin : World

namespace PurgePass

variable (pass : PurgePass)

/-- What the file system says to an attempt to unlink a file in this pass. -/
def refusal (path : Path) : Option Failure := pass.refusals pass.statuses path

/-- The retention policy lets the row go, and its file lies below the root. -/
def mayGo (row : Recording) : Bool :=
  pass.purge.deletable pass.controller pass.origin row &&
    isWithinRoot pass.controller.recordingsRoot row.filePath

/-- Whether the file system refuses to unlink the file of a row. -/
def refuses (row : Recording) : Bool :=
  (pass.refusal row.filePath).any fun error ↦ error.code ≠ .enoent

/-- The rows that a pass deletes when it looks at them. -/
def deletes (row : Recording) : Bool := pass.mayGo row && !pass.refuses row

/-- The rows that a pass turns into garbage. -/
def spoils (row : Recording) : Bool := pass.mayGo row && pass.refuses row

/-- A row whose file could not be unlinked. -/
def spoiledRow (row : Recording) : Recording :=
  match pass.refusal row.filePath with
  | some error =>
    { row with
      status := .garbage
      errorReason := some ("Filesystem unlink error: " ++ error.message) }
  | none => row

/-- The rows that drop out of the order of the pass, though it counts them as left behind. -/
def loses (row : Recording) : Bool :=
  pass.spoils row && !isInPass pass.statuses (pass.spoiledRow row)

/-- The rows whose file a pass unlinks. -/
def unlinks (row : Recording) : Bool :=
  pass.mayGo row && (pass.refusal row.filePath).isNone && pass.origin.onDisk row.filePath

/-- What becomes of a row that was looked at and is not deleted. -/
def afterLook (looked : List RecordingId) (row : Recording) : Recording :=
  if row.id ∈ looked ∧ pass.spoils row = true then pass.spoiledRow row else row

/-- The rows after a pass has looked at some of them. -/
def rowsAfter (looked : List RecordingId) : List Recording :=
  (pass.origin.recordings.rows.filter fun row ↦ !(decide (row.id ∈ looked) && pass.deletes row)).map
    (pass.afterLook looked)

/-- The counters after some rows were looked at. -/
def counted (progress : PurgeProgress) (rows : List Recording) : PurgeProgress :=
  { progress with
    deletedSegmentsCount := progress.deletedSegmentsCount + rows.countP pass.deletes
    freedBytes := progress.freedBytes + totalBytes (rows.filter pass.unlinks)
    skip := progress.skip + rows.countP fun row ↦ !pass.deletes row
    batchDeleted := progress.batchDeleted + rows.countP pass.deletes }

/-- The world after a pass has looked at some rows. -/
structure Looked (looked : List RecordingId) (world : World) : Prop where
  rows : world.recordings.rows = pass.rowsAfter looked
  bookmarks : world.bookmarks = pass.origin.bookmarks
  exportJobs : world.exportJobs = pass.origin.exportJobs
  now : world.now = pass.origin.now
  onDisk : ∀ path, world.onDisk path = true ↔ pass.origin.onDisk path = true ∧
    ∀ row ∈ pass.origin.recordings.rows, row.id ∈ looked → pass.unlinks row = true →
      row.filePath ≠ path
  riskCount : riskCount world = Recordings.riskCount pass.origin

variable {pass}

@[simp] theorem spoiledRow_id (row : Recording) : (pass.spoiledRow row).id = row.id := by
  unfold spoiledRow
  split <;> rfl

@[simp] theorem spoiledRow_startTime (row : Recording) :
    (pass.spoiledRow row).startTime = row.startTime := by
  unfold spoiledRow
  split <;> rfl

@[simp] theorem afterLook_id (looked : List RecordingId) (row : Recording) :
    (pass.afterLook looked row).id = row.id := by
  unfold afterLook
  split_ifs <;> simp

@[simp] theorem afterLook_startTime (looked : List RecordingId) (row : Recording) :
    (pass.afterLook looked row).startTime = row.startTime := by
  unfold afterLook
  split_ifs <;> simp

theorem mem_rowsAfter_iff {looked : List RecordingId} {row : Recording} :
    row ∈ pass.rowsAfter looked ↔ ∃ old ∈ pass.origin.recordings.rows,
      (decide (old.id ∈ looked) && pass.deletes old) = false ∧ pass.afterLook looked old = row := by
  simp only [rowsAfter, List.mem_map, List.mem_filter, Bool.not_eq_true', and_assoc]

theorem afterLook_of_not_mem {looked : List RecordingId} {row : Recording}
    (hfresh : row.id ∉ looked) :
    pass.afterLook looked row = row := if_neg fun hlooked ↦ hfresh hlooked.1

theorem afterLook_concat_of_ne {looked : List RecordingId} {row : Recording} {id : RecordingId}
    (hne : row.id ≠ id) : pass.afterLook (looked ++ [id]) row = pass.afterLook looked row := by
  simp [afterLook, hne]

theorem deletes_of_unlinks {row : Recording} (hunlinks : pass.unlinks row = true) :
    pass.deletes row = true := by
  simp only [unlinks, Bool.and_eq_true, Option.isNone_iff_eq_none] at hunlinks
  simp [deletes, refuses, hunlinks]

theorem not_unlinks_of_not_deletes {row : Recording} (hdeletes : pass.deletes row = false) :
    pass.unlinks row = false :=
  Bool.eq_false_iff.mpr fun hunlinks ↦
    Bool.false_ne_true (hdeletes.symm.trans (deletes_of_unlinks hunlinks))

theorem counted_append (progress : PurgeProgress) (first second : List Recording) :
    pass.counted progress (first ++ second) =
        pass.counted (pass.counted progress first) second := by
  simp [counted, Nat.add_assoc]

theorem looked_nil : pass.Looked [] pass.origin where
  rows := by
    have hsame : pass.afterLook [] = fun row ↦ row :=
      funext fun row ↦ afterLook_of_not_mem List.not_mem_nil
    simp [rowsAfter, hsame]
  bookmarks := rfl
  exportJobs := rfl
  now := rfl
  onDisk := by simp
  riskCount := rfl

section Attempt

variable {looked : List RecordingId} {segment : Recording}
  (hsegment : segment ∈ pass.origin.recordings.rows) (hfresh : segment.id ∉ looked)
include hsegment

theorem mem_rowsAfter (hfresh : segment.id ∉ looked) : segment ∈ pass.rowsAfter looked := by
  refine List.mem_map.mpr ⟨segment, List.mem_filter.mpr ⟨hsegment, ?_⟩, afterLook_of_not_mem hfresh⟩
  simp [hfresh]

/-- Looking at a row that is deleted takes it out. -/
theorem rowsAfter_of_deletes (hdeletes : pass.deletes segment = true) :
    pass.rowsAfter (looked ++ [segment.id]) =
      (pass.rowsAfter looked).filter fun row ↦ row.id ≠ segment.id := by
  unfold rowsAfter
  rw [List.filter_map, List.filter_filter]
  have hkept : ∀ row ∈ pass.origin.recordings.rows,
      (!(decide (row.id ∈ looked ++ [segment.id]) && pass.deletes row)) =
        (((fun row ↦ decide (row.id ≠ segment.id)) ∘ pass.afterLook looked) row &&
          !(decide (row.id ∈ looked) && pass.deletes row)) := by
    intro row hrow
    by_cases hid : row.id = segment.id
    · obtain rfl := RecordingTable.eq_of_id_eq hrow hsegment hid
      simp [hdeletes]
    · simp [hid]
  rw [List.filter_congr hkept]
  refine List.map_congr_left fun row hrow ↦ afterLook_concat_of_ne ?_
  have hne := (Bool.and_eq_true _ _ ▸ (List.mem_filter.mp hrow).2).1
  simpa using hne

include hfresh

/-- Looking at a row that is not deleted keeps it where it is. -/
theorem rowsAfter_of_not_deletes (hdeletes : pass.deletes segment = false) :
    pass.rowsAfter (looked ++ [segment.id]) = (pass.rowsAfter looked).map fun row ↦
      if row.id = segment.id then pass.afterLook [segment.id] segment else row := by
  unfold rowsAfter
  rw [List.map_map]
  have hkept : ∀ row ∈ pass.origin.recordings.rows,
      (!(decide (row.id ∈ looked ++ [segment.id]) && pass.deletes row)) =
        (!(decide (row.id ∈ looked) && pass.deletes row)) := by
    intro row hrow
    by_cases hid : row.id = segment.id
    · obtain rfl := RecordingTable.eq_of_id_eq hrow hsegment hid
      simp [hdeletes]
    · simp [hid]
  rw [List.filter_congr hkept]
  refine List.map_congr_left fun row hrow ↦ ?_
  rw [Function.comp_apply, afterLook_id]
  split_ifs with hid
  · obtain rfl := RecordingTable.eq_of_id_eq (List.mem_filter.mp hrow).1 hsegment hid
    simp [afterLook]
  · exact afterLook_concat_of_ne hid

/-- The file of a row that was not looked at is there when it was at the start. -/
theorem Looked.onDisk_segment {world : World} (hlooked : pass.Looked looked world) :
    world.onDisk segment.filePath = true ↔ pass.origin.onDisk segment.filePath = true := by
  rw [hlooked.onDisk]
  refine and_iff_left fun row hrow hid _ hpath ↦ hfresh ?_
  rwa [RecordingTable.eq_of_filePath_eq hrow hsegment hpath] at hid

omit hfresh in
/-- The files that are gone after one more row was looked at. -/
theorem forall_unlinked_concat (path : Path) :
    (∀ row ∈ pass.origin.recordings.rows, row.id ∈ looked ++ [segment.id] →
      pass.unlinks row = true →
        row.filePath ≠ path) ↔
      (∀ row ∈ pass.origin.recordings.rows, row.id ∈ looked → pass.unlinks row = true →
        row.filePath ≠ path) ∧ (pass.unlinks segment = true → segment.filePath ≠ path) := by
  constructor
  · intro hgone
    exact ⟨fun row hrow hid ↦ hgone row hrow (List.mem_append_left _ hid),
      hgone segment hsegment (List.mem_append_right _ (List.mem_singleton_self _))⟩
  · rintro ⟨hgone, hthis⟩ row hrow hid
    rcases List.mem_append.mp hid with hold | hnew
    · exact hgone row hrow hold
    · rwa [RecordingTable.eq_of_id_eq hrow hsegment (List.mem_singleton.mp hnew)]

/-- Looking at a row that may not go changes nothing. -/
theorem Looked.leave {world : World} (hlooked : pass.Looked looked world)
    (hstays : pass.mayGo segment = false) : pass.Looked (looked ++ [segment.id]) world := by
  have hdeletes : pass.deletes segment = false := by simp [deletes, hstays]
  have hlook : pass.afterLook [segment.id] segment = segment := by simp [afterLook, spoils, hstays]
  have hunlinks : pass.unlinks segment = false := by simp [unlinks, hstays]
  refine ⟨?_, hlooked.bookmarks, hlooked.exportJobs, hlooked.now, fun path ↦ ?_, hlooked.riskCount⟩
  · rw [rowsAfter_of_not_deletes hsegment hfresh hdeletes, hlook, ← hlooked.rows]
    have hstored : segment ∈ world.recordings.rows := hlooked.rows ▸ mem_rowsAfter hsegment hfresh
    refine ((List.map_congr_left fun row hrow ↦ ?_).trans (List.map_id _)).symm
    split_ifs with hid
    · exact (RecordingTable.eq_of_id_eq hrow hstored hid).symm
    · rfl
  · rw [hlooked.onDisk, forall_unlinked_concat hsegment]
    simp [hunlinks]

/-- A row whose file is refused becomes garbage. -/
theorem Looked.spoil {world reached : World} (hlooked : pass.Looked looked world)
    (hspoils : pass.spoils segment = true)
    (hrows : reached.recordings.rows = world.recordings.rows.map fun row ↦
      if row.id = segment.id then pass.spoiledRow segment else row)
    (hreached : reached = { world with recordings := reached.recordings }) :
    pass.Looked (looked ++ [segment.id]) reached := by
  obtain ⟨hmay, hrefuses⟩ := (Bool.and_eq_true _ _).mp hspoils
  have hdeletes : pass.deletes segment = false := by simp [deletes, hrefuses]
  have hlook : pass.afterLook [segment.id] segment = pass.spoiledRow segment := by
    simp [afterLook, hspoils]
  have hunlinks := not_unlinks_of_not_deletes hdeletes
  rw [hreached]
  refine ⟨?_, hlooked.bookmarks, hlooked.exportJobs, hlooked.now, fun path ↦ ?_, hlooked.riskCount⟩
  · rw [rowsAfter_of_not_deletes hsegment hfresh hdeletes, hlook, ← hlooked.rows]
    exact hrows
  · rw [forall_unlinked_concat hsegment]
    refine (hlooked.onDisk path).trans (and_congr_right fun _ ↦ ?_)
    simp [hunlinks]

omit hfresh in
/-- A row that is deleted goes with its file. -/
theorem Looked.remove {world reached : World} (hlooked : pass.Looked looked world)
    (hdeletes : pass.deletes segment = true)
    (hrows : reached.recordings.rows = world.recordings.rows.filter fun row ↦ row.id ≠ segment.id)
    (hfiles : reached.files = if pass.unlinks segment then (world.removeFile segment.filePath).files
      else world.files)
    (hreached : reached = { world with recordings := reached.recordings, files := reached.files }) :
    pass.Looked (looked ++ [segment.id]) reached := by
  have hdisk : ∀ path, reached.onDisk path = true ↔ world.onDisk path = true ∧
      (pass.unlinks segment = true → segment.filePath ≠ path) := by
    intro path
    cases hunlinks : pass.unlinks segment with
    | true =>
      have hremoved : reached.onDisk path = (world.removeFile segment.filePath).onDisk path := by
        unfold World.onDisk
        rw [hfiles, if_pos hunlinks]
      rw [hremoved, World.onDisk_removeFile, and_comm]
      exact and_congr_right fun _ ↦ ⟨fun hne _ ↦ hne.symm, fun hne ↦ (hne rfl).symm⟩
    | false =>
      unfold World.onDisk
      rw [hfiles, if_neg (by simp [hunlinks])]
      simp
  rw [hreached] at hdisk ⊢
  refine ⟨?_, hlooked.bookmarks, hlooked.exportJobs, hlooked.now, fun path ↦ ?_, hlooked.riskCount⟩
  · rw [rowsAfter_of_deletes hsegment hdeletes, ← hlooked.rows]
    exact hrows
  · rw [hdisk, hlooked.onDisk, forall_unlinked_concat hsegment, and_assoc]

/-- The deletion of a row that may go, under the refusals of the file system. -/
theorem Looked.eval_deleteSegmentInternal {world : World} (hlooked : pass.Looked looked world)
    (hmay : pass.mayGo segment = true) :
    ∃ result reached, eval answer (refusing pass.refusal)
        (deleteSegmentInternal pass.controller.recordingsRoot segment.id segment.filePath
          segment.sizeBytes) world = (.ok result, reached) ∧
      pass.Looked (looked ++ [segment.id]) reached ∧ result.success = pass.deletes segment ∧
      result.freedBytes = if pass.unlinks segment then segment.sizeBytes else 0 := by
  obtain ⟨-, hroot⟩ := (Bool.and_eq_true _ _).mp hmay
  have hstored : segment ∈ world.recordings.rows := hlooked.rows ▸ mem_rowsAfter hsegment hfresh
  have hdisk := hlooked.onDisk_segment hsegment hfresh
  have hcalm := refusing_unhindered pass.refusal
  have hfind := RecordingTable.find_update_isSome hstored
    { status := some .deletePending, errorReason := some none }
  have hrows := world.recordings.rows_remove_update segment.id
    { status := some .deletePending, errorReason := some none }
  unfold deleteSegmentInternal
  rw [if_pos hroot]
  simp only [updateRecordingStatus, fsUnlinkFn, call, bind_eq, request_bind]
  rw [hcalm.eval_await (by simp), eval_await]
  simp only [answer, World.answerUpdate, Outcome.passes, if_true]
  generalize hmarked : world.updateRow segment.id
    { status := some .deletePending, errorReason := some none } = marked
  have hmarkedDisk : marked.onDisk segment.filePath = world.onDisk segment.filePath := by
    rw [← hmarked]
    rfl
  have hmarkedFind : (marked.recordings.find segment.id).isSome = true := by
    rw [← hmarked]
    exact hfind
  cases hrefusal : pass.refusal segment.filePath with
  | none =>
    have hdeletes : pass.deletes segment = true := by simp [deletes, hmay, refuses, hrefusal]
    rw [show refusing pass.refusal (.unlink segment.filePath) marked = .ok by
      simp [refusing, hrefusal]]
    by_cases hthere : world.onDisk segment.filePath = true
    · have hunlinks : pass.unlinks segment = true := by
        simp [unlinks, hmay, hrefusal, hdisk.mp hthere]
      rw [show marked.answerUnlink segment.filePath .ok =
        (.ok (), marked.removeFile segment.filePath) from if_pos (hmarkedDisk.trans hthere)]
      have hunlinkedFind :
          ((marked.removeFile segment.filePath).recordings.find segment.id).isSome = true :=
            hmarkedFind
      simp only
      rw [eval_bind_of_ok answer _ (eval_tryDeleteRecording hcalm hunlinkedFind)]
      refine ⟨_, _, rfl, hlooked.remove hsegment hdeletes ?_ ?_ ?_, hdeletes.symm,
        (if_pos hunlinks).symm⟩
      all_goals rw [← hmarked]
      · exact hrows
      · rw [if_pos hunlinks]
        rfl
      · rfl
    · have hunlinks : pass.unlinks segment = false := by
        have hgone : pass.origin.onDisk segment.filePath = false :=
          Bool.eq_false_iff.mpr fun hthere' ↦ hthere (hdisk.mpr hthere')
        simp [unlinks, hgone]
      rw [show marked.answerUnlink segment.filePath .ok =
        (.error (World.noSuchFile "unlink" segment.filePath), marked) from
          if_neg (hmarkedDisk ▸ hthere)]
      simp only [World.noSuchFile, if_true]
      rw [eval_bind_of_ok answer _ (eval_deleteRecording hcalm hmarkedFind)]
      refine ⟨_, _, rfl, hlooked.remove hsegment hdeletes ?_ ?_ ?_,
        hdeletes.symm, by simp [hunlinks]⟩
      all_goals rw [← hmarked]
      · exact hrows
      · simp [hunlinks, World.removeRows, World.updateRow]
      · rfl
  | some error =>
    rw [show refusing pass.refusal (.unlink segment.filePath) marked = .fail error by
      simp [refusing, hrefusal]]
    have hunlinks : pass.unlinks segment = false := by simp [unlinks, hrefusal]
    simp only [World.answerUnlink]
    by_cases hmissing : error.code = .enoent
    · have hdeletes : pass.deletes segment = true := by
        simp [deletes, hmay, refuses, hrefusal, hmissing]
      rw [if_pos hmissing, eval_bind_of_ok answer _ (eval_deleteRecording hcalm hmarkedFind)]
      refine ⟨_, _, rfl, hlooked.remove hsegment hdeletes ?_ ?_ ?_,
        hdeletes.symm, by simp [hunlinks]⟩
      all_goals rw [← hmarked]
      · exact hrows
      · simp [hunlinks, World.removeRows, World.updateRow]
      · rfl
    · have hspoils : pass.spoils segment = true := by
        simp [spoils, hmay, refuses, hrefusal, hmissing]
      have hdeletes : pass.deletes segment = false := by
        simp [deletes, refuses, hrefusal, hmissing]
      rw [if_neg hmissing, hcalm.eval_await (by simp)]
      refine ⟨_, _, rfl, hlooked.spoil hsegment hfresh hspoils ?_ ?_,
        hdeletes.symm, by simp [hunlinks]⟩
      · simp only [answer, World.answerUpdate, Outcome.passes, if_true, ← hmarked, World.updateRow,
          RecordingTable.update, List.map_map]
        refine List.map_congr_left fun row hrow ↦ ?_
        by_cases hid : row.id = segment.id
        · obtain rfl := RecordingTable.eq_of_id_eq hrow hstored hid
          simp [spoiledRow, hrefusal, RowPatch.apply]
        · simp [hid]
      · rw [← hmarked]
        rfl

/-- One candidate: the row that may go is deleted or refused, any other is stepped over. -/
theorem Looked.eval_deleteCandidate {world : World} (hlooked : pass.Looked looked world)
    {ids : List RecordingId}
    (hids : segment.id ∈ ids ↔ pass.purge.deletable pass.controller pass.origin segment = true)
    (progress : PurgeProgress) :
    ∃ reached, eval answer (refusing pass.refusal)
        (pass.controller.deleteCandidate ids progress segment) world =
          (.ok (pass.counted progress [segment]), reached) ∧
      pass.Looked (looked ++ [segment.id]) reached := by
  by_cases hmay : pass.mayGo segment = true
  · have hasked := hids.mpr ((Bool.and_eq_true _ _).mp hmay).1
    obtain ⟨result, reached, heval, hreached, hsuccess, hfreed⟩ :=
      hlooked.eval_deleteSegmentInternal hsegment hfresh hmay
    refine ⟨reached, ?_, hreached⟩
    rw [Recordings.eval_deleteCandidate _ _ hasked progress heval]
    cases hdeletes : pass.deletes segment with
    | true =>
      rw [hdeletes] at hsuccess
      cases hunlinks : pass.unlinks segment <;>
        simp [afterAttempt, counted, hsuccess, hfreed, hdeletes, hunlinks]
    | false =>
      rw [hdeletes] at hsuccess
      simp [afterAttempt, counted, hsuccess, hdeletes, not_unlinks_of_not_deletes hdeletes]
  · have hstays := Bool.eq_false_iff.mpr hmay
    have hcounted : pass.counted progress [segment] =
        { progress with skip := progress.skip + 1 } := by
      simp [counted, deletes, unlinks, hstays]
    refine ⟨world, ?_, hlooked.leave hsegment hfresh hstays⟩
    rw [hcounted]
    by_cases hasked : segment.id ∈ ids
    · -- The policy lets it go, so its path is denied
      have hroot : isWithinRoot pass.controller.recordingsRoot segment.filePath = false := by
        simpa [mayGo, hids.mp hasked] using hstays
      have hdenied : ∃ error, eval answer (refusing pass.refusal)
          (deleteSegmentInternal pass.controller.recordingsRoot segment.id segment.filePath
            segment.sizeBytes) world = (.error error, world) := by
        unfold deleteSegmentInternal
        rw [if_neg (by simp [hroot])]
        exact ⟨_, rfl⟩
      obtain ⟨error, hdenied⟩ := hdenied
      rw [Recordings.eval_deleteCandidate _ _ hasked progress hdenied]
      rfl
    · unfold StorageController.deleteCandidate
      rw [if_neg hasked]
      rfl

end Attempt

/-- A batch: its rows are looked at, one after another. -/
theorem Looked.eval_deleteCandidates {looked : List RecordingId} {world : World}
    (hlooked : pass.Looked looked world) {ids : List RecordingId} {candidates : List Recording}
    (hrows : ∀ row ∈ candidates, row ∈ pass.origin.recordings.rows)
    (hfresh : ∀ row ∈ candidates, row.id ∉ looked) (hnodup : (candidates.map Recording.id).Nodup)
    (hids : ∀ row ∈ candidates,
      row.id ∈ ids ↔ pass.purge.deletable pass.controller pass.origin row = true)
    (progress : PurgeProgress) :
    ∃ reached, eval answer (refusing pass.refusal)
        (candidates.foldlM (pass.controller.deleteCandidate ids) progress) world =
          (.ok (pass.counted progress candidates), reached) ∧
      pass.Looked (looked ++ candidates.map Recording.id) reached := by
  induction candidates generalizing looked world progress with
  | nil => exact ⟨world, rfl, by rwa [List.map_nil, List.append_nil]⟩
  | cons segment rest ih =>
    obtain ⟨hsegment, hnodup⟩ := List.nodup_cons.mp hnodup
    obtain ⟨tried, htried, hlookedTried⟩ := hlooked.eval_deleteCandidate
      (hrows segment List.mem_cons_self) (hfresh segment List.mem_cons_self)
      (hids segment List.mem_cons_self) progress
    have hfreshRest : ∀ row ∈ rest, row.id ∉ looked ++ [segment.id] := by
      intro row hrow hseen
      rcases List.mem_append.mp hseen with hold | hthis
      · exact hfresh row (List.mem_cons_of_mem segment hrow) hold
      · exact hsegment (List.mem_singleton.mp hthis ▸ List.mem_map_of_mem hrow)
    obtain ⟨reached, heval, hreached⟩ := ih hlookedTried
      (fun row hrow ↦ hrows row (List.mem_cons_of_mem segment hrow)) hfreshRest hnodup
      (fun row hrow ↦ hids row (List.mem_cons_of_mem segment hrow))
      (pass.counted progress [segment])
    refine ⟨reached, ?_, ?_⟩
    · rw [List.foldlM_cons, bind_eq, eval_bind_of_ok answer _ htried, heval, ← counted_append]
      rfl
    · rwa [List.append_assoc, ← List.map_singleton, ← List.map_append] at hreached

/-! ### The order of a pass -/

variable (pass) in
/-- The rows of a pass when it begins, oldest first. -/
def order : List Recording := passOrder pass.statuses pass.origin.recordings.rows

variable (pass) in
/-- Whether a row is still in the order of the pass when some rows were looked at. -/
def stays (looked : List RecordingId) (row : Recording) : Bool :=
  !(decide (row.id ∈ looked) && (pass.deletes row || pass.loses row))

theorem order_ids_nodup : (pass.order.map Recording.id).Nodup := by
  have hperm : pass.order.Perm (pass.origin.recordings.rows.filter (isInPass pass.statuses)) :=
    List.perm_insertionSort _ _
  exact (hperm.map Recording.id).nodup_iff.mpr
    (pass.origin.recordings.ids_nodup.sublist (List.filter_sublist.map _))

/-- The order of the pass when some of its rows were looked at. -/
theorem passOrder_rowsAfter {looked : List RecordingId}
    (hlooked : ∀ row ∈ pass.origin.recordings.rows, row.id ∈ looked → row ∈ pass.order) :
    passOrder pass.statuses (pass.rowsAfter looked) =
      (pass.order.filter (pass.stays looked)).map (pass.afterLook looked) := by
  have hkept : ∀ row ∈ pass.origin.recordings.rows,
      ((isInPass pass.statuses ∘ pass.afterLook looked) row &&
          !(decide (row.id ∈ looked) && pass.deletes row)) =
        (isInPass pass.statuses row && pass.stays looked row) := by
    intro row hrow
    by_cases hid : row.id ∈ looked
    · have hin := (mem_passOrder.mp (hlooked row hrow hid)).2
      cases hdeletes : pass.deletes row <;> cases hspoils : pass.spoils row <;>
        simp [afterLook, stays, loses, hid, hin, hdeletes, hspoils]
    · simp [afterLook_of_not_mem, stays, hid]
  have hfilter : ((pass.origin.recordings.rows.filter fun row ↦
        !(decide (row.id ∈ looked) && pass.deletes row)).filter
          (isInPass pass.statuses ∘ pass.afterLook looked)) =
      (pass.origin.recordings.rows.filter (pass.stays looked)).filter (isInPass pass.statuses) := by
    rw [List.filter_filter, List.filter_filter]
    exact List.filter_congr hkept
  unfold order
  rw [← passOrder_filter]
  unfold passOrder rowsAfter
  rw [List.filter_map, hfilter, oldestFirst_map (afterLook_startTime looked)]

theorem loses_imp {row : Recording} (hloses : pass.loses row = true) :
    pass.deletes row = false := by
  simp only [loses, spoils, Bool.and_eq_true] at hloses
  simp [deletes, hloses.1.2]

theorem loses_eq_false (hstatuses : pass.statuses = none) (row : Recording) :
    pass.loses row = false := by
  simp [loses, hstatuses, isInPass]

/-- A refused segment is no longer among the quarantined ones. -/
theorem loses_eq_spoils (hstatuses : pass.statuses = some [.quarantined]) :
    pass.loses = pass.spoils := by
  funext row
  cases hspoils : pass.spoils row with
  | false => simp [loses, hspoils]
  | true =>
    have hrefuses := ((Bool.and_eq_true _ _).mp hspoils).2
    obtain ⟨error, hrefusal, -⟩ := (Option.any_eq_true _ _).mp hrefuses
    simp [loses, hspoils, hstatuses, isInPass, spoiledRow, hrefusal]

/-- The rows left behind are those that stay in the order and those that are lost. -/
theorem countP_not_deletes (rows : List Recording) :
    rows.countP (fun row ↦ !pass.deletes row) =
      rows.countP (fun row ↦ !(pass.deletes row || pass.loses row)) + rows.countP pass.loses := by
  induction rows with
  | nil => rfl
  | cons row rows ih =>
    cases hloses : pass.loses row with
    | true => simp [ih, hloses, loses_imp hloses, Nat.add_assoc]
    | false =>
      cases hdeletes : pass.deletes row with
      | true => simp [ih, hloses, hdeletes]
      | false =>
        simp only [ih, hloses, hdeletes, Bool.not_false, Bool.or_self, List.countP_cons_of_pos,
          Bool.false_eq_true, not_false_eq_true, List.countP_cons_of_neg]
        omega

variable (pass) in
/-- Where a pass is: it has gone past `seen`, and goes on with `rest`, `gap` rows further on. -/
structure At (looked : List RecordingId) (gap : ℕ) (seen rest : List Recording) (skip : ℕ) :
    Prop where
  order : pass.order = seen ++ rest
  fresh : ∀ row ∈ rest, row.id ∉ looked
  behind : ∀ id ∈ looked, ∃ row ∈ seen, row.id = id
  skip : skip = seen.countP (pass.stays looked) + gap

theorem at_start : pass.At [] 0 [] pass.order 0 where
  order := rfl
  fresh := fun _ _ ↦ List.not_mem_nil
  behind := fun _ hid ↦ absurd hid List.not_mem_nil
  skip := rfl

namespace At

variable {looked : List RecordingId} {gap : ℕ} {seen rest : List Recording} {skip size : ℕ}
  (hat : pass.At looked gap seen rest skip)
include hat

theorem mem_rows {row : Recording} (hrow : row ∈ rest) : row ∈ pass.origin.recordings.rows := by
  have hordered : row ∈ pass.order := hat.order ▸ List.mem_append_right _ hrow
  exact (mem_passOrder.mp hordered).1

theorem ids_nodup : (seen.map Recording.id).Nodup ∧ (rest.map Recording.id).Nodup ∧
    ∀ first ∈ seen, ∀ second ∈ rest, first.id ≠ second.id := by
  have hnodup := @order_ids_nodup pass
  rw [hat.order, List.map_append, List.nodup_append] at hnodup
  exact ⟨hnodup.1, hnodup.2.1, fun first hfirst second hsecond ↦
    hnodup.2.2 _ (List.mem_map_of_mem hfirst) _ (List.mem_map_of_mem hsecond)⟩

/-- The next page of the catalogue is the next page of `rest`. -/
theorem page {world : World} (hlooked : pass.Looked looked world) :
    ((passOrder pass.statuses world.recordings.rows).drop skip).take size =
        (rest.drop gap).take size := by
  have hordered : ∀ row ∈ pass.origin.recordings.rows, row.id ∈ looked → row ∈ pass.order := by
    intro row hrow hid
    obtain ⟨other, hother, hsame⟩ := hat.behind row.id hid
    have hmem : other ∈ pass.order := hat.order ▸ List.mem_append_left _ hother
    rwa [← RecordingTable.eq_of_id_eq (mem_passOrder.mp hmem).1 hrow hsame]
  have hrest : (rest.filter (pass.stays looked)).map (pass.afterLook looked) = rest := by
    rw [List.filter_eq_self.mpr fun row hrow ↦ by simp [stays, hat.fresh row hrow]]
    exact (List.map_congr_left fun row hrow ↦ afterLook_of_not_mem (hat.fresh row hrow)).trans
      (List.map_id _)
  rw [hlooked.rows, passOrder_rowsAfter hordered, hat.order, List.filter_append,
    List.map_append, hrest,
    hat.skip, List.countP_eq_length_filter, ← List.length_map (pass.afterLook looked),
    List.drop_length_add_append]

/-- After a page was looked at, the pass goes on behind it; what it lost opens a gap. -/
theorem next (hpage : (rest.drop gap).take size ≠ []) :
    pass.At (looked ++ ((rest.drop gap).take size).map Recording.id)
      (((rest.drop gap).take size).countP pass.loses) (seen ++ rest.take (gap + size))
      (rest.drop (gap + size))
      (skip + ((rest.drop gap).take size).countP fun row ↦ !pass.deletes row) := by
  have hsplit : rest = rest.take gap ++ ((rest.drop gap).take size ++ rest.drop (gap + size)) := by
    rw [← List.drop_drop, List.take_append_drop, List.take_append_drop]
  have hseen : rest.take (gap + size) = rest.take gap ++ (rest.drop gap).take size := List.take_add
  have hgap : (rest.take gap).length = gap := by
    rw [List.length_take]
    refine min_eq_left (le_of_not_ge fun hlong ↦ hpage ?_)
    rw [List.drop_eq_nil_of_le hlong, List.take_nil]
  obtain ⟨-, hnodup, hapart⟩ := hat.ids_nodup
  generalize (rest.drop gap).take size = page at hpage hsplit hseen ⊢
  generalize rest.drop (gap + size) = later at hsplit ⊢
  rw [hsplit, List.map_append, List.map_append, List.nodup_append, List.nodup_append] at hnodup
  have hpageRest : ∀ row ∈ page, row ∈ rest := fun row hrow ↦
    hsplit ▸ List.mem_append_right _ (List.mem_append_left _ hrow)
  have hstays : ∀ row : Recording, row.id ∉ page.map Recording.id →
      pass.stays (looked ++ page.map Recording.id) row = pass.stays looked row := by
    intro row hrow
    simp only [stays, List.mem_append, hrow, or_false]
  have hseenCount : seen.countP (pass.stays (looked ++ page.map Recording.id)) =
      seen.countP (pass.stays looked) := by
    refine List.countP_congr fun row hrow ↦ ?_
    rw [hstays row fun hid ↦ ?_]
    obtain ⟨other, hother, hsame⟩ := List.mem_map.mp hid
    exact hapart row hrow other (hpageRest other hother) hsame.symm
  have hgapCount : (rest.take gap).countP (pass.stays (looked ++ page.map Recording.id)) = gap := by
    refine (List.countP_eq_length.mpr fun row hrow ↦ ?_).trans hgap
    rw [hstays row fun hid ↦ ?_]
    · simp [stays, hat.fresh row (List.mem_of_mem_take hrow)]
    · exact hnodup.2.2 _ (List.mem_map_of_mem hrow) _ (List.mem_append_left _ hid) rfl
  have hpageCount : page.countP (pass.stays (looked ++ page.map Recording.id)) =
      page.countP fun row ↦ !(pass.deletes row || pass.loses row) := by
    refine List.countP_congr fun row hrow ↦ ?_
    have hid : row.id ∈ looked ++ page.map Recording.id :=
      List.mem_append_right _ (List.mem_map_of_mem hrow)
    simp [stays, hid]
  refine ⟨?_, fun row hrow ↦ ?_, fun id hid ↦ ?_, ?_⟩
  · rw [hat.order, hseen, List.append_assoc, List.append_assoc, ← hsplit]
  · rw [List.mem_append, not_or]
    refine ⟨hat.fresh row ?_, fun hid ↦ ?_⟩
    · exact hsplit ▸ List.mem_append_right _ (List.mem_append_right _ hrow)
    · exact hnodup.2.1.2.2 _ hid _ (List.mem_map_of_mem hrow) rfl
  · rcases List.mem_append.mp hid with hold | hnew
    · obtain ⟨row, hrow, hsame⟩ := hat.behind id hold
      exact ⟨row, List.mem_append_left _ hrow, hsame⟩
    · obtain ⟨row, hrow, hsame⟩ := List.mem_map.mp hnew
      exact ⟨row, List.mem_append_right _ (hseen ▸ List.mem_append_right _ hrow), hsame⟩
  · rw [hseen, List.countP_append, List.countP_append, hseenCount, hgapCount, hpageCount, hat.skip,
      countP_not_deletes]
    omega

end At

end PurgePass

end VmsLite.Recordings
