import Mathlib.Data.List.Nodup
import Mathlib.Data.List.Sort
import VmsLite.Data.AssociationList
import VmsLite.Recordings.Types

/-!
# The recordings table

`recordings` with the constraints `schema.prisma` puts on it: ids are unique, file paths are unique,
and an id is never used twice. A `RecordingTable` carries them, so every operation on it keeps them.
The operations are those of `PrismaRecordingRepository`: an update touches the row with its id and
leaves alone id, camera, path and times; a deletion drops rows; an insert fails on a path that is
taken. The queries are the `findMany` calls of the repository. `orderBy startTime` is a stable sort
over the order of the table.
-/

set_option autoImplicit false

namespace VmsLite.Recordings

/-- The rows of `recordings`, with the keys of the schema. -/
structure RecordingTable where
  rows : List Recording := []
  nextId : ℕ := 0
  ids_nodup : (rows.map Recording.id).Nodup := by decide
  paths_nodup : (rows.map Recording.filePath).Nodup := by decide
  ids_lt : ∀ row ∈ rows, row.id < nextId := by decide

/-- The columns an update may change. -/
structure RowPatch where
  status : Option SegmentStatus := none
  errorReason : Option (Option String) := none
  retentionTier : Option RetentionTier := none
  isProtected : Option Bool := none

/-- A row with the patched columns. -/
def RowPatch.apply (patch : RowPatch) (row : Recording) : Recording :=
  { row with
    status := patch.status.getD row.status
    errorReason := patch.errorReason.getD row.errorReason
    retentionTier := patch.retentionTier.getD row.retentionTier
    isProtected := patch.isProtected.getD row.isProtected }

section Patch

variable (patch : RowPatch) (row : Recording)

@[simp] theorem RowPatch.apply_id : (patch.apply row).id = row.id := rfl

@[simp] theorem RowPatch.apply_filePath : (patch.apply row).filePath = row.filePath := rfl

@[simp] theorem RowPatch.apply_cameraId : (patch.apply row).cameraId = row.cameraId := rfl

@[simp] theorem RowPatch.apply_startTime : (patch.apply row).startTime = row.startTime := rfl

@[simp] theorem RowPatch.apply_endTime : (patch.apply row).endTime = row.endTime := rfl

@[simp] theorem RowPatch.apply_status :
    (patch.apply row).status = patch.status.getD row.status := rfl

@[simp] theorem RowPatch.apply_retentionTier :
    (patch.apply row).retentionTier = patch.retentionTier.getD row.retentionTier := rfl

@[simp] theorem RowPatch.apply_isProtected :
    (patch.apply row).isProtected = patch.isProtected.getD row.isProtected := rfl

end Patch

namespace RecordingTable

variable (table : RecordingTable)

/-- The row with an id. -/
def find (id : RecordingId) : Option Recording := table.rows.find? fun row ↦ row.id = id

/-- `update({ where: { id }, data })`. -/
def update (id : RecordingId) (patch : RowPatch) : RecordingTable where
  rows := table.rows.map fun row ↦ if row.id = id then patch.apply row else row
  nextId := table.nextId
  ids_nodup := by
    have hids : (table.rows.map fun row ↦ if row.id = id then patch.apply row else row).map
        Recording.id = table.rows.map Recording.id := by
      rw [List.map_map]
      refine List.map_congr_left fun row _ ↦ ?_
      simp only [Function.comp_apply]
      split_ifs <;> rfl
    rw [hids]
    exact table.ids_nodup
  paths_nodup := by
    have hpaths : (table.rows.map fun row ↦ if row.id = id then patch.apply row else row).map
        Recording.filePath = table.rows.map Recording.filePath := by
      rw [List.map_map]
      refine List.map_congr_left fun row _ ↦ ?_
      simp only [Function.comp_apply]
      split_ifs <;> rfl
    rw [hpaths]
    exact table.paths_nodup
  ids_lt := by
    intro row hrow
    obtain ⟨old, hold, rfl⟩ := List.mem_map.mp hrow
    have hlt := table.ids_lt old hold
    split_ifs <;> exact hlt

/-- Drop the rows that satisfy a condition. -/
def remove (condition : Recording → Bool) : RecordingTable where
  rows := table.rows.filter fun row ↦ !condition row
  nextId := table.nextId
  ids_nodup := table.ids_nodup.sublist (List.filter_sublist.map _)
  paths_nodup := table.paths_nodup.sublist (List.filter_sublist.map _)
  ids_lt := fun row hrow ↦ table.ids_lt row (List.mem_filter.mp hrow).1

/-- `create` of a row whose path is free. -/
def insert (data : NewRecording) (hfree : ∀ row ∈ table.rows, row.filePath ≠ data.filePath) :
    RecordingTable where
  rows := table.rows ++ [data.toRecording table.nextId]
  nextId := table.nextId + 1
  ids_nodup := by
    rw [List.map_append, List.nodup_append]
    refine ⟨table.ids_nodup, List.nodup_singleton _, ?_⟩
    intro id hid other hother
    obtain ⟨row, hrow, rfl⟩ := List.mem_map.mp hid
    have hnew : other = table.nextId := by simpa [NewRecording.toRecording] using hother
    rw [hnew]
    exact (table.ids_lt row hrow).ne
  paths_nodup := by
    rw [List.map_append, List.nodup_append]
    refine ⟨table.paths_nodup, List.nodup_singleton _, ?_⟩
    intro path hpath other hother
    obtain ⟨row, hrow, rfl⟩ := List.mem_map.mp hpath
    have hnew : other = data.filePath := by simpa [NewRecording.toRecording] using hother
    rw [hnew]
    exact hfree row hrow
  ids_lt := by
    intro row hrow
    rcases List.mem_append.mp hrow with hold | hnew
    · exact Nat.lt_succ_of_lt (table.ids_lt row hold)
    · have hrow : row = data.toRecording table.nextId := by simpa using hnew
      rw [hrow]
      exact Nat.lt_succ_self _

variable {table}

/-- Rows with the same id are the same row. -/
theorem eq_of_id_eq {first second : Recording} (hfirst : first ∈ table.rows)
    (hsecond : second ∈ table.rows) (hid : first.id = second.id) : first = second :=
  List.inj_on_of_nodup_map table.ids_nodup hfirst hsecond hid

/-- Rows of the same file are the same row. -/
theorem eq_of_filePath_eq {first second : Recording} (hfirst : first ∈ table.rows)
    (hsecond : second ∈ table.rows) (hpath : first.filePath = second.filePath) :
    first = second :=
  List.inj_on_of_nodup_map table.paths_nodup hfirst hsecond hpath

theorem find_eq_some_iff {id : RecordingId} {row : Recording} :
    table.find id = some row ↔ row ∈ table.rows ∧ row.id = id :=
  Data.find?_key_eq_some_iff table.ids_nodup

theorem find_eq_none_iff {id : RecordingId} :
    table.find id = none ↔ ∀ row ∈ table.rows, row.id ≠ id := by
  simp [find]

theorem mem_update {id : RecordingId} {patch : RowPatch} {row : Recording} :
    row ∈ (table.update id patch).rows ↔
      ∃ old ∈ table.rows, row = if old.id = id then patch.apply old else old := by
  simp only [update, List.mem_map, eq_comm]

@[simp] theorem mem_remove {condition : Recording → Bool} {row : Recording} :
    row ∈ (table.remove condition).rows ↔ row ∈ table.rows ∧ condition row = false := by
  simp [remove]

@[simp] theorem mem_insert {data : NewRecording}
    {hfree : ∀ row ∈ table.rows, row.filePath ≠ data.filePath} {row : Recording} :
    row ∈ (table.insert data hfree).rows ↔
      row ∈ table.rows ∨ row = data.toRecording table.nextId := by
  simp [insert]

/-- A row of the table is told from the others by its id. -/
theorem filter_id_ne {segment : Recording} (hsegment : segment ∈ table.rows) :
    (table.rows.filter fun row ↦ row.id ≠ segment.id) =
      table.rows.filter fun row ↦ row ≠ segment := by
  refine List.filter_congr fun row hrow ↦ ?_
  have hiff : row.id = segment.id ↔ row = segment :=
    ⟨eq_of_id_eq hrow hsegment, congrArg Recording.id⟩
  by_cases hsame : row = segment <;> simp [hiff, hsame]

/-- Marking a row and then deleting it deletes it. -/
theorem rows_remove_update (table : RecordingTable) (id : RecordingId)
    (patch : RowPatch) :
    ((table.update id patch).remove fun row ↦ row.id = id).rows =
      table.rows.filter fun row ↦ row.id ≠ id := by
  simp only [remove, update, List.filter_map]
  calc _ = (table.rows.filter fun row ↦ row.id ≠ id).map
        (fun row ↦ if row.id = id then patch.apply row else row) := by
        congr 1
        refine List.filter_congr fun row _ ↦ ?_
        by_cases hid : row.id = id <;> simp [hid]
    _ = table.rows.filter fun row ↦ row.id ≠ id := by
        refine (List.map_congr_left fun row hrow ↦ ?_).trans (List.map_id _)
        have hid : row.id ≠ id := by simpa using (List.mem_filter.mp hrow).2
        rw [if_neg hid, id_eq]

theorem find_update_isSome {table : RecordingTable} {row : Recording}
    (hrow : row ∈ table.rows) (patch : RowPatch) :
    ((table.update row.id patch).find row.id).isSome = true := by
  cases hfind : (table.update row.id patch).find row.id with
  | some found => rfl
  | none =>
    have hupdated : patch.apply row ∈ (table.update row.id patch).rows :=
      mem_update.mpr ⟨row, hrow, (if_pos rfl).symm⟩
    exact absurd (patch.apply_id row) (find_eq_none_iff.mp hfind (patch.apply row) hupdated)

/-- A row that is found after an update was there before it. -/
theorem find_update_eq_some {table : RecordingTable} {id other : RecordingId} {patch : RowPatch}
    {row : Recording} (hfind : (table.update id patch).find other = some row) :
    ∃ old, table.find other = some old ∧ row = if other = id then patch.apply old else old := by
  obtain ⟨hrow, rfl⟩ := find_eq_some_iff.mp hfind
  obtain ⟨old, hold, hpatched⟩ := mem_update.mp hrow
  have hid : row.id = old.id := by
    rw [hpatched]
    split_ifs
    · exact patch.apply_id old
    · rfl
  refine ⟨old, find_eq_some_iff.mpr ⟨hold, hid.symm⟩, ?_⟩
  rw [hid]
  exact hpatched

end RecordingTable

/-! ### Queries -/

/-- `orderBy: { startTime: 'asc' }`. -/
def oldestFirst (rows : List Recording) : List Recording :=
  rows.insertionSort fun first second ↦ first.startTime ≤ second.startTime

/-- `orderBy: { startTime: 'desc' }`. -/
def newestFirst (rows : List Recording) : List Recording :=
  rows.insertionSort fun first second ↦ second.startTime ≤ first.startTime

@[simp] theorem mem_oldestFirst {rows : List Recording} {row : Recording} :
    row ∈ oldestFirst rows ↔ row ∈ rows := List.mem_insertionSort _

@[simp] theorem mem_newestFirst {rows : List Recording} {row : Recording} :
    row ∈ newestFirst rows ↔ row ∈ rows := List.mem_insertionSort _

@[simp] theorem length_oldestFirst (rows : List Recording) :
    (oldestFirst rows).length = rows.length := List.length_insertionSort _ _

/-- Whether `[startTime, endTime)` of a segment meets a window of its camera. -/
def overlapsWindow (segment : Recording) (window : Window) : Bool :=
  window.cameraId = segment.cameraId && segment.startTime < window.stop &&
    segment.endTime > window.start

theorem overlapsWindow_iff {segment : Recording} {window : Window} :
    overlapsWindow segment window = true ↔ window.cameraId = segment.cameraId ∧
      segment.startTime < window.stop ∧ window.start < segment.endTime := by
  simp only [overlapsWindow, Bool.and_eq_true, decide_eq_true_eq, and_assoc, gt_iff_lt]

/-- Upper bound on segments returned for one timeline window. -/
def maxTimelineSegments : ℕ := 3000

namespace RecordingTable

variable (table : RecordingTable)

def findRecordingByFilePath (filePath : Path) : Option Recording :=
  table.rows.find? fun row ↦ row.filePath = filePath

/-- The newest start time of a camera's rows, whatever their status. -/
def findLatestStartTime (cameraId : CameraId) : Option ℤ :=
  ((table.rows.filter fun row ↦ row.cameraId = cameraId).map Recording.startTime).max?

def findRecordingsInRange (cameraId : CameraId) (start stop : ℤ) (status : SegmentStatus) :
    List Recording :=
  (oldestFirst (table.rows.filter fun row ↦
    row.cameraId = cameraId && row.status = status && row.startTime < stop &&
      row.endTime > start)).take maxTimelineSegments

/-- `statuses` limits to those statuses; every status by default. -/
def findOldestRecordings (limit skip : ℕ) (statuses : Option (List SegmentStatus)) :
    List Recording :=
  ((oldestFirst (table.rows.filter fun row ↦
    match statuses with
    | none => true
    | some allowed => row.status ∈ allowed)).drop skip).take limit

def findHeldRecordings (windows : List Window) : List Recording :=
  table.rows.filter fun row ↦
    row.status = .available &&
      (row.isProtected || row.retentionTier = .protectedTier ||
        windows.any (overlapsWindow row))

def findRecordingsByStatus (status : SegmentStatus) (limit : ℕ) : List Recording :=
  (oldestFirst (table.rows.filter fun row ↦ row.status = status)).take limit

variable {table} in
theorem mem_findRecordingsByStatus {status : SegmentStatus} {limit : ℕ} {row : Recording}
    (hrow : row ∈ table.findRecordingsByStatus status limit) :
    row ∈ table.rows ∧ row.status = status := by
  have hmem := List.mem_of_mem_take hrow
  rw [mem_oldestFirst, List.mem_filter] at hmem
  exact ⟨hmem.1, of_decide_eq_true hmem.2⟩

/-- `queryRecordings({ limit })`: the newest AVAILABLE rows. -/
def queryRecordings (limit : ℕ) : List Recording :=
  (newestFirst (table.rows.filter fun row ↦ row.status = .available)).take limit

end RecordingTable

end VmsLite.Recordings
