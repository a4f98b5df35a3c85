import Mathlib.Data.List.Perm.Basic
import VmsLite.Recordings.Evaluation
import VmsLite.Recordings.SegmentIngest

/-!
# Motion before and after cataloguing

A notification marks the rows that its window meets (`eval_onMotion`), and a file that is catalogued
looks for events around its interval (`eval_catalogueFile`). The window is open and the interval is
closed, so the two agree just when no instant on a bound is alone (`keepsInAnyOrder_iff`).
-/

set_option autoImplicit false

namespace VmsLite.Recordings

open VmsLite.Async Program

/-! ### Marking rows -/

/-- The rows are remade one by one; cameras, files and motion events stay. -/
structure Remade (mark : Recording → Recording) (before after : World) : Prop where
  rows : after.recordings.rows = before.recordings.rows.map mark
  cameras : after.cameras = before.cameras
  files : after.files = before.files
  motionEvents : after.motionEvents = before.motionEvents

theorem Remade.trans {first second : Recording → Recording} {before between after : World}
    (hfirst : Remade first before between) (hsecond : Remade second between after) :
    Remade (second ∘ first) before after where
  rows := by rw [hsecond.rows, hfirst.rows, List.map_map]
  cameras := hsecond.cameras.trans hfirst.cameras
  files := hsecond.files.trans hfirst.files
  motionEvents := hsecond.motionEvents.trans hfirst.motionEvents

theorem Remade.congr {first second : Recording → Recording} {before after : World}
    (hremade : Remade first before after)
    (hsame : ∀ row ∈ before.recordings.rows, first row = second row) : Remade second before after :=
  { hremade with rows := hremade.rows.trans (List.map_congr_left hsame) }

/-- The rows with some ids are marked. -/
def markAll (ids : List RecordingId) (mark : Recording → Recording) (row : Recording) : Recording :=
  if row.id ∈ ids then mark row else row

theorem remade_markNone (mark : Recording → Recording) (world : World) :
    Remade (markAll [] mark) world world :=
  ⟨(List.map_id _).symm.trans (List.map_congr_left fun _ _ ↦ rfl), rfl, rfl, rfl⟩

/-- Marking twice marks once. -/
theorem markAll_comp {mark : Recording → Recording} (hid : ∀ row, (mark row).id = row.id)
    (htwice : ∀ row, mark (mark row) = mark row) (first second : List RecordingId) :
    markAll second mark ∘ markAll first mark = markAll (first ++ second) mark := by
  funext row
  simp only [Function.comp_apply, markAll, List.mem_append]
  by_cases hfirst : row.id ∈ first
  · by_cases hsecond : row.id ∈ second <;> simp [hfirst, hsecond, hid, htwice]
  · simp [hfirst]

/-- A loop whose body marks some ids for each of its segments. -/
theorem eval_foldlM_marks {mark : Recording → Recording} (hid : ∀ row, (mark row).id = row.id)
    (htwice : ∀ row, mark (mark row) = mark row) {body : Recording → Async Unit}
    {marked : Recording → List RecordingId}
    (hbody : ∀ segment world, ∃ reached, eval answer calm (body segment) world = (.ok (), reached) ∧
      Remade (markAll (marked segment) mark) world reached)
    (segments : List Recording) (world : World) :
    ∃ reached, eval answer calm (segments.foldlM (fun _ segment ↦ body segment) ()) world =
        (.ok (), reached) ∧ Remade (markAll (segments.flatMap marked) mark) world reached := by
  induction segments generalizing world with
  | nil => exact ⟨world, rfl, remade_markNone mark world⟩
  | cons segment segments ih =>
    obtain ⟨between, hfirst, hmarked⟩ := hbody segment world
    obtain ⟨reached, hrest, hothers⟩ := ih between
    refine ⟨reached, ?_, ?_⟩
    · rw [List.foldlM_cons, bind_eq, eval_bind_of_ok answer calm hfirst]
      exact hrest
    · rw [List.flatMap_cons, ← markAll_comp hid htwice]
      exact hmarked.trans hothers

/-- A row that a notification has taken out of the motion buffer. -/
def keptRow (row : Recording) : Recording :=
  { row with status := .available, errorReason := none, retentionTier := .event }

/-- A row that a notification has moved to the tier of events. -/
def eventRow (row : Recording) : Recording := { row with retentionTier := .event }

@[simp] theorem keptRow_id (row : Recording) : (keptRow row).id = row.id := rfl

@[simp] theorem keptRow_keptRow (row : Recording) : keptRow (keptRow row) = keptRow row := rfl

@[simp] theorem eventRow_id (row : Recording) : (eventRow row).id = row.id := rfl

@[simp] theorem eventRow_eventRow (row : Recording) : eventRow (eventRow row) = eventRow row := rfl

/-- The rows that the first loop of a notification marks for a segment. -/
def bufferedIds (segment : Recording) : List RecordingId := [segment.id]

/-- The rows that the second loop of a notification marks for a segment. -/
def continuousIds (segment : Recording) : List RecordingId :=
  if segment.retentionTier = .continuous then [segment.id] else []

theorem map_updateRow (world : World) (id : RecordingId) (patch : RowPatch) :
    (world.updateRow id patch).recordings.rows =
      world.recordings.rows.map (markAll [id] patch.apply) := by
  refine List.map_congr_left fun row _ ↦ ?_
  simp [markAll]

theorem eval_emitSegmentCreated (recording : Recording) (camera : Option Camera) (world : World) :
    eval answer calm (SegmentIngest.emitSegmentCreated recording camera) world =
      (.ok (), { world with emitted := world.emitted ++ [.segmentCreated recording] }) := by
  cases camera <;> rfl

theorem eval_keepSegment (segment : Recording) (world : World) :
    ∃ reached, eval answer calm (SegmentIngest.keepSegment segment) world = (.ok (), reached) ∧
      Remade (markAll (bufferedIds segment) keptRow) world reached := by
  have hrows : ((world.updateRow segment.id { retentionTier := some .event }).updateRow segment.id
      { status := some .available, errorReason := some none }).recordings.rows =
        world.recordings.rows.map (markAll (bufferedIds segment) keptRow) := by
    rw [map_updateRow, map_updateRow, List.map_map]
    refine List.map_congr_left fun row _ ↦ ?_
    by_cases hid : row.id = segment.id
    · simp [markAll, bufferedIds, hid, RowPatch.apply, keptRow]
    · simp [markAll, bufferedIds, hid]
  unfold SegmentIngest.keepSegment
  simp only [updateRecordingTier, updateRecordingStatus, call, bind_eq, request_bind,
    eval_await, calm, answer, World.answerUpdate, Outcome.passes, if_true]
  split
  · next kept hfind =>
    rw [eval_emitSegmentCreated]
    exact ⟨_, rfl, hrows, rfl, rfl, rfl⟩
  · exact ⟨_, rfl, hrows, rfl, rfl, rfl⟩

/-- One round of the loop over the AVAILABLE segments. -/
theorem eval_moveToEvents (segment : Recording) (world : World) :
    ∃ reached, eval answer calm
        (if segment.retentionTier = .continuous then do
          let _ ← updateRecordingTier segment.id .event
          pure ()
        else pure () : Async Unit) world = (.ok (), reached) ∧
      Remade (markAll (continuousIds segment) eventRow) world reached := by
  unfold continuousIds
  split_ifs with htier
  · refine ⟨_, rfl, ?_, rfl, rfl, rfl⟩
    exact map_updateRow world segment.id { retentionTier := some .event }
  · exact ⟨world, rfl, remade_markNone eventRow world⟩

/-! ### One notification -/

/-- Whether a query for the segments of a camera in a window finds a row, its status aside. -/
def meetsWindow (cameraId : CameraId) (start stop : ℤ) (row : Recording) : Bool :=
  row.cameraId = cameraId && row.startTime < stop && row.endTime > start

/-- The query hands out every segment that meets its window. -/
def IsUncut (rows : List Recording) (cameraId : CameraId) (start stop : ℤ) : Prop :=
  (rows.filter (meetsWindow cameraId start stop)).length ≤ maxTimelineSegments

theorem IsUncut.mem_findRecordingsInRange {table : RecordingTable} {cameraId : CameraId}
    {start stop : ℤ} (huncut : IsUncut table.rows cameraId start stop) {status : SegmentStatus}
    {row : Recording} :
    row ∈ table.findRecordingsInRange cameraId start stop status ↔
      row ∈ table.rows ∧ row.status = status ∧ meetsWindow cameraId start stop row = true := by
  have hfew : (oldestFirst (table.rows.filter fun row ↦ row.cameraId = cameraId &&
      row.status = status && row.startTime < stop && row.endTime > start)).length ≤
        maxTimelineSegments := by
    rw [length_oldestFirst]
    refine le_trans ?_ huncut
    refine (List.monotone_filter_right table.rows fun other hother ↦ ?_).length_le
    simp only [Bool.and_eq_true] at hother
    simp only [meetsWindow, Bool.and_eq_true]
    exact ⟨⟨hother.1.1.1, hother.1.2⟩, hother.2⟩
  unfold RecordingTable.findRecordingsInRange
  rw [List.take_of_length_le hfew, mem_oldestFirst, List.mem_filter]
  simp only [meetsWindow, Bool.and_eq_true, decide_eq_true_eq]
  tauto

/-- A row whose camera and times are those of another. -/
structure SameSpan (old row : Recording) : Prop where
  id_eq : row.id = old.id
  cameraId_eq : row.cameraId = old.cameraId
  filePath_eq : row.filePath = old.filePath
  startTime_eq : row.startTime = old.startTime
  endTime_eq : row.endTime = old.endTime

theorem SameSpan.meetsWindow_eq {old row : Recording} (hsame : SameSpan old row)
    (cameraId : CameraId) (start stop : ℤ) :
    meetsWindow cameraId start stop row = meetsWindow cameraId start stop old := by
  rw [meetsWindow, hsame.cameraId_eq, hsame.startTime_eq, hsame.endTime_eq]
  rfl

/-- Remaking the rows does not change how many of them meet a window. -/
theorem Remade.length_meeting {mark : Recording → Recording} {before after : World}
    (hremade : Remade mark before after) (hsame : ∀ row, SameSpan row (mark row))
    (cameraId : CameraId) (start stop : ℤ) :
    (after.recordings.rows.filter (meetsWindow cameraId start stop)).length =
      (before.recordings.rows.filter (meetsWindow cameraId start stop)).length := by
  rw [hremade.rows, List.filter_map, List.length_map]
  have hmeets : meetsWindow cameraId start stop ∘ mark = meetsWindow cameraId start stop :=
    funext fun row ↦ (hsame row).meetsWindow_eq cameraId start stop
  rw [hmeets]

namespace SegmentIngest

variable (ingest : SegmentIngest)

/-- The window of a notification. -/
def marksRow (cameraId : CameraId) (motionAt : ℤ) (row : Recording) : Bool :=
  meetsWindow cameraId (motionAt - ingest.preBufferSeconds * 1000)
    (motionAt + ingest.postBufferSeconds * 1000) row

/-- A row after a notification. -/
def noticed (cameraId : CameraId) (motionAt : ℤ) (row : Recording) : Recording :=
  if ingest.marksRow cameraId motionAt row then
    if row.status = .buffered then keptRow row
    else if row.status = .available ∧ row.retentionTier = .continuous then eventRow row
    else row
  else row

theorem sameSpan_noticed (cameraId : CameraId) (motionAt : ℤ) (row : Recording) :
    SameSpan row (ingest.noticed cameraId motionAt row) := by
  unfold noticed
  split_ifs <;> exact ⟨rfl, rfl, rfl, rfl, rfl⟩

theorem sameSpan_markAll_kept (ids : List RecordingId) (row : Recording) :
    SameSpan row (markAll ids keptRow row) := by
  unfold markAll
  split_ifs <;> exact ⟨rfl, rfl, rfl, rfl, rfl⟩

/-- The loop over the segments that a query found marks the rows that were found. -/
theorem mem_ids_findRecordingsInRange {table : RecordingTable} {cameraId : CameraId}
    {start stop : ℤ}
    {status : SegmentStatus} {marked : Recording → List RecordingId} {chosen : Recording → Prop}
    (hmarked : ∀ segment id, id ∈ marked segment ↔ id = segment.id ∧ chosen segment)
    {row : Recording} (hrow : row ∈ table.rows) :
    row.id ∈ (table.findRecordingsInRange cameraId start stop status).flatMap marked ↔
      row ∈ table.findRecordingsInRange cameraId start stop status ∧ chosen row := by
  rw [List.mem_flatMap]
  constructor
  · rintro ⟨segment, hfound, hid⟩
    obtain ⟨hsame, hchosen⟩ := (hmarked segment row.id).mp hid
    have hstored : segment ∈ table.rows :=
      (List.mem_filter.mp (mem_oldestFirst.mp (List.mem_of_mem_take hfound))).1
    rw [RecordingTable.eq_of_id_eq hrow hstored hsame]
    exact ⟨hfound, hchosen⟩
  · rintro ⟨hfound, hchosen⟩
    exact ⟨row, hfound, (hmarked row row.id).mpr ⟨rfl, hchosen⟩⟩

/-- The rows that a notification finds in one status. -/
def rowsNear (cameraId : CameraId) (motionAt : ℤ) (status : SegmentStatus) (world : World) :
    List Recording :=
  world.recordings.findRecordingsInRange cameraId (motionAt - ingest.preBufferSeconds * 1000)
    (motionAt + ingest.postBufferSeconds * 1000) status

/-- The queries of a notification hand out every segment of its window. -/
def IsHeardOut (cameraId : CameraId) (motionAt : ℤ) (world : World) : Prop :=
  IsUncut world.recordings.rows cameraId (motionAt - ingest.preBufferSeconds * 1000)
    (motionAt + ingest.postBufferSeconds * 1000)

section Notification

variable {ingest} {cameraId : CameraId} {motionAt : ℤ} {world : World}

theorem mem_bufferedIds (hout : ingest.IsHeardOut cameraId motionAt world) {row : Recording}
    (hrow : row ∈ world.recordings.rows) :
    row.id ∈ (ingest.rowsNear cameraId motionAt .buffered world).flatMap bufferedIds ↔
      row.status = .buffered ∧ ingest.marksRow cameraId motionAt row = true := by
  have hmarked : ∀ (segment : Recording) (id : RecordingId),
      id ∈ bufferedIds segment ↔ id = segment.id ∧ True := by
    simp [bufferedIds]
  rw [rowsNear, mem_ids_findRecordingsInRange hmarked hrow,
    hout.mem_findRecordingsInRange, and_true]
  exact and_iff_right hrow

theorem mem_continuousIds (hout : ingest.IsHeardOut cameraId motionAt world) {row : Recording}
    (hrow : row ∈ world.recordings.rows) :
    row.id ∈ (ingest.rowsNear cameraId motionAt .available world).flatMap continuousIds ↔
      (row.status = .available ∧ ingest.marksRow cameraId motionAt row = true) ∧
        row.retentionTier = .continuous := by
  have hmarked : ∀ (segment : Recording) (id : RecordingId),
      id ∈ continuousIds segment ↔ id = segment.id ∧ segment.retentionTier = .continuous := by
    intro segment id
    unfold continuousIds
    split_ifs with htier <;> simp [htier]
  rw [rowsNear, mem_ids_findRecordingsInRange hmarked hrow, hout.mem_findRecordingsInRange]
  exact and_congr_left fun _ ↦ and_iff_right hrow

/-- A notification marks the rows of its window. -/
theorem eval_onMotion (hout : ingest.IsHeardOut cameraId motionAt world) :
    ∃ count reached, eval answer calm (ingest.onMotion cameraId motionAt) world =
        (.ok count, reached) ∧ Remade (ingest.noticed cameraId motionAt) world reached := by
  obtain ⟨between, hkeep, hkept⟩ := eval_foldlM_marks keptRow_id keptRow_keptRow
    eval_keepSegment (ingest.rowsNear cameraId motionAt .buffered world) world
  obtain ⟨reached, hmove, hmoved⟩ := eval_foldlM_marks eventRow_id eventRow_eventRow
    eval_moveToEvents (ingest.rowsNear cameraId motionAt .available between) between
  have hbetween : ingest.IsHeardOut cameraId motionAt between :=
    (hkept.length_meeting (sameSpan_markAll_kept _) _ _ _).trans_le hout
  refine ⟨(ingest.rowsNear cameraId motionAt .buffered world).length, reached, ?_,
    (hkept.trans hmoved).congr fun row hrow ↦ ?_⟩
  · unfold rowsNear at hkeep hmove
    unfold onMotion
    simp only [call, bind_eq, request_bind, eval_await, calm, answer, Outcome.orFail, orThrow_ok,
      done_bind]
    rw [eval_bind_of_ok answer calm hkeep]
    simp only [eval_await, answer, calm, Outcome.orFail, orThrow_ok, done_bind]
    exact (eval_bind_of_ok answer calm hmove).trans rfl
  · have hfirst := mem_bufferedIds hout hrow
    have hinside : markAll ((ingest.rowsNear cameraId motionAt .buffered world).flatMap bufferedIds)
        keptRow row ∈ between.recordings.rows := by
      rw [hkept.rows]
      exact List.mem_map_of_mem hrow
    have hsecond := mem_continuousIds hbetween hinside
    have hmarks : ingest.marksRow cameraId motionAt (markAll ((ingest.rowsNear cameraId motionAt
        .buffered world).flatMap bufferedIds) keptRow row) =
            ingest.marksRow cameraId motionAt row :=
      (sameSpan_markAll_kept _ row).meetsWindow_eq _ _ _
    rw [hmarks] at hsecond
    rw [Function.comp_apply, markAll, if_congr hsecond rfl rfl, markAll,
      if_congr hfirst rfl rfl, noticed]
    by_cases hmeets : ingest.marksRow cameraId motionAt row = true
    · by_cases hbuffered : row.status = .buffered
      · simp [hmeets, hbuffered, keptRow]
      · simp [hmeets, hbuffered]
    · simp [hmeets]

end Notification

end SegmentIngest

/-! ### A finished file -/

/-- A finished file that passes validation, and the instants of motion of its camera. Around no
instant does the camera have more segments than a query hands out. -/
structure FinishedSegment where
  ingest : SegmentIngest
  camera : Camera
  filePath : Path
  start : ℤ
  durationMs : ℤ
  mode : RecordingMode
  instants : List ℤ
  file : DiskFile
  world : World
  lasts : 0 < durationMs
  within_root : isWithinRoot ingest.recordingsRoot filePath = true
  found : world.files.find? (fun other ↦ other.path = filePath) = some file
  large : minSegmentBytes ≤ file.size
  container : (validateMp4ContainerHeader (file.header.take (min 4096 file.size))).1 = true
  registered : world.cameras.any (fun other ↦ other.id = camera.id) = true
  uncatalogued : ∀ row ∈ world.recordings.rows, row.filePath ≠ filePath
  unmoved : ∀ event ∈ world.motionEvents, event.cameraId ≠ camera.id
  roomy : ∀ instant ∈ instants,
    (world.recordings.rows.filter (ingest.marksRow camera.id instant)).length < maxTimelineSegments

namespace FinishedSegment

variable (segment : FinishedSegment)

/-- What the validator says of the file. -/
def validation : SegmentValidationSuccess where
  sizeBytes := segment.file.size
  durationMs := segment.durationMs
  startTime := segment.start
  endTime := segment.start + segment.durationMs

/-- Motion is persisted, and the ingest is told. -/
def hear (world : World) (instant : ℤ) : World :=
  (eval answer calm (segment.ingest.onMotion segment.camera.id instant)
    (react (.persistMotion ⟨segment.camera.id, instant⟩) world)).2

def catalogue (world : World) : World :=
  (eval answer calm (segment.ingest.catalogueFile segment.camera segment.filePath segment.start
    segment.durationMs segment.mode) world).2

/-- The status and the tier of the segment, when some of the motion comes before the file is
catalogued and some of it after. -/
def fate (before after : List ℤ) : Option (SegmentStatus × RetentionTier) :=
  ((after.foldl segment.hear (segment.catalogue (before.foldl segment.hear
    segment.world))).recordings.findRecordingByFilePath segment.filePath).map
      fun row ↦ (row.status, row.retentionTier)

/-- The motion may come in any order, before and after the file is catalogued. -/
def KeepsInAnyOrder : Prop :=
  ∀ before after earlier later : List ℤ, (before ++ after).Perm segment.instants →
    (earlier ++ later).Perm segment.instants → segment.fate before after =
      segment.fate earlier later

/-- Motion in the interval in which cataloguing looks for it, the bounds included. -/
def Touches (instant : ℤ) : Prop :=
  segment.start - segment.ingest.postBufferSeconds * 1000 ≤ instant ∧
    instant ≤ segment.start + segment.durationMs + segment.ingest.preBufferSeconds * 1000

/-- Motion whose window the segment meets: the bounds are left out. -/
def FallsInside (instant : ℤ) : Prop :=
  segment.start - segment.ingest.postBufferSeconds * 1000 < instant ∧
    instant < segment.start + segment.durationMs + segment.ingest.preBufferSeconds * 1000

instance (instant : ℤ) : Decidable (segment.Touches instant) :=
  inferInstanceAs (Decidable (_ ∧ _))

instance (instant : ℤ) : Decidable (segment.FallsInside instant) :=
  inferInstanceAs (Decidable (_ ∧ _))

theorem eval_validate {world : World} (hfiles : world.files = segment.world.files) :
    eval answer calm (validate segment.ingest.recordingsRoot
      { filePath := segment.filePath, durationMs := some segment.durationMs
        payloadStartTime := some segment.start, quietPeriodMs := some 0 }) world =
      (.ok (.ok segment.validation), world) := by
  have hstat : world.files.find? (fun other ↦ other.path = segment.filePath) = some segment.file :=
    hfiles ▸ segment.found
  have hcontainer := segment.container
  unfold validate
  rw [if_pos segment.within_root]
  simp only [call, bind_eq, request_bind, eval_await, calm, answer, World.answerFile, hstat, id_eq,
    Option.getD_none, Option.getD_some, Nat.not_lt.mpr segment.large, if_false, lt_self_iff_false,
    decide_false, Bool.false_and, Bool.false_eq_true]
  split
  · next hcontents =>
    rw [hcontents] at hcontainer
    cases hcontainer
  · simp [segment.lasts.not_ge, validation]

/-- The world before the file is catalogued, after some of the motion. -/
structure Ready (heard : List ℤ) (world : World) : Prop where
  files : world.files = segment.world.files
  cameras : world.cameras = segment.world.cameras
  motionEvents : world.motionEvents =
    segment.world.motionEvents ++ heard.map (MotionEvent.mk segment.camera.id)
  uncatalogued : ∀ row ∈ world.recordings.rows, row.filePath ≠ segment.filePath
  roomy : ∀ instant ∈ segment.instants, (world.recordings.rows.filter
    (segment.ingest.marksRow segment.camera.id instant)).length < maxTimelineSegments

variable {segment}

theorem ready_world : segment.Ready [] segment.world where
  files := rfl
  cameras := rfl
  motionEvents := (List.append_nil _).symm
  uncatalogued := segment.uncatalogued
  roomy := segment.roomy

/-- The rows after a notification. -/
theorem remade_hear {world : World} {instant : ℤ}
    (hout : segment.ingest.IsHeardOut segment.camera.id instant world) :
    Remade (segment.ingest.noticed segment.camera.id instant)
      (react (.persistMotion ⟨segment.camera.id, instant⟩) world) (segment.hear world instant) := by
  have hheard : segment.ingest.IsHeardOut segment.camera.id instant
      (react (.persistMotion ⟨segment.camera.id, instant⟩) world) := hout
  obtain ⟨count, reached, heval, hremade⟩ := SegmentIngest.eval_onMotion hheard
  unfold hear
  rw [heval]
  exact hremade

theorem Ready.hear {heard : List ℤ} {world : World} (hready : segment.Ready heard world)
    {instant : ℤ} (hinstant : instant ∈ segment.instants) :
    segment.Ready (heard ++ [instant]) (segment.hear world instant) := by
  have hremade := remade_hear (le_of_lt (hready.roomy instant hinstant) :
    segment.ingest.IsHeardOut segment.camera.id instant world)
  refine ⟨hremade.files.trans hready.files, hremade.cameras.trans hready.cameras, ?_, ?_, ?_⟩
  · rw [hremade.motionEvents, List.map_append, ← List.append_assoc, ← hready.motionEvents]
    rfl
  · intro row hrow
    rw [hremade.rows] at hrow
    obtain ⟨old, hold, rfl⟩ := List.mem_map.mp hrow
    rw [(segment.ingest.sameSpan_noticed segment.camera.id instant old).filePath_eq]
    exact hready.uncatalogued old hold
  · intro other hother
    exact (hremade.length_meeting (segment.ingest.sameSpan_noticed segment.camera.id instant) _ _
      _).trans_lt (hready.roomy other hother)

theorem Ready.foldl {heard : List ℤ} {world : World} (hready : segment.Ready heard world)
    {before : List ℤ} (hbefore : ∀ instant ∈ before, instant ∈ segment.instants) :
    segment.Ready (heard ++ before) (before.foldl segment.hear world) := by
  induction before generalizing heard world with
  | nil => rwa [List.append_nil]
  | cons instant before ih =>
    have hfirst := hready.hear (hbefore instant List.mem_cons_self)
    have hrest := ih hfirst fun other hother ↦ hbefore other (List.mem_cons_of_mem _ hother)
    rwa [List.append_assoc] at hrest

/-- Whether the file is found near the motion that came before it was catalogued. -/
def isNear (segment : FinishedSegment) (heard : List ℤ) : Bool :=
  heard.any fun instant ↦ segment.Touches instant

/-- The row of the file. -/
def newRow (segment : FinishedSegment) (heard : List ℤ) : NewRecording :=
  SegmentIngest.validRow segment.camera segment.filePath segment.mode (segment.isNear heard)
    segment.validation

theorem Ready.eval_isNearMotion {heard : List ℤ} {world : World}
    (hready : segment.Ready heard world) :
    eval answer calm (segment.ingest.isNearMotion segment.camera.id segment.validation.startTime
      segment.validation.endTime) world = (.ok (segment.isNear heard), world) := by
  have hnear : decide (0 < ((world.motionEvents.filter fun event ↦
      event.cameraId = segment.camera.id &&
        segment.start - segment.ingest.postBufferSeconds * 1000 ≤ event.createdAt &&
          event.createdAt ≤ segment.start + segment.durationMs +
            segment.ingest.preBufferSeconds * 1000).map MotionEvent.createdAt).length) =
      segment.isNear heard := by
    rw [Bool.eq_iff_iff, decide_eq_true_eq, List.length_map, List.length_filter_pos_iff, isNear,
      List.any_eq_true, hready.motionEvents]
    constructor
    · rintro ⟨event, hevent, hfits⟩
      simp only [Bool.and_eq_true, decide_eq_true_eq] at hfits
      rcases List.mem_append.mp hevent with hold | hheard
      · exact absurd hfits.1.1 (segment.unmoved event hold)
      · obtain ⟨instant, hinstant, rfl⟩ := List.mem_map.mp hheard
        exact ⟨instant, hinstant, decide_eq_true ⟨hfits.1.2, hfits.2⟩⟩
    · rintro ⟨instant, hinstant, htouches⟩
      refine ⟨⟨segment.camera.id, instant⟩, List.mem_append_right _ (List.mem_map_of_mem hinstant),
        ?_⟩
      have hbounds : segment.Touches instant := of_decide_eq_true htouches
      simp [hbounds.1, hbounds.2]
  unfold SegmentIngest.isNearMotion validation
  simp only [call, bind_eq, request_bind, eval_await, calm, answer, Outcome.orFail, orThrow_ok,
    done_bind, pure_eq, eval_done]
  rw [hnear]

/-- Cataloguing adds the row of the file. -/
theorem Ready.rows_catalogue {heard : List ℤ} {world : World} (hready : segment.Ready heard world) :
    (segment.catalogue world).recordings.rows =
      world.recordings.rows ++ [(segment.newRow heard).toRecording world.recordings.nextId] := by
  have hfind : world.recordings.findRecordingByFilePath segment.filePath = none := by
    rw [RecordingTable.findRecordingByFilePath, List.find?_eq_none]
    simpa using hready.uncatalogued
  have hfree : ∀ row ∈ world.recordings.rows, row.filePath ≠ (segment.newRow heard).filePath :=
    hready.uncatalogued
  have hcreate : world.answerCreate (segment.newRow heard) .ok =
      (.ok ((segment.newRow heard).toRecording world.recordings.nextId),
        { world with recordings := world.recordings.insert (segment.newRow heard) hfree }) := by
    have hknown : world.cameras.any (fun other ↦ other.id = segment.camera.id) = true :=
      hready.cameras ▸ segment.registered
    exact (if_pos hknown).trans (dif_pos hfree)
  unfold catalogue SegmentIngest.catalogueFile
  simp only [call, bind_eq, request_bind, eval_await, calm, answer, Outcome.orFail, orThrow_ok,
    done_bind, hfind]
  rw [eval_bind_of_ok answer calm (segment.eval_validate hready.files)]
  simp only []
  rw [eval_bind_of_ok answer calm hready.eval_isNearMotion]
  have hrows : (world.recordings.insert (segment.newRow heard) hfree).rows =
      world.recordings.rows ++ [(segment.newRow heard).toRecording world.recordings.nextId] := rfl
  rw [← hrows]
  unfold newRow at hcreate
  simp only [eval_await, answer, calm, hcreate, orThrow_ok, done_bind]
  split_ifs
  · rw [eval_bind_of_ok answer calm (eval_emitSegmentCreated _ _ _)]
    rfl
  · rfl

/-! ### The fate of the segment -/

/-- Status and tier of the segment, marked by motion or not. -/
def outcome (segment : FinishedSegment) (marked : Bool) : SegmentStatus × RetentionTier :=
  if marked then (.available, .event)
  else (if segment.mode = .motionOnly then .buffered else .available, .continuous)

/-- The row of the segment. -/
structure Fated (segment : FinishedSegment) (marked : Bool) (row : Recording) : Prop where
  filePath : row.filePath = segment.filePath
  cameraId : row.cameraId = segment.camera.id
  startTime : row.startTime = segment.start
  endTime : row.endTime = segment.start + segment.durationMs
  fate : (row.status, row.retentionTier) = segment.outcome marked

theorem fated_newRow (heard : List ℤ) (id : RecordingId) :
    segment.Fated (segment.isNear heard) ((segment.newRow heard).toRecording id) := by
  refine ⟨rfl, rfl, rfl, rfl, ?_⟩
  cases hnear : segment.isNear heard <;>
    simp [newRow, SegmentIngest.validRow, NewRecording.toRecording, outcome, hnear]

theorem Fated.marksRow_iff {marked : Bool} {row : Recording} (hrow : segment.Fated marked row)
    (instant : ℤ) :
    segment.ingest.marksRow segment.camera.id instant row = true ↔ segment.FallsInside instant := by
  simp only [SegmentIngest.marksRow, meetsWindow, FallsInside, hrow.cameraId, hrow.startTime,
    hrow.endTime, Bool.and_eq_true, decide_eq_true_eq, true_and, gt_iff_lt]
  omega

/-- A notification marks the segment when its window meets it. -/
theorem Fated.noticed {marked : Bool} {row : Recording} (hrow : segment.Fated marked row)
    (instant : ℤ) :
    segment.Fated (marked || segment.FallsInside instant)
      (segment.ingest.noticed segment.camera.id instant row) := by
  have hsame := segment.ingest.sameSpan_noticed segment.camera.id instant row
  refine ⟨hsame.filePath_eq.trans hrow.filePath, hsame.cameraId_eq.trans hrow.cameraId,
    hsame.startTime_eq.trans hrow.startTime, hsame.endTime_eq.trans hrow.endTime, ?_⟩
  have hfate := hrow.fate
  unfold SegmentIngest.noticed
  rw [if_congr (hrow.marksRow_iff instant) rfl rfl]
  by_cases hinside : segment.FallsInside instant
  · cases marked with
    | true =>
      obtain ⟨hstatus, htier⟩ := Prod.mk.inj hfate
      simp [outcome, hstatus, htier]
    | false =>
      obtain ⟨hstatus, htier⟩ := Prod.mk.inj hfate
      by_cases hmode : segment.mode = .motionOnly
      · simp [outcome, hinside, hstatus, hmode, keptRow]
      · simp [outcome, hinside, hstatus, htier, hmode, eventRow]
  · simp [hinside, hfate]

/-- The row of the segment in the catalogue, after some of the motion. -/
structure Tracked (segment : FinishedSegment) (marked : Bool) (world : World) : Prop where
  row : ∃ row ∈ world.recordings.rows, segment.Fated marked row
  heardOut : ∀ instant ∈ segment.instants,
    segment.ingest.IsHeardOut segment.camera.id instant world

theorem Ready.tracked {heard : List ℤ} {world : World} (hready : segment.Ready heard world) :
    segment.Tracked (segment.isNear heard) (segment.catalogue world) := by
  refine ⟨⟨_, ?_, fated_newRow heard world.recordings.nextId⟩, fun instant hinstant ↦ ?_⟩
  · rw [hready.rows_catalogue]
    exact List.mem_append_right _ (List.mem_singleton_self _)
  · have hfew := hready.roomy instant hinstant
    unfold SegmentIngest.IsHeardOut IsUncut
    rw [hready.rows_catalogue, List.filter_append, List.length_append]
    have hone := List.length_filter_le (segment.ingest.marksRow segment.camera.id instant)
      [(segment.newRow heard).toRecording world.recordings.nextId]
    exact Nat.le_of_lt_succ (Nat.add_lt_add_of_lt_of_le hfew hone)

theorem Tracked.hear {marked : Bool} {world : World} (htracked : segment.Tracked marked world)
    {instant : ℤ} (hinstant : instant ∈ segment.instants) :
    segment.Tracked (marked || segment.FallsInside instant) (segment.hear world instant) := by
  have hremade := remade_hear (htracked.heardOut instant hinstant)
  obtain ⟨row, hrow, hfated⟩ := htracked.row
  refine ⟨⟨_, ?_, hfated.noticed instant⟩, fun other hother ↦ ?_⟩
  · rw [hremade.rows]
    exact List.mem_map_of_mem hrow
  · exact (hremade.length_meeting (segment.ingest.sameSpan_noticed segment.camera.id instant) _ _
      _).trans_le (htracked.heardOut other hother)

theorem Tracked.foldl {marked : Bool} {world : World} (htracked : segment.Tracked marked world)
    {after : List ℤ} (hafter : ∀ instant ∈ after, instant ∈ segment.instants) :
    segment.Tracked (marked || after.any fun instant ↦ segment.FallsInside instant)
      (after.foldl segment.hear world) := by
  induction after generalizing marked world with
  | nil => rwa [List.any_nil, Bool.or_false]
  | cons instant after ih =>
    have hfirst := htracked.hear (hafter instant List.mem_cons_self)
    have hrest := ih hfirst fun other hother ↦ hafter other (List.mem_cons_of_mem _ hother)
    rwa [Bool.or_assoc] at hrest

/-- What becomes of the segment depends on the motion around it before it is catalogued, and on the
motion strictly around it after. -/
theorem fate_eq {before after : List ℤ} (hsplit : (before ++ after).Perm segment.instants) :
    segment.fate before after = some (segment.outcome (segment.isNear before ||
      after.any fun instant ↦ segment.FallsInside instant)) := by
  have hready := ready_world.foldl fun instant hinstant ↦
    hsplit.subset (List.mem_append_left _ hinstant)
  have htracked := hready.tracked.foldl fun instant hinstant ↦
    hsplit.subset (List.mem_append_right _ hinstant)
  obtain ⟨row, hrow, hfated⟩ := htracked.row
  have hfind : ∀ table : RecordingTable, row ∈ table.rows →
      table.findRecordingByFilePath segment.filePath = some row := by
    intro table hstored
    cases hfound : table.findRecordingByFilePath segment.filePath with
    | none => simpa [hfated.filePath] using List.find?_eq_none.mp hfound row hstored
    | some other =>
      have hother : other.filePath = segment.filePath := by simpa using List.find?_some hfound
      rw [RecordingTable.eq_of_filePath_eq (List.mem_of_find?_eq_some hfound) hstored
        (hother.trans hfated.filePath.symm)]
  unfold fate
  rw [hfind _ hrow, Option.map_some, hfated.fate, List.nil_append]

theorem FallsInside.touches {instant : ℤ} (hinside : segment.FallsInside instant) :
    segment.Touches instant := ⟨hinside.1.le, hinside.2.le⟩

theorem isNear_iff {heard : List ℤ} :
    segment.isNear heard = true ↔ ∃ instant ∈ heard, segment.Touches instant := by
  simp [isNear]

theorem outcome_inj {first second : Bool} (hsame : segment.outcome first = segment.outcome second) :
    first = second := by
  cases first <;> cases second <;> simp [outcome] at hsame ⊢

/-- The motion may come in any order just when no instant on a bound of the segment is its only
motion. -/
theorem keepsInAnyOrder_iff (segment : FinishedSegment) :
    segment.KeepsInAnyOrder ↔ ((∃ instant ∈ segment.instants, segment.Touches instant) →
      ∃ instant ∈ segment.instants, segment.FallsInside instant) := by
  constructor
  · intro hkeeps hnear
    have hperm : (segment.instants ++ []).Perm segment.instants := by rw [List.append_nil]
    have hfates := hkeeps segment.instants [] [] segment.instants hperm (List.Perm.refl _)
    rw [fate_eq hperm, fate_eq (List.Perm.refl _)] at hfates
    have hmarked := outcome_inj (Option.some.inj hfates)
    rw [isNear_iff.mpr hnear, Bool.true_or] at hmarked
    simpa [isNear] using hmarked.symm
  · intro hinside
    have hmarked : ∀ before after : List ℤ, (before ++ after).Perm segment.instants →
        (segment.isNear before || after.any fun instant ↦ segment.FallsInside instant) =
          segment.isNear segment.instants := by
      intro before after hsplit
      rw [Bool.eq_iff_iff, Bool.or_eq_true, isNear_iff, isNear_iff, List.any_eq_true]
      constructor
      · rintro (⟨instant, hinstant, htouches⟩ | ⟨instant, hinstant, hfalls⟩)
        · exact ⟨instant, hsplit.subset (List.mem_append_left _ hinstant), htouches⟩
        · exact ⟨instant, hsplit.subset (List.mem_append_right _ hinstant),
            FallsInside.touches (of_decide_eq_true hfalls)⟩
      · intro hnear
        obtain ⟨instant, hinstant, hfalls⟩ := hinside hnear
        rcases List.mem_append.mp (hsplit.symm.subset hinstant) with hbefore | hafter
        · exact Or.inl ⟨instant, hbefore, hfalls.touches⟩
        · exact Or.inr ⟨instant, hafter, decide_eq_true hfalls⟩
    intro before after earlier later hfirst hsecond
    rw [fate_eq hfirst, fate_eq hsecond, hmarked before after hfirst, hmarked earlier later hsecond]

/-! ### Motion on a bound -/

/-- A segment of ten seconds of a camera that records on motion, and motion ten seconds after its
end. -/
def lateMotion : FinishedSegment where
  ingest := { recordingsRoot := ["rec"] }
  camera := { id := "cam", name := "Yard", mediaMtxPath := "yard" }
  filePath := ["rec", "yard", "a.mp4"]
  start := 0
  durationMs := 10000
  mode := .motionOnly
  instants := [20000]
  file := {
    path := ["rec", "yard", "a.mp4"]
    size := 2048
    mtimeMs := 10000
    header := [0, 0, 0, 24, 102, 116, 121, 112] }
  world := {
    cameras := [{ id := "cam", name := "Yard", mediaMtxPath := "yard" }]
    files := [{
      path := ["rec", "yard", "a.mp4"]
      size := 2048
      mtimeMs := 10000
      header := [0, 0, 0, 24, 102, 116, 121, 112] }]
    now := 30000 }
  lasts := by decide
  within_root := by decide
  found := by decide
  large := by decide
  container := by decide
  registered := by decide
  uncatalogued := by decide
  unmoved := by decide
  roomy := by decide

/-- Before the file is catalogued the motion keeps it, and after it is catalogued it does not. -/
theorem not_keepsInAnyOrder_lateMotion : ¬ lateMotion.KeepsInAnyOrder := by
  intro hkeeps
  have hfates := hkeeps [20000] [] [] [20000] (List.Perm.refl _) (List.Perm.refl _)
  revert hfates
  decide +kernel

end FinishedSegment

end VmsLite.Recordings
