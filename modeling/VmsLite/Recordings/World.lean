import VmsLite.Async.RelyGuarantee
import VmsLite.Recordings.Repository

/-!
# The world of the recording engine

The database, the recordings volume and the memory of the process, and what every awaited call does
to them. Each call may fail, with an error of the environment's choice and no effect: a repository
call that catches its errors (`updateRecordingStatus`, `updateRecordingTier`) then replies `none`,
every other one throws. A file-system call on a file that is not there replies `ENOENT`; it may also
fail with any error on a file that is there. `statfs` and the write canary answer from the volume,
or with a reading the environment chooses.

`EnvironmentChange` is what happens around the engine: motion, bookmarks, exports, cameras writing
files, time. A restart keeps the database and the disk and loses the memory of the process.
-/

set_option autoImplicit false

namespace VmsLite.Recordings

open VmsLite.Async

/-- The outcome the environment chooses for a call. -/
inductive Outcome
  | ok
  | fail (error : Failure)
  | reading (stats : DiskStats)
  | latency (latencyMs : ℕ)
  deriving DecidableEq, Repr

structure World where
  recordings : RecordingTable := {}
  cameras : List Camera := []
  bookmarks : List Bookmark := []
  exportJobs : List ExportJob := []
  /-- Persisted `motion.detected` events, oldest first. -/
  motionEvents : List MotionEvent := []
  files : List DiskFile := []
  directories : List Path := []
  volume : Volume := {}
  now : ℤ := 0
  /-- `SegmentIngest.watermarks`; `none` is `-Infinity`. -/
  watermarks : List (CameraId × Option ℤ) := []
  /-- `StorageController.lastHealthStatus`. -/
  lastHealthStatus : StorageHealthStatus := .healthy
  /-- `StorageController.protectedOverflow`. -/
  protectedOverflow : Bool := false
  /-- Events emitted on the bus, oldest first. -/
  emitted : List BusEvent := []

/-- The awaited calls of the recording engine, then its accesses to the memory of the process. -/
inductive Call
  | createRecording (data : NewRecording)
  | findRecordingByFilePath (filePath : Path)
  | findLatestStartTime (cameraId : CameraId)
  | findRecordingsInRange (cameraId : CameraId) (start stop : ℤ) (status : SegmentStatus)
  | findMotionTimes (cameraId : CameraId) (start stop : ℤ)
  | findOldestRecordings (limit skip : ℕ) (statuses : Option (List SegmentStatus))
  | findHeldRecordings (windows : List Window)
  | updateRecordingTier (id : RecordingId) (tier : RetentionTier)
  | updateRecordingStatus (id : RecordingId) (status : SegmentStatus)
      (errorReason : Option String)
  | deleteRecording (id : RecordingId)
  | findRecordingsByStatus (status : SegmentStatus) (limit : ℕ)
  | queryRecordings (limit : ℕ)
  | getCameraSchedule (cameraId : CameraId)
  | listAllCameras
  | getCameraById (cameraId : CameraId)
  | findBookmarks (start stop : ℤ)
  | findActiveExports
  /-- Which of two calls awaited by one `Promise.all` the database answers first. -/
  | promiseAllOrder
  | deleteCamera (cameraId : CameraId)
  | removeMediaPaths (camera : Camera)
  | readdir (dir : Path)
  | stat (path : Path)
  | access (path : Path)
  | unlink (path : Path)
  /-- Open a file, read its first bytes and close it. -/
  | readHeader (path : Path)
  | mkdir (dir : Path)
  | statfs (dir : Path)
  | writeCanary
  | emitEvent (event : BusEvent)
  | clockNow
  | getWatermark (cameraId : CameraId)
  | setWatermark (cameraId : CameraId) (mark : Option ℤ)
  /-- Read `lastHealthStatus` and set it. -/
  | exchangeHealthStatus (status : StorageHealthStatus)
  | getProtectedOverflow
  | setProtectedOverflow (overflow : Bool)
  deriving DecidableEq, Repr

/-- The type of the reply to a call. A call that throws replies with an `Except`. -/
@[reducible] def Reply : Call → Type
  | .createRecording _ => Except Failure Recording
  | .findRecordingByFilePath _ => Except Failure (Option Recording)
  | .findLatestStartTime _ => Except Failure (Option ℤ)
  | .findRecordingsInRange .. => Except Failure (List Recording)
  | .findMotionTimes .. => Except Failure (List ℤ)
  | .findOldestRecordings .. => Except Failure (List Recording)
  | .findHeldRecordings _ => Except Failure (List Recording)
  | .updateRecordingTier .. => Option Recording
  | .updateRecordingStatus .. => Option Recording
  | .deleteRecording _ => Except Failure Unit
  | .findRecordingsByStatus .. => Except Failure (List Recording)
  | .queryRecordings _ => Except Failure (List Recording)
  | .getCameraSchedule _ => Except Failure RecordingMode
  | .listAllCameras => Except Failure (List Camera)
  | .getCameraById _ => Except Failure (Option Camera)
  | .findBookmarks .. => Except Failure (List Bookmark)
  | .findActiveExports => Except Failure (List ExportJob)
  | .promiseAllOrder => Bool
  | .deleteCamera _ => Except Failure Unit
  | .removeMediaPaths _ => Except Failure Unit
  | .readdir _ => Except Failure (List String)
  | .stat _ => Except Failure DiskFile
  | .access _ => Except Failure Unit
  | .unlink _ => Except Failure Unit
  | .readHeader _ => Except Failure (List UInt8)
  | .mkdir _ => Unit
  | .statfs _ => Except Failure DiskStats
  | .writeCanary => Except Failure ℕ
  | .emitEvent _ => Unit
  | .clockNow => ℤ
  | .getWatermark _ => Option (Option ℤ)
  | .setWatermark .. => Unit
  | .exchangeHealthStatus _ => StorageHealthStatus
  | .getProtectedOverflow => Bool
  | .setProtectedOverflow _ => Unit

/-- Calls that touch only the memory of the process. -/
def synchronous : Call → Bool
  | .clockNow | .getWatermark _ | .setWatermark .. | .exchangeHealthStatus _
  | .getProtectedOverflow | .setProtectedOverflow _ => true
  | _ => false

/-- A value, unless the environment made the call fail. -/
def Outcome.orFail {α : Type} (outcome : Outcome) (value : α) : Except Failure α :=
  match outcome with
  | .fail error => .error error
  | _ => .ok value

/-- Whether the environment lets the call through. -/
def Outcome.passes : Outcome → Bool
  | .fail _ => false
  | _ => true

namespace World

variable (world : World)

/-- Whether a file is on the disk. -/
def onDisk (path : Path) : Bool := world.files.any fun file ↦ file.path = path

/-- `ENOENT`, with the message Node gives it. -/
def noSuchFile (syscall : String) (path : Path) : Failure where
  code := .enoent
  message := "ENOENT: no such file or directory, " ++ syscall ++ " '" ++ renderPath path ++ "'"

/-- The world after an update of one row. -/
def updateRow (id : RecordingId) (patch : RowPatch) : World :=
  { world with recordings := world.recordings.update id patch }

/-- The world without the rows that satisfy a condition. -/
def removeRows (condition : Recording → Bool) : World :=
  { world with recordings := world.recordings.remove condition }

/-- The world without a file. -/
def removeFile (path : Path) : World :=
  { world with files := world.files.filter fun file ↦ file.path ≠ path }

/-- The entries of a directory. -/
def entries (dir : Path) : List String :=
  ((world.directories ++ world.files.map DiskFile.path).filter fun path ↦
    path.length = dir.length + 1 && path.take dir.length = dir).filterMap List.getLast?

/-- `update` of one row, replying with the new row, or with `none` when there is no such row. -/
def answerUpdate (id : RecordingId) (patch : RowPatch) (outcome : Outcome) :
    Option Recording × World :=
  if outcome.passes then ((world.recordings.update id patch).find id, world.updateRow id patch)
  else (none, world)

/-- `delete` of one row; it throws when there is no such row. -/
def answerDelete (id : RecordingId) (outcome : Outcome) : Except Failure Unit × World :=
  match outcome with
  | .fail error => (.error error, world)
  | _ =>
    if (world.recordings.find id).isSome then
      (.ok (), world.removeRows fun row ↦ row.id = id)
    else (.error { code := .p2025, message := "Record to delete does not exist." }, world)

/-- `create` of a row; it throws on an unknown camera or a file path that is taken. -/
def answerCreate (data : NewRecording) (outcome : Outcome) : Except Failure Recording × World :=
  match outcome with
  | .fail error => (.error error, world)
  | _ =>
    if world.cameras.any fun camera ↦ camera.id = data.cameraId then
      if hfree : ∀ row ∈ world.recordings.rows, row.filePath ≠ data.filePath then
        (.ok (data.toRecording world.recordings.nextId),
          { world with recordings := world.recordings.insert data hfree })
      else (.error { code := .p2002, message := "Unique constraint failed" }, world)
    else (.error { code := .p2003, message := "Foreign key constraint failed" }, world)

/-- `delete` of a camera, with the rows that cascade on it. -/
def answerDeleteCamera (cameraId : CameraId) (outcome : Outcome) : Except Failure Unit × World :=
  match outcome with
  | .fail error => (.error error, world)
  | _ =>
    if world.cameras.any fun camera ↦ camera.id = cameraId then
      (.ok (),
        { world.removeRows fun row ↦ row.cameraId = cameraId with
          cameras := world.cameras.filter fun camera ↦ camera.id ≠ cameraId
          bookmarks := world.bookmarks.filter fun bookmark ↦ bookmark.cameraId ≠ cameraId
          exportJobs := world.exportJobs.filter fun job ↦ job.cameraId ≠ cameraId })
    else (.error { code := .p2025, message := "Record to delete does not exist." }, world)

/-- `unlink` of a file. -/
def answerUnlink (path : Path) (outcome : Outcome) : Except Failure Unit × World :=
  match outcome with
  | .fail error => (.error error, world)
  | _ =>
    if world.onDisk path then (.ok (), world.removeFile path)
    else (.error (noSuchFile "unlink" path), world)

/-- A call that only asks about a file. -/
def answerFile {α : Type} (syscall : String) (path : Path) (ask : DiskFile → α)
    (outcome : Outcome) : Except Failure α :=
  match outcome with
  | .fail error => .error error
  | _ =>
    match world.files.find? fun file ↦ file.path = path with
    | some file => .ok (ask file)
    | none => .error (noSuchFile syscall path)

/-- `statfs` of a directory. -/
def answerStatfs (dir : Path) (outcome : Outcome) : Except Failure DiskStats :=
  match outcome with
  | .fail error => .error error
  | .reading stats => .ok stats
  | _ =>
    match world.volume.statfs.lookup dir with
    | some stats => .ok stats
    | none => .error (noSuchFile "statfs" dir)

/-- The write canary. -/
def answerCanary (outcome : Outcome) : Except Failure ℕ :=
  match outcome with
  | .fail error => .error error
  | .latency latencyMs => .ok latencyMs
  | _ =>
    match world.volume.canaryLatencyMs with
    | some latencyMs => .ok latencyMs
    | none => .error { code := .erofs, message := "EROFS: read-only file system" }

/-! What each kind of call can do, by cases on its reply. -/

variable {world}

theorem onDisk_iff {path : Path} :
    world.onDisk path = true ↔ ∃ file ∈ world.files, file.path = path := by
  simp [onDisk]

theorem onDisk_removeFile {path other : Path} :
    (world.removeFile path).onDisk other = true ↔ other ≠ path ∧ world.onDisk other = true := by
  simp only [onDisk_iff, removeFile, List.mem_filter, decide_eq_true_eq]
  constructor
  · rintro ⟨file, ⟨hfile, hne⟩, rfl⟩
    exact ⟨hne, file, hfile, rfl⟩
  · rintro ⟨hne, file, hfile, rfl⟩
    exact ⟨file, ⟨hfile, hne⟩, rfl⟩

theorem not_onDisk_removeFile (path : Path) : (world.removeFile path).onDisk path = false := by
  rw [← Bool.not_eq_true, onDisk_removeFile]
  exact fun hdisk ↦ hdisk.1 rfl

variable (world)

theorem answerUpdate_cases (id : RecordingId) (patch : RowPatch) (outcome : Outcome) :
    (outcome.passes = true ∧ world.answerUpdate id patch outcome =
        ((world.recordings.update id patch).find id, world.updateRow id patch)) ∨
      (outcome.passes = false ∧ world.answerUpdate id patch outcome = (none, world)) := by
  unfold answerUpdate
  split_ifs with hpasses
  · exact Or.inl ⟨hpasses, rfl⟩
  · exact Or.inr ⟨Bool.not_eq_true _ ▸ hpasses, rfl⟩

theorem answerDelete_cases (id : RecordingId) (outcome : Outcome) :
    world.answerDelete id outcome = (.ok (), world.removeRows fun row ↦ row.id = id) ∨
      ∃ error, world.answerDelete id outcome = (.error error, world) := by
  unfold answerDelete
  split
  · exact Or.inr ⟨_, rfl⟩
  · split_ifs
    · exact Or.inl rfl
    · exact Or.inr ⟨_, rfl⟩

theorem answerCreate_cases (data : NewRecording) (outcome : Outcome) :
    (∃ hfree, world.answerCreate data outcome =
        (.ok (data.toRecording world.recordings.nextId),
          { world with recordings := world.recordings.insert data hfree })) ∨
      ∃ error, world.answerCreate data outcome = (.error error, world) := by
  unfold answerCreate
  split
  · exact Or.inr ⟨_, rfl⟩
  · split_ifs with hcamera hfree
    · exact Or.inl ⟨hfree, rfl⟩
    · exact Or.inr ⟨_, rfl⟩
    · exact Or.inr ⟨_, rfl⟩

theorem answerUnlink_cases (path : Path) (outcome : Outcome) :
    (world.onDisk path = true ∧
        world.answerUnlink path outcome = (.ok (), world.removeFile path)) ∨
      ∃ error, world.answerUnlink path outcome = (.error error, world) ∧
        (outcome = .fail error ∨ error.code = .enoent ∧ world.onDisk path = false) := by
  unfold answerUnlink
  split
  · exact Or.inr ⟨_, rfl, Or.inl rfl⟩
  · split_ifs with hdisk
    · exact Or.inl ⟨hdisk, rfl⟩
    · exact Or.inr ⟨_, rfl, Or.inr ⟨rfl, Bool.not_eq_true _ ▸ hdisk⟩⟩

theorem answerFile_cases {α : Type} (syscall : String) (path : Path) (ask : DiskFile → α)
    (outcome : Outcome) :
    (∃ file ∈ world.files, file.path = path ∧
        world.answerFile syscall path ask outcome = .ok (ask file)) ∨
      ∃ error, world.answerFile syscall path ask outcome = .error error ∧
        (outcome = .fail error ∨ error.code = .enoent ∧ world.onDisk path = false) := by
  unfold answerFile
  split
  · exact Or.inr ⟨_, rfl, Or.inl rfl⟩
  · split
    · next file hfind =>
      exact Or.inl ⟨file, List.mem_of_find?_eq_some hfind, by simpa using List.find?_some hfind,
        rfl⟩
    · next hfind =>
      refine Or.inr ⟨_, rfl, Or.inr ⟨rfl, ?_⟩⟩
      simpa [onDisk] using hfind

end World

theorem Outcome.orFail_cases {α : Type} (outcome : Outcome) (value : α) :
    outcome.orFail value = .ok value ∨
      ∃ error, outcome = .fail error ∧ outcome.orFail value = .error error := by
  cases outcome with
  | fail error => exact Or.inr ⟨error, rfl, rfl⟩
  | ok => exact Or.inl rfl
  | reading stats => exact Or.inl rfl
  | latency latencyMs => exact Or.inl rfl

/-- What every call does: its reply and the world after it. -/
def answer (call : Call) (outcome : Outcome) (world : World) : Reply call × World :=
  match call with
  | .createRecording data => world.answerCreate data outcome
  | .findRecordingByFilePath filePath =>
    (outcome.orFail (world.recordings.findRecordingByFilePath filePath), world)
  | .findLatestStartTime cameraId =>
    (outcome.orFail (world.recordings.findLatestStartTime cameraId), world)
  | .findRecordingsInRange cameraId start stop status =>
    (outcome.orFail (world.recordings.findRecordingsInRange cameraId start stop status), world)
  | .findMotionTimes cameraId start stop =>
    (outcome.orFail ((world.motionEvents.filter fun event ↦
      event.cameraId = cameraId && start ≤ event.createdAt && event.createdAt ≤ stop).map
        MotionEvent.createdAt), world)
  | .findOldestRecordings limit skip statuses =>
    (outcome.orFail (world.recordings.findOldestRecordings limit skip statuses), world)
  | .findHeldRecordings windows =>
    (outcome.orFail (world.recordings.findHeldRecordings windows), world)
  | .updateRecordingTier id tier =>
    world.answerUpdate id { retentionTier := some tier } outcome
  | .updateRecordingStatus id status errorReason =>
    world.answerUpdate id { status := some status, errorReason := some errorReason } outcome
  | .deleteRecording id => world.answerDelete id outcome
  | .findRecordingsByStatus status limit =>
    (outcome.orFail (world.recordings.findRecordingsByStatus status limit), world)
  | .queryRecordings limit => (outcome.orFail (world.recordings.queryRecordings limit), world)
  | .getCameraSchedule cameraId =>
    (outcome.orFail (match world.cameras.find? fun camera ↦ camera.id = cameraId with
      | some camera => camera.recordingMode
      | none => .continuous), world)
  | .listAllCameras => (outcome.orFail world.cameras, world)
  | .getCameraById cameraId =>
    (outcome.orFail (world.cameras.find? fun camera ↦ camera.id = cameraId), world)
  | .findBookmarks start stop =>
    (outcome.orFail (world.bookmarks.filter fun bookmark ↦
      start ≤ bookmark.timestamp && bookmark.timestamp ≤ stop), world)
  | .findActiveExports =>
    (outcome.orFail (world.exportJobs.filter fun job ↦
      job.status = .queued || job.status = .running), world)
  | .promiseAllOrder => (outcome.passes, world)
  | .deleteCamera cameraId => world.answerDeleteCamera cameraId outcome
  | .removeMediaPaths _ => (outcome.orFail (), world)
  | .readdir dir =>
    (match outcome with
      | .fail error => .error error
      | _ =>
        if dir ∈ world.directories then .ok (world.entries dir)
        else .error (World.noSuchFile "scandir" dir), world)
  | .stat path => (world.answerFile "stat" path id outcome, world)
  | .access path => (world.answerFile "access" path (fun _ ↦ ()) outcome, world)
  | .unlink path => world.answerUnlink path outcome
  | .readHeader path => (world.answerFile "open" path DiskFile.header outcome, world)
  | .mkdir _ => ((), world)
  | .statfs dir => (world.answerStatfs dir outcome, world)
  | .writeCanary => (world.answerCanary outcome, world)
  | .emitEvent event => ((), { world with emitted := world.emitted ++ [event] })
  | .clockNow => (world.now, world)
  | .getWatermark cameraId => (world.watermarks.lookup cameraId, world)
  | .setWatermark cameraId mark =>
    ((), { world with watermarks := (cameraId, mark) :: world.watermarks })
  | .exchangeHealthStatus status =>
    (world.lastHealthStatus, { world with lastHealthStatus := status })
  | .getProtectedOverflow => (world.protectedOverflow, world)
  | .setProtectedOverflow overflow => ((), { world with protectedOverflow := overflow })

/-- What happens around the recording engine. -/
inductive EnvironmentChange
  | persistMotion (event : MotionEvent)
  | createBookmark (bookmark : Bookmark)
  | persistExport (job : ExportJob)
  | setExportStatus (id : ℕ) (status : ExportStatus)
  | setProtection (id : RecordingId) (isProtected : Bool)
  | fileAppears (file : DiskFile)
  | fileWritten (path : Path) (size : ℕ) (mtimeMs : ℤ)
  | clockAdvances (ms : ℕ)
  | volumeChanges (volume : Volume)

/-- The world after a change around the engine. -/
def react (change : EnvironmentChange) (world : World) : World :=
  match change with
  | .persistMotion event => { world with motionEvents := world.motionEvents ++ [event] }
  | .createBookmark bookmark => { world with bookmarks := world.bookmarks ++ [bookmark] }
  | .persistExport job => { world with exportJobs := world.exportJobs ++ [job] }
  | .setExportStatus id status =>
    { world with
      exportJobs := world.exportJobs.map fun job ↦
        if job.id = id then { job with status := status } else job }
  | .setProtection id isProtected => world.updateRow id { isProtected := some isProtected }
  | .fileAppears file =>
    { world with
      files := world.files ++ [file]
      directories := if file.path.dropLast ∈ world.directories then world.directories
        else world.directories ++ [file.path.dropLast] }
  | .fileWritten path size mtimeMs =>
    { world with
      files := world.files.map fun file ↦
        if file.path = path then { file with size := size, mtimeMs := mtimeMs } else file }
  | .clockAdvances ms => { world with now := world.now + ms }
  | .volumeChanges volume => { world with volume := volume }

/-- A restart of the process keeps the database and the disk. -/
def restart (world : World) : World :=
  { world with watermarks := [], lastHealthStatus := .healthy, protectedOverflow := false }

/-- The recording engine's calls, its environment and its restarts. -/
def machine : Machine Call Reply World Outcome EnvironmentChange where
  answer := answer
  synchronous := synchronous
  calm := .ok
  react := react
  restart := restart

/-- A program of the recording engine. -/
abbrev Async (α : Type) : Type := Program Call Reply Failure α

/-- Await one call. -/
abbrev call (request : Call) : Async (Reply request) := Program.request request

/-! ### A small world -/

/-- An AVAILABLE segment of ten seconds. -/
def yardSegment : Recording where
  id := 0
  cameraId := "cam"
  mediaMtxPath := "yard"
  filePath := ["rec", "yard", "a.mp4"]
  fileName := "a.mp4"
  startTime := 0
  endTime := 10000
  durationMs := 10000
  sizeBytes := 100

/-- One AVAILABLE segment and its file. -/
def yardWorld : World where
  recordings := { rows := [yardSegment], nextId := 1 }
  files := [{ path := yardSegment.filePath, size := 100, mtimeMs := 0 }]

/-- One segment for each number, each later than the one before. -/
def numberedSegment (number : ℕ) : Recording where
  id := number
  cameraId := "cam"
  mediaMtxPath := "yard"
  filePath := ["rec", "yard", String.ofList (List.replicate number 'a')]
  fileName := String.ofList (List.replicate number 'a')
  startTime := number
  endTime := number + 1
  durationMs := 1
  sizeBytes := 100

theorem numberedSegment_filePath_inj {first second : ℕ}
    (hpath : (numberedSegment first).filePath = (numberedSegment second).filePath) :
    first = second := by
  have hname : String.ofList (List.replicate first 'a') =
      String.ofList (List.replicate second 'a') := by
    simpa [numberedSegment] using hpath
  simpa using congrArg (fun name ↦ name.toList.length) hname

end VmsLite.Recordings
