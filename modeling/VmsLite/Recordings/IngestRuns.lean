import VmsLite.Async.Interference
import VmsLite.Recordings.SegmentIngest

/-!
# Runs of the ingest

One camera, and everything that happens while Segment Ingest catalogues it: scans one after another,
segments that MediaMTX begins and writes, files and rows that are removed, failures of any call, and
restarts. Between any two calls of a scan anything may happen. `ExactlyOnce` asks that no file is
ever catalogued twice, that the newest file is catalogued only once it is quiet, and that a scan
without failures catalogues whatever is finished. "Finished" is what the scan means by it: a newer
segment is in the directory, or the file has been quiet for the quiet period.

A `Scene` is the world with what an onlooker remembers: the newest segment that has appeared, the
files that were ever catalogued, and, of the scan in flight, the file it looked at last and the
files that it could not `stat` although they were there. No program reads it. `Careful` are the
happenings under which the ingest keeps its promise.
-/

set_option autoImplicit false

namespace VmsLite.Recordings

open VmsLite.Async Program

/-! ### The scene -/

/-- The start time of a segment, by its name. -/
def startOf (name : String) : ℤ := (parseSegmentFileTime name).getD 0

/-- The file that `stat` finds at a path. -/
def World.fileAt (world : World) (path : Path) : Option DiskFile :=
  world.files.find? fun file ↦ file.path = path

/-- The world, and what an onlooker remembers of one camera. -/
structure Scene where
  world : World
  /-- The segment that appeared last. -/
  newest : Option String := none
  /-- The files that have a row or had one. -/
  catalogued : List Path := []
  /-- The files on the disk that were not found by `stat` since the directory was read. -/
  missed : List Path := []
  /-- The file that `stat` was asked for last and that has not been dealt with yet. -/
  examined : Option Path := none

namespace Scene

variable (scene : Scene)

def HasRow (path : Path) : Prop := ∃ row ∈ scene.world.recordings.rows, row.filePath = path

/-- What the onlooker notes of a call and its reply. -/
def note : (call : Call) → Reply call → Scene
  | .readdir _, _ => { scene with missed := [], examined := none }
  | .stat path, .ok _ => { scene with examined := some path }
  | .stat path, .error _ =>
    { scene with
      missed := if scene.world.onDisk path then path :: scene.missed else scene.missed
      examined := some path }
  | .createRecording _, .ok recording =>
    { scene with catalogued := recording.filePath :: scene.catalogued, examined := none }
  | .createRecording _, .error _ | .setWatermark .., _ | .findRecordingsByStatus .., _ =>
    { scene with examined := none }
  | _, _ => scene

/-- A restart ends the scan in flight. -/
def restart : Scene :=
  { scene with world := Recordings.restart scene.world, missed := [], examined := none }

end Scene

/-- A call in a scene. -/
def answerNoted (call : Call) (outcome : Outcome) (scene : Scene) : Reply call × Scene :=
  let answered := answer call outcome scene.world
  (answered.1, { scene with world := answered.2 }.note call answered.1)

/-- What happens around a scan. -/
inductive IngestEvent
  | segmentAppears (name : String) (size : ℕ) (mtimeMs : ℤ) (header : List UInt8)
  | segmentWritten (name : String) (size : ℕ) (mtimeMs : ℤ) (header : List UInt8)
  | fileRemoved (path : Path)
  | rowRemoved (id : RecordingId)
  | rowUpdated (id : RecordingId) (patch : RowPatch)
  | around (change : EnvironmentChange)

/-- A call with its outcome, or what happens around the scan. -/
inductive Happening
  | called (call : Call) (outcome : Outcome)
  | occurred (event : IngestEvent)

/-- The ingest of one camera. -/
structure CameraIngest where
  ingest : SegmentIngest
  camera : Camera

namespace CameraIngest

variable (cataloguer : CameraIngest)

/-- The file of a segment. -/
def path (name : String) : Path := cataloguer.ingest.cameraDir cataloguer.camera ++ [name]

/-- The scene after something happened around the scan. -/
def react (event : IngestEvent) (scene : Scene) : Scene :=
  match event with
  | .segmentAppears name size mtimeMs header =>
    { scene with
      world := Recordings.react
        (.fileAppears { path := cataloguer.path name, size, mtimeMs, header }) scene.world
      newest := some name }
  | .segmentWritten name size mtimeMs header =>
    { scene with
      world := { scene.world with
        files := scene.world.files.map fun file ↦
          if file.path = cataloguer.path name then { file with size, mtimeMs, header }
          else file } }
  | .fileRemoved path => { scene with world := scene.world.removeFile path }
  | .rowRemoved id => { scene with world := scene.world.removeRows fun row ↦ row.id = id }
  | .rowUpdated id patch => { scene with world := scene.world.updateRow id patch }
  | .around change => { scene with world := Recordings.react change scene.world }

def machine : Machine Call Reply Scene Outcome IngestEvent where
  answer := answerNoted
  synchronous := synchronous
  calm := .ok
  react := cataloguer.react
  restart := Scene.restart

/-! ### What may happen -/

/-- A row is deleted only after its file is gone. -/
def FileGone (id : RecordingId) (scene : Scene) : Prop :=
  ∀ row ∈ scene.world.recordings.rows, row.id = id → scene.world.onDisk row.filePath = false

/-- What may happen: segments appear in the order of their start times and only the newest is
written, no other file takes the place of a segment, and a row that is deleted has lost its file. -/
def Possible : Happening → Scene → Prop
  | .called (.deleteRecording id) outcome, scene => outcome.passes = true → FileGone id scene
  | .called _ _, _ => True
  | .occurred (.segmentAppears name _ _ _), scene => isSegmentFile name = true ∧
      ∀ last ∈ scene.newest, startOf last < startOf name
  | .occurred (.segmentWritten name _ _ _), scene => scene.newest = some name
  | .occurred (.fileRemoved _), _ => True
  | .occurred (.rowRemoved id), scene => FileGone id scene
  | .occurred (.rowUpdated _ _), _ => True
  | .occurred (.around (.fileAppears file)), _ =>
      ∀ name, isSegmentFile name = true → ¬ cataloguer.path name <+: file.path
  | .occurred (.around (.fileWritten path _ _)), _ =>
      ∀ name, isSegmentFile name = true → path ≠ cataloguer.path name
  | .occurred (.around _), _ => True

/-- The moves of scans and of what happens around them, with a condition on what happens. -/
def runs (condition : Happening → Scene → Prop) (state : Turn Call Reply Failure Scene) :
    TurnMove Call Reply Failure Outcome IngestEvent → Prop
  | .start program => state.current.isOver = true ∧
      program = cataloguer.ingest.scan.bind fun _ ↦ done ()
  | .advance outcome => ∀ call next, state.current = .await call next →
      cataloguer.Possible (.called call outcome) state.world ∧
        condition (.called call outcome) state.world
  | .crash => True
  | .environment event => cataloguer.Possible (.occurred event) state.world ∧
      condition (.occurred event) state.world

/-- Calls on behalf of the camera, and the list of the cameras. -/
def concerns : Call → Bool
  | .listAllCameras => true
  | .readdir dir => dir = cataloguer.ingest.cameraDir cataloguer.camera
  | .findLatestStartTime cameraId | .getCameraSchedule cameraId | .findMotionTimes cameraId _ _ =>
    cameraId = cataloguer.camera.id
  | .stat path | .readHeader path | .findRecordingByFilePath path =>
    cataloguer.ingest.cameraDir cataloguer.camera <+: path
  | .createRecording data => data.cameraId = cataloguer.camera.id
  | _ => false

/-- The moves of one scan that no failure of a call for the camera disturbs. -/
def failureFree (condition : Happening → Scene → Prop) (state : Turn Call Reply Failure Scene) :
    TurnMove Call Reply Failure Outcome IngestEvent → Prop
  | .start _ => False
  | .advance outcome => cataloguer.runs condition state (.advance outcome) ∧
      ∀ call next, state.current = .await call next → cataloguer.concerns call = true →
        outcome.passes = true
  | .crash => False
  | .environment event => cataloguer.runs condition state (.environment event)

/-! ### The promise -/

/-- A file has not been written for the quiet period. -/
def Quiet (name : String) (scene : Scene) : Prop :=
  ∀ file, scene.world.fileAt (cataloguer.path name) = some file →
    cataloguer.ingest.quietPeriodMs ≤ scene.world.now - file.mtimeMs

/-- A segment is on the disk and complete: a newer one is in the directory, or it is quiet. -/
def Finished (name : String) (scene : Scene) : Prop :=
  scene.world.onDisk (cataloguer.path name) = true ∧
    ((∃ newer, isSegmentFile newer = true ∧ startOf name < startOf newer ∧
      scene.world.onDisk (cataloguer.path newer) = true) ∨ cataloguer.Quiet name scene)

/-- The camera as it is set up: the schema keeps its id and its media path from other cameras, and
nothing has been recorded or catalogued yet. -/
structure Fresh (scene : Scene) : Prop where
  mem_cameras : cataloguer.camera ∈ scene.world.cameras
  id_unique : ∀ other ∈ scene.world.cameras, other.id = cataloguer.camera.id →
    other = cataloguer.camera
  path_unique : ∀ other ∈ scene.world.cameras,
    other.mediaMtxPath = cataloguer.camera.mediaMtxPath → other = cataloguer.camera
  no_segments : ∀ path ∈ scene.world.directories ++ scene.world.files.map DiskFile.path,
    ∀ name, isSegmentFile name = true → path ≠ cataloguer.path name
  no_rows : ∀ row ∈ scene.world.recordings.rows, row.cameraId ≠ cataloguer.camera.id ∧
    ∀ name, row.filePath ≠ cataloguer.path name
  no_watermark : scene.world.watermarks.lookup cataloguer.camera.id = none
  no_history : scene.newest = none ∧ scene.catalogued = [] ∧ scene.missed = [] ∧
    scene.examined = none

/-- No file of the camera is ever given two rows, the newest file is given one only when it is
quiet, and a scan without failures gives one to every file that is finished all through it. -/
structure ExactlyOnce (condition : Happening → Scene → Prop) (initial : Scene) : Prop where
  once : ∀ state, Reaches cataloguer.machine.turn (cataloguer.runs condition)
      { current := .done (), world := initial } state →
    ∀ moves, LegalRun cataloguer.machine.turn (cataloguer.runs condition) state moves →
      ∀ row ∈ state.world.world.recordings.rows,
        ∀ later ∈ (runMoves cataloguer.machine.turn state moves).world.world.recordings.rows,
          ∀ name, isSegmentFile name = true → row.filePath = cataloguer.path name →
            later.filePath = cataloguer.path name → later.id = row.id
  quiet : ∀ state, Reaches cataloguer.machine.turn (cataloguer.runs condition)
      { current := .done (), world := initial } state →
    ∀ outcome, cataloguer.runs condition state (.advance outcome) →
      ∀ row ∈ (cataloguer.machine.turn state (.advance outcome)).world.world.recordings.rows,
        (∀ old ∈ state.world.world.recordings.rows, old.id ≠ row.id) →
          ∀ name ∈ state.world.newest, row.filePath = cataloguer.path name →
            cataloguer.Quiet name state.world
  complete : ∀ state, Reaches cataloguer.machine.turn (cataloguer.runs condition)
      { current := .done (), world := initial } state →
    state.current.isOver = true → ∀ moves,
      LegalRun cataloguer.machine.turn (cataloguer.failureFree condition)
          { state with current := cataloguer.ingest.scan.bind fun _ ↦ done () } moves →
        (runMoves cataloguer.machine.turn
          { state with current := cataloguer.ingest.scan.bind fun _ ↦ done () }
          moves).current.isOver = true →
        ∀ name, isSegmentFile name = true →
          EachState cataloguer.machine.turn (fun reached ↦ cataloguer.Finished name reached.world)
            { state with current := cataloguer.ingest.scan.bind fun _ ↦ done () } moves →
          (runMoves cataloguer.machine.turn
            { state with current := cataloguer.ingest.scan.bind fun _ ↦ done () }
            moves).world.HasRow (cataloguer.path name)

/-- The files that the scan could not `stat` have a row or are gone, apart from one. -/
def MissedSettled (scene : Scene) (except : Option Path) : Prop :=
  ∀ path ∈ scene.missed, some path ≠ except → scene.world.onDisk path = true → scene.HasRow path

/-- Nothing that makes the ingest lose a file: the scan handles no file after it has failed to
`stat` one that is still there, names sort as the segments appear, and a file is not written while
the scan is about to catalogue it. -/
def Careful : Happening → Scene → Prop
  | .called (.createRecording data) outcome, scene => outcome.passes = true →
      data.cameraId = cataloguer.camera.id → MissedSettled scene (some data.filePath)
  | .called (.setWatermark cameraId _) _, scene =>
      cameraId = cataloguer.camera.id → MissedSettled scene none
  | .called _ _, _ => True
  | .occurred (.segmentAppears name _ _ _), scene => ∀ last ∈ scene.newest, last < name
  | .occurred (.segmentWritten name _ _ _), scene =>
      scene.examined ≠ some (cataloguer.path name)
  | .occurred _, _ => True

end CameraIngest

end VmsLite.Recordings
