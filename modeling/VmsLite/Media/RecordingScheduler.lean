import VmsLite.Media.CameraMediaPaths

/-!
# The recording scheduler

Which cameras record when. A tick evaluates every camera: it reads the camera's schedule, reconciles
its media paths with what the schedule says, and emits `recording.started` or `recording.stopped`
when that is not what it remembers. A change of a schedule evaluates its camera at once.
-/

set_option autoImplicit false

namespace VmsLite.Media

open VmsLite.Async VmsLite.Schedule Program
open Recordings (CameraId RecordingMode)

def getCameraSchedule (cameraId : CameraId) : Async CameraScheduleConfig := do
  let mode ← orThrow (← call (.findRecordingMode cameraId))
  let windows ← orThrow (← call (.findScheduleWindows cameraId))
  pure { mode := mode.getD .continuous, windows }

def saveCameraSchedule (cameraId : CameraId) (schedule : CameraScheduleConfig) : Async Unit := do
  match ← orThrow (← call (.findCamera cameraId)) with
  | none => failed { message := "Camera with id " ++ cameraId ++ " not found" }
  | some _ => orThrow (← call (.replaceSchedule cameraId schedule))

/-- The event of an evaluation that changes what a camera does. -/
def recordingEvent (camera : CameraRecordSummary) (schedule : CameraScheduleConfig)
    (shouldRecord : Bool) (date : LocalTime) : RecordingEvent where
  started := shouldRecord
  cameraId := camera.id
  mediaMtxPath := camera.mediaMtxPath
  cameraName := camera.name
  mode := schedule.mode
  timestamp := date

/-- Remembers and announces a change of what a camera does. -/
def noteRecording (camera : CameraRecordSummary) (schedule : CameraScheduleConfig)
    (previous : Option Bool) (shouldRecord : Bool) (date : LocalTime) : Async Unit :=
  if previous ≠ some shouldRecord then do
    call (.setRecordingState camera.id shouldRecord)
    call (.emitEvent (recordingEvent camera schedule shouldRecord date))
  else pure ()

/-- Reconciles a camera's paths; whether that failed. -/
def reconcileCaught (camera : CameraRecordSummary) (record recordChanged : Bool) : Async Bool :=
  ((reconcile camera.toCameraPaths record recordChanged).bind fun _ ↦ pure false).catching
    fun _ ↦ pure true

/-- Evaluates a camera and reconciles the media server with the desired state. -/
def evaluateCamera (camera : CameraRecordSummary) (date : LocalTime) : Async Bool := do
  let schedule ← getCameraSchedule camera.id
  let shouldRecord := shouldRecordToDisk schedule date
  let previous ← call (.getRecordingState camera.id)
  -- A failure leaves the state unchanged, so that the next tick retries
  if ← reconcileCaught camera shouldRecord (previous ≠ some shouldRecord) then
    pure (previous.getD false)
  else do
    noteRecording camera schedule previous shouldRecord date
    pure shouldRecord

/-- The camera of an id, or one made up for it. -/
def cameraOrStub (cameras : List CameraRecordSummary) (cameraId : CameraId) : CameraRecordSummary :=
  (cameras.find? fun camera ↦ camera.id = cameraId).getD
    { id := cameraId
      name := "cam_" ++ cameraId
      mediaMtxPath := "cam_" ++ cameraId
      rtspUrl := none
      subMediaMtxPath := none
      subStreamUrl := none }

def evaluateCameraById (cameraId : CameraId) (date : LocalTime) : Async Bool := do
  let cameras ← orThrow (← call .listAllCameras)
  evaluateCamera (cameraOrStub cameras cameraId) date

/-- One camera of a tick; errors are caught. -/
def evaluateCaught (date : LocalTime) (camera : CameraRecordSummary) : Async Unit :=
  ignoringErrors ((evaluateCamera camera date).bind fun _ ↦ pure ())

/-- Evaluates all cameras, and sweeps the paths that none of them owns. -/
def evaluateAllCameras (date : LocalTime) : Async Unit := do
  let cameras ← orThrow (← call .listAllCameras)
  cameras.foldlM (fun _ camera ↦ evaluateCaught date camera) ()
  ignoringErrors
    ((sweepOrphans (cameras.map CameraRecordSummary.toCameraPaths)).bind fun _ ↦ pure ())

/-- Sets the schedule of a camera, and evaluates it immediately. -/
def setCameraSchedule (cameraId : CameraId) (schedule : CameraScheduleConfig) :
    Async CameraScheduleConfig := do
  saveCameraSchedule cameraId schedule
  let date ← call .clockNow
  let _ ← evaluateCameraById cameraId date
  getCameraSchedule cameraId

end VmsLite.Media
