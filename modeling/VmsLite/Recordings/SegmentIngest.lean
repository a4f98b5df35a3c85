import VmsLite.Recordings.SegmentFile

/-!
# Segment ingest

`SegmentIngest`: the scan that catalogues every finished file of every camera, the notification that
keeps footage near motion, and the expiry of the motion buffer. The deletions of the expiry are the
catalog's. The watermarks are memory of the process. A camera's media path is one directory under
the recordings root, and every name that passes `SEGMENT_FILE` is sorted as a string.
-/

set_option autoImplicit false

namespace VmsLite.Recordings

open VmsLite.Async Program

/-- How many buffered segments one expiry reads. -/
def maxBufferedScan : ℕ := 5000

structure SegmentIngest where
  recordingsRoot : Path
  quietPeriodMs : ℤ := 15000
  preBufferSeconds : ℤ := 10
  postBufferSeconds : ℤ := 30
  /-- How late a motion event may arrive and still keep a motion-buffer segment. -/
  lateMotionGraceSeconds : ℤ := 30

namespace SegmentIngest

variable (ingest : SegmentIngest)

def setMotionWindow (preBufferSeconds postBufferSeconds : ℤ) : SegmentIngest :=
  { ingest with
    preBufferSeconds := max 2 (min 60 preBufferSeconds)
    postBufferSeconds := max 5 (min 300 postBufferSeconds) }

def emitSegmentCreated (recording : Recording) (camera : Option Camera) : Async Unit := do
  match camera with
  | some _ => call (.emitEvent (.segmentCreated recording))
  | none => do
    let _ ← orThrow (← call (.getCameraById recording.cameraId))
    call (.emitEvent (.segmentCreated recording))

/-! ### Motion -/

/-- Keeps one buffered segment near motion. -/
def keepSegment (segment : Recording) : Async Unit := do
  let _ ← updateRecordingTier segment.id .event
  match ← updateRecordingStatus segment.id .available with
  | some kept => emitSegmentCreated kept none
  | none => pure ()

/-- Marks footage near a motion event as EVENT tier, and keeps every buffered segment near it.
Returns how many buffered segments were kept. -/
def onMotion (cameraId : CameraId) (motionAt : ℤ) : Async ℕ := do
  let start := motionAt - ingest.preBufferSeconds * 1000
  let stop := motionAt + ingest.postBufferSeconds * 1000
  let buffered ← orThrow (← call (.findRecordingsInRange cameraId start stop .buffered))
  let () ← buffered.foldlM (fun _ segment ↦ keepSegment segment) ()
  let available ← orThrow (← call (.findRecordingsInRange cameraId start stop .available))
  let () ← available.foldlM
    (fun _ segment ↦ do
      if segment.retentionTier = .continuous then do
        let _ ← updateRecordingTier segment.id .event
        pure ()
      else pure ()) ()
  pure buffered.length

/-- Whether a motion event falls within `[start - post-buffer, end + pre-buffer]`. -/
def isNearMotion (cameraId : CameraId) (start stop : ℤ) : Async Bool := do
  let motion ← orThrow (← call (.findMotionTimes cameraId
    (start - ingest.postBufferSeconds * 1000) (stop + ingest.preBufferSeconds * 1000)))
  pure (0 < motion.length)

/-! ### Cataloguing -/

/-- The row of a file that failed validation. -/
def quarantinedRow (camera : Camera) (filePath : Path) (start durationMs : ℤ)
    (failure : SegmentValidationFailure) (sizeBytes : ℕ) : NewRecording where
  cameraId := camera.id
  mediaMtxPath := camera.mediaMtxPath
  filePath := filePath
  fileName := filePath.getLastD ""
  startTime := start
  endTime := start + durationMs
  durationMs := durationMs
  sizeBytes := sizeBytes
  status := .quarantined
  errorReason := some (failure.reason.name ++
    if failure.error = "" then "" else ": " ++ failure.error)

/-- The row of a valid file. -/
def validRow (camera : Camera) (filePath : Path) (mode : RecordingMode) (nearMotion : Bool)
    (validation : SegmentValidationSuccess) : NewRecording where
  cameraId := camera.id
  mediaMtxPath := camera.mediaMtxPath
  filePath := filePath
  fileName := filePath.getLastD ""
  startTime := validation.startTime
  endTime := validation.endTime
  durationMs := validation.durationMs
  sizeBytes := validation.sizeBytes
  status := if mode = .motionOnly && !nearMotion then .buffered else .available
  retentionTier := if nearMotion then .event else .continuous

/-- Writes the one catalog row for a finished file. Returns `none` when the file is gone. -/
def catalogueFile (camera : Camera) (filePath : Path) (start durationMs : ℤ)
    (mode : RecordingMode) : Async (Option Recording) := do
  match ← orThrow (← call (.findRecordingByFilePath filePath)) with
  | some existing => pure (some existing)
  | none =>
    match ← validate ingest.recordingsRoot
      { filePath, durationMs := some durationMs, payloadStartTime := some start
        quietPeriodMs := some 0 } with
    | .error failure =>
      if failure.reason = .fileNotFound ∨ failure.reason = .outsideRoot then pure none
      else do
        let sizeBytes := match ← call (.stat filePath) with
          | .ok stat => stat.size
          | .error _ => 0
        let recording ← orThrow (← call (.createRecording
          (quarantinedRow camera filePath start durationMs failure sizeBytes)))
        pure (some recording)
    | .ok validation => do
      let nearMotion ← ingest.isNearMotion camera.id validation.startTime validation.endTime
      let data := validRow camera filePath mode nearMotion validation
      let recording ← orThrow (← call (.createRecording data))
      if data.status = .available then do
        let () ← emitSegmentCreated recording (some camera)
        pure (some recording)
      else pure (some recording)

/-! ### Scanning -/

/-- The directory MediaMTX writes a camera's segments to. -/
def cameraDir (camera : Camera) : Path := ingest.recordingsRoot ++ [camera.mediaMtxPath]

/-- `names.sort()`. -/
def sortNames (names : List String) : List String :=
  names.insertionSort fun first second ↦ first ≤ second

/-- Whether a start time was handled before: nothing was, under the watermark `-Infinity`. -/
def isHandled (watermark : Option ℤ) (start : ℤ) : Bool :=
  match watermark with
  | some handled => start ≤ handled
  | none => false

/-- Whether a file may still be written: the newest one, until it has been quiet long enough. -/
def isInFlight (newer : List String) (stat : DiskFile) : Async Bool :=
  if newer.isEmpty then do
    let now ← call .clockNow
    pure (now - stat.mtimeMs < ingest.quietPeriodMs)
  else pure false

/-- The camera's recording mode, asked for once in a scan. -/
def recordingMode (camera : Camera) : Option RecordingMode → Async RecordingMode
  | some mode => pure mode
  | none => do orThrow (← call (.getCameraSchedule camera.id))

/-- The loop over the names of a directory. -/
def scanNames (camera : Camera) (watermark : Option ℤ) :
    List String → Option RecordingMode → ℕ → Async ℕ
  | [], _, catalogued => pure catalogued
  | name :: newer, mode, catalogued =>
    match parseSegmentFileTime name with
    | none => scanNames camera watermark newer mode catalogued
    | some start =>
      if isHandled watermark start then scanNames camera watermark newer mode catalogued
      else do
        let filePath := ingest.cameraDir camera ++ [name]
        match ← call (.stat filePath) with
        | .error _ => scanNames camera watermark newer mode catalogued
        | .ok stat =>
          if ← ingest.isInFlight newer stat then pure catalogued
          else do
            let mode ← recordingMode camera mode
            let durationMs := max 100 (stat.mtimeMs - start)
            let row ← ingest.catalogueFile camera filePath start durationMs mode
            let () ← call (.setWatermark camera.id (some start))
            scanNames camera watermark newer (some mode)
              (if row.isSome then catalogued + 1 else catalogued)

/-- The watermark of a camera, read from the catalogue when the process has none. -/
def resumePoint (camera : Camera) : Async (Option ℤ) := do
  match ← call (.getWatermark camera.id) with
  | some watermark => pure watermark
  | none => do
    let latest ← orThrow (← call (.findLatestStartTime camera.id))
    let () ← call (.setWatermark camera.id latest)
    pure latest

def scanCamera (camera : Camera) : Async ℕ := do
  match ← call (.readdir (ingest.cameraDir camera)) with
  | .error err => if err.code = .enoent then pure 0 else failed err
  | .ok entries => do
    let names := sortNames (entries.filter isSegmentFile)
    let watermark ← resumePoint camera
    ingest.scanNames camera watermark names none 0

/-- Deletes one buffered segment that no motion can still keep. -/
def expireSegment (cutoff : ℤ) (segment : Recording) : Async Unit :=
  if cutoff ≤ segment.endTime then pure ()
  else
    catching
      (do
        let _ ← deleteSegmentInternal ingest.recordingsRoot segment.id segment.filePath
          segment.sizeBytes
        pure ())
      fun _ ↦ pure ()

/-- The instant before which a buffered segment must have ended to expire at `now`. -/
def expiryCutoff (now : ℤ) : ℤ :=
  now - (ingest.preBufferSeconds + ingest.lateMotionGraceSeconds) * 1000

/-- Deletes motion-buffer segments that no motion event can still keep. -/
def expireBufferedSegments : Async Unit := do
  let now ← call .clockNow
  let buffered ← findRecordingsByStatus .buffered maxBufferedScan
  buffered.foldlM (fun _ segment ↦ ingest.expireSegment (ingest.expiryCutoff now) segment) ()

/-- Catalogues every finished segment on disk, then expires stale motion-buffer segments. -/
def scan : Async ℕ := do
  let cameras ← orThrow (← call .listAllCameras)
  let catalogued ← cameras.foldlM
    (fun catalogued camera ↦
      catching
        (do
          let count ← ingest.scanCamera camera
          pure (catalogued + count))
        fun _ ↦ pure catalogued) 0
  let () ← ingest.expireBufferedSegments
  pure catalogued

end SegmentIngest

end VmsLite.Recordings
