import Mathlib.Algebra.Order.Ring.Rat
import Mathlib.Data.List.Sort
import VmsLite.Async.RelyGuarantee

/-!
# Exports

`ExportService.createExportJob` and `executeExport`, and the runs of `ExportPruneService`. A job is
persisted before most of its steps, and its execution goes on after the request has been answered;
its code is one sequence of awaits either way. The ids that `randomUUID` draws are the places of a
list, so that an id is never drawn twice. Paths are relative to the directory of the exports, and
SHA-256 is a parameter. The text of the manifest, the command line of ffmpeg, but for the file that
it writes, and the numbers that a prune run reports are left out.

The write of a terminal status is taken to succeed when it is reached.
-/

set_option autoImplicit false

namespace VmsLite.Exports

open VmsLite.Async Program

/-! ### The service -/

abbrev CameraId := String

abbrev JobId := ℕ

/-- A file name under the directory of the exports, or the path of a segment. -/
abbrev Path := String

abbrev Content := List UInt8

inductive ExportMode
  | streamCopy | transcodedOsd
  deriving DecidableEq, Repr

inductive ExportStatus
  | queued | running | completed | failed | cancelled | expired
  deriving DecidableEq, Repr

/-- A status that a job keeps. -/
def ExportStatus.isTerminal : ExportStatus → Bool
  | .queued | .running => false
  | _ => true

structure ExportJobDto where
  id : JobId
  cameraId : CameraId
  userId : Option String
  startTime : ℕ
  endTime : ℕ
  exportMode : ExportMode
  status : ExportStatus
  filePath : Option Path
  fileSize : Option ℕ
  sha256 : Option String
  includeOsd : Bool
  errorCode : Option String
  errorMessage : Option String
  createdAt : ℕ
  startedAt : Option ℕ
  completedAt : Option ℕ
  expiresAt : ℕ
  deriving DecidableEq, Repr

/-- A segment; formats and codecs are ASCII names. -/
structure SegmentInfo where
  filePath : Path
  format : Option String
  codec : Option String
  resolution : Option String
  deriving DecidableEq, Repr

structure CreateExportRequest where
  cameraId : CameraId
  startTime : ℕ
  endTime : ℕ
  exportMode : Option ExportMode
  includeOsd : Bool
  userId : Option String
  customSegments : List SegmentInfo
  deriving DecidableEq, Repr

structure Failure where
  code : Option String
  message : String
  deriving DecidableEq, Repr

/-- The calls of the code of a job name the job. -/
inductive Call
  | now
  | randomUUID
  /-- The name that an execution gives its output file; no code reads it back. -/
  | nameOutput (id : JobId) (path : Path)
  | mkdir (temp : Bool)
  /-- The upsert of `persistJob`. -/
  | persist (job : ExportJobDto)
  | findSegments (id : JobId) (cameraId : CameraId) (startTime endTime : ℕ)
  | fileExists (id : JobId) (path : Path)
  | writeManifest (id : JobId) (paths : List Path)
  | getCamera (id : JobId) (cameraId : CameraId)
  | ffmpeg (id : JobId) (mode : ExportMode) (cameraName : String) (output : Path)
  | unlinkManifest (id : JobId)
  | computeSha256 (id : JobId) (path : Path)
  | stat (id : JobId) (path : Path)
  | getDiskUsage
  | listJobs
  | unlink (path : Path)
  | getJob (id : JobId)

def Reply : Call → Type
  | .now => ℕ
  | .randomUUID => JobId
  | .nameOutput .. => Unit
  | .findSegments .. => Except Failure (List SegmentInfo)
  | .fileExists .. => Except Failure Bool
  | .getCamera .. => Except Failure (Option String)
  | .computeSha256 .. => Except Failure String
  | .stat .. => Except Failure ℕ
  | .getDiskUsage => ℚ
  | .listJobs => List ExportJobDto
  | .getJob _ => Option ExportJobDto
  | _ => Except Failure Unit

abbrev Async (α : Type) : Type := Program Call Reply Failure α

/-- Await one call. -/
abbrev call (request : Call) : Async (Reply request) := Program.request request

def persistJob (job : ExportJobDto) : Async Unit := do
  orThrow (← call (.persist job))

def init : Async Unit := do
  orThrow (← call (.mkdir false))
  orThrow (← call (.mkdir true))

/-! ### The stream-copy compatibility gate -/

structure ExportCompatibilityResult where
  compatible : Bool
  errorCode : Option String := none
  message : Option String := none
  deriving DecidableEq, Repr

def incompatible (message : String) : ExportCompatibilityResult where
  compatible := false
  errorCode := some "INCOMPATIBLE_SEGMENTS"
  message := some message

/-- The format of a segment, in lower case. -/
def SegmentInfo.containerFormat (segment : SegmentInfo) : String :=
  ((segment.format.filter (· ≠ "")).getD "fmp4").toLower

/-- The codec of a segment, in lower case, when there is one. -/
def SegmentInfo.videoCodec (segment : SegmentInfo) : Option String :=
  (segment.codec.map String.toLower).filter (· ≠ "")

def SegmentInfo.frameSize (segment : SegmentInfo) : Option String :=
  segment.resolution.filter (· ≠ "")

/-- The first of the other segments that a field tells from the first one. -/
def mismatch (field : SegmentInfo → Option String) (first : SegmentInfo) (rest : List SegmentInfo) :
    Option (String × String) :=
  (field first).bind fun expected ↦
    ((rest.filterMap field).find? (· ≠ expected)).map fun found ↦ (expected, found)

/-- The checks on the segments, once their files are known to be there. -/
def checkSegments : List SegmentInfo → ExportCompatibilityResult
  | [] =>
    { compatible := false
      errorCode := some "NO_RECORDINGS_FOUND"
      message := some "No recording segments provided for export validation" }
  | first :: rest =>
    match mismatch (fun segment ↦ some segment.containerFormat) first rest with
    | some (expected, found) =>
      incompatible s!"Incompatible container formats in recording stream: '{expected}' vs '{found}'"
    | none =>
      match mismatch SegmentInfo.videoCodec first rest with
      | some (expected, found) =>
        incompatible (s!"Incompatible video codecs across segments: '{expected}' vs '{found}'. " ++
          "Stream copy concat is disallowed.")
      | none =>
        match mismatch SegmentInfo.frameSize first rest with
        | some (expected, found) =>
          incompatible (s!"Incompatible video resolution switch across segments: '{expected}' " ++
            s!"to '{found}'. Stream copy concat is disallowed.")
        | none => { compatible := true }

/-- Checks that the files are there, one after the other, and then the rest. -/
def validateFrom (id : JobId) (segments : List SegmentInfo) :
    List SegmentInfo → Async ExportCompatibilityResult
  | [] => return checkSegments segments
  | segment :: rest => do
    let found : Bool ← orThrow (← call (.fileExists id segment.filePath))
    if found then validateFrom id segments rest
    else return incompatible s!"Recording segment file not found on disk: {segment.filePath}"

def validate (id : JobId) (segments : List SegmentInfo) : Async ExportCompatibilityResult :=
  validateFrom id segments segments

/-! ### Creation and execution -/

/-- An export keeps for 48 hours. -/
def timeToLiveMs : ℕ := 48 * 3600 * 1000

def CreateExportRequest.mode (req : CreateExportRequest) : ExportMode :=
  req.exportMode.getD (if req.includeOsd then .transcodedOsd else .streamCopy)

/-- The job of a request before any of its steps. -/
def CreateExportRequest.initialJob (req : CreateExportRequest) (jobId : JobId) (now : ℕ) :
    ExportJobDto where
  id := jobId
  cameraId := req.cameraId
  userId := req.userId.filter (· ≠ "")
  startTime := req.startTime
  endTime := req.endTime
  exportMode := req.mode
  status := .queued
  filePath := none
  fileSize := none
  sha256 := none
  includeOsd := req.mode = .transcodedOsd ∨ req.includeOsd
  errorCode := none
  errorMessage := none
  createdAt := now
  startedAt := none
  completedAt := none
  expiresAt := now + timeToLiveMs

/-- The name of an output file. -/
def outputFileName (cameraId : CameraId) (now : ℕ) : Path := s!"export_{cameraId}_{now}.mp4"

/-- A job whose output is there. -/
def ExportJobDto.finished (job : ExportJobDto) (output : Path) (sha256 : String) (size now : ℕ) :
    ExportJobDto :=
  { job with
    status := .completed
    filePath := some output
    fileSize := some size
    sha256 := some sha256
    completedAt := some now }

/-- The checksum of the output, its size and the last write. -/
def finishExport (job : ExportJobDto) (output : Path) : Async Unit := do
  let sha256 : String ← orThrow (← call (.computeSha256 job.id output))
  let size : ℕ ← orThrow (← call (.stat job.id output))
  let now : ℕ ← call .now
  persistJob (job.finished output sha256 size now)

/-- Runs ffmpeg and takes down what it made. -/
def transcode (job : ExportJobDto) (cameraName : String) (output : Path) : Async Unit := do
  orThrow (← call (.ffmpeg job.id job.exportMode cameraName output))
  let _ ← call (.unlinkManifest job.id)
  finishExport job output

def encode (job : ExportJobDto) (segments : List SegmentInfo) (output : Path) : Async Unit := do
  orThrow (← call (.writeManifest job.id (segments.map SegmentInfo.filePath)))
  if job.exportMode = .transcodedOsd then
    let camera : Option String ← orThrow (← call (.getCamera job.id job.cameraId))
    transcode job (camera.getD "Camera") output
  else transcode job "Camera" output

/-- A job whose execution failed. -/
def ExportJobDto.broken (job : ExportJobDto) (failure : Failure) : ExportJobDto :=
  { job with
    status := .failed
    errorCode := some "FFMPEG_ERROR"
    errorMessage :=
      some (if failure.message = "" then "Unknown FFmpeg processing error" else failure.message) }

/-- A job that runs. -/
def ExportJobDto.started (job : ExportJobDto) (now : ℕ) : ExportJobDto :=
  { job with
    status := .running
    startedAt := some now }

/-- Runs a job that has been persisted as running. -/
def runExport (currentJob : ExportJobDto) (segments : List SegmentInfo) : Async Unit := do
  let now : ℕ ← call .now
  let output := outputFileName currentJob.cameraId now
  call (.nameOutput currentJob.id output)
  (encode currentJob segments output).catching fun failure ↦ persistJob (currentJob.broken failure)

def executeExport (job : ExportJobDto) (segments : List SegmentInfo) : Async Unit := do
  let startedAt : ℕ ← call .now
  persistJob (job.started startedAt)
  runExport (job.started startedAt) segments

/-- A job that is refused before its execution. -/
def ExportJobDto.refused (job : ExportJobDto) (code message : String) : ExportJobDto :=
  { job with
    status := .failed
    errorCode := some code
    errorMessage := some message }

/-- Persists the refusal of a job and throws it. -/
def refuse (job : ExportJobDto) (code message : String) : Async Unit := do
  persistJob (job.refused code message)
  orThrow (.error { code := some code, message := message })

/-- Executes a job that passes the compatibility gate. -/
def judge (job : ExportJobDto) (segments : List SegmentInfo)
    (validation : ExportCompatibilityResult) :
    Async Unit :=
  if validation.compatible then executeExport job segments
  else
    refuse job ((validation.errorCode.filter (· ≠ "")).getD "INCOMPATIBLE_SEGMENTS")
      ((validation.message.filter (· ≠ "")).getD
        "Segments are incompatible for zero-transcode stream copy.")

def noRecordings : String := "No recordings found for the requested time range."

/-- Goes on with the segments of a job. -/
def admitJob (job : ExportJobDto) (segments : List SegmentInfo) : Async Unit := do
  if segments = [] then refuse job "NO_RECORDINGS_FOUND" noRecordings
  else if job.exportMode = .streamCopy then judge job segments (← validate job.id segments)
  else executeExport job segments

def findSegments (job : ExportJobDto) : Async (List SegmentInfo) := do
  orThrow (← call (.findSegments job.id job.cameraId job.startTime job.endTime))

/-- Gathers the segments of a job, those of the request or those of the recordings, and goes on. -/
def gather (req : CreateExportRequest) (job : ExportJobDto) : Async Unit := do
  if req.customSegments = [] then admitJob job (← findSegments job)
  else admitJob job req.customSegments

/-- Creates a job in the directories, which are there. -/
def createIn (req : CreateExportRequest) : Async Unit := do
  let jobId : JobId ← call .randomUUID
  let now : ℕ ← call .now
  persistJob (req.initialJob jobId now)
  gather req (req.initialJob jobId now)

/-- The code of a job, whether its execution is awaited or goes on in the background. -/
def createExportJob (req : CreateExportRequest) : Async Unit := do
  init
  createIn req

/-! ### Pruning -/

def markExpired : Option ExportJobDto → Async Unit
  | some job => persistJob { job with status := .expired }
  | none => return

def updateJobStatus (id : JobId) : Async Unit := do
  markExpired (← call (.getJob id))

/-- Unlinks a file, which may be gone already. -/
def unlinkFile : Option Path → Async Unit
  | some path => do
    let _ ← call (.unlink path)
    return
  | none => return

/-- Unlinks the files of jobs and marks these expired, one after the other. -/
def pruneJobs : List ExportJobDto → Async Unit
  | [] => return
  | job :: rest => do
    unlinkFile (job.filePath.filter (· ≠ ""))
    updateJobStatus job.id
    pruneJobs rest

def ExportJobDto.isExpired (job : ExportJobDto) (now : ℕ) : Bool :=
  job.status = .completed ∧ job.expiresAt ≤ now

/-- Prunes the exports whose time to live is over. -/
def pruneExpiredExports (now : ℕ) : Async Unit := do
  let allJobs : List ExportJobDto ← call .listJobs
  pruneJobs (allJobs.filter fun job ↦ job.isExpired now)

/-- The completed exports that have not expired, the oldest first. -/
def unexpired (allJobs : List ExportJobDto) (now : ℕ) : List ExportJobDto :=
  (allJobs.filter fun job ↦ job.status = .completed ∧ now < job.expiresAt).insertionSort
    fun first second ↦ first.createdAt ≤ second.createdAt

def emergencyPrune : Async Unit := do
  let allJobs : List ExportJobDto ← call .listJobs
  let now : ℕ ← call .now
  pruneJobs (unexpired allJobs now)

def exportPruneThreshold : ℚ := 85 / 100

def emergencyThreshold : ℚ := 90 / 100

def enforceTiers (usageRatio : ℚ) : Async Unit := do
  if exportPruneThreshold ≤ usageRatio then
    let now : ℕ ← call .now
    pruneExpiredExports now
  if emergencyThreshold ≤ usageRatio then emergencyPrune

/-- Enforces the two tiers of the disk cleanup. -/
def enforceStorageHierarchy (simulatedUsageRatio : Option ℚ) : Async Unit := do
  match simulatedUsageRatio with
  | some usageRatio => enforceTiers usageRatio
  | none => enforceTiers (← call .getDiskUsage)

/-! ### The machine -/

structure World where
  /-- The table of export jobs: a place for every id that was drawn, with the job that was
  persisted. -/
  slots : List (Option ExportJobDto) := []
  /-- The output files. -/
  files : Path → Option Content := fun _ ↦ none
  /-- The names that executions gave their output files. -/
  outputs : JobId → Option Path := fun _ ↦ none
  now : ℕ := 0

namespace World

def job (world : World) (id : JobId) : Option ExportJobDto := world.slots[id]?.join

/-- What an update of a persisted job changes. -/
def updated (persisted job : ExportJobDto) : ExportJobDto :=
  { persisted with
    status := job.status
    filePath := job.filePath
    fileSize := job.fileSize
    sha256 := job.sha256
    errorCode := job.errorCode
    errorMessage := job.errorMessage
    startedAt := job.startedAt
    completedAt := job.completedAt
    expiresAt := job.expiresAt }

def upsert (world : World) (job : ExportJobDto) : World :=
  { world with
    slots := world.slots.set job.id (some (((world.job job.id).map (updated · job)).getD job)) }

/-- A record as the service hands it out: a size of zero is none. -/
def mapPrismaJob (job : ExportJobDto) : ExportJobDto :=
  { job with fileSize := job.fileSize.filter (· ≠ 0) }

/-- The jobs, the latest first. -/
def listJobs (world : World) : List ExportJobDto :=
  ((world.slots.filterMap id).map mapPrismaJob).insertionSort fun first second ↦
    second.createdAt ≤ first.createdAt

/-- The jobs whose time ranges the retention policy keeps. -/
def activeExports (world : World) : List ExportJobDto :=
  (world.slots.filterMap id).filter fun job ↦ job.status = .queued ∨ job.status = .running

end World

/-- How an awaited call ends: with a failure, or with what it finds. -/
structure Outcome where
  failure : Option Failure := none
  segments : List SegmentInfo := []
  found : Bool := true
  cameraName : Option String := none
  /-- What ffmpeg leaves at its output path, whether it fails or not. -/
  output : Option Content := none
  usageRatio : ℚ := 0

/-- The reply with a value that may be lost to a failure. -/
def Outcome.reply {α : Type} (outcome : Outcome) (value : α) : Except Failure α :=
  match outcome.failure with
  | some failure => .error failure
  | none => .ok value

def noSuchFile : Failure :=
  { code := some "ENOENT", message := "ENOENT: no such file or directory" }

/-- The reply to a read of a file. -/
def Outcome.ofFile {α : Type} (outcome : Outcome) (read : Content → α) (file : Option Content) :
    Except Failure α :=
  match file with
  | some content => outcome.reply (read content)
  | none => .error noSuchFile

/-- The reply to a write, which does not fail when its status is terminal. -/
def Outcome.persists (outcome : Outcome) (job : ExportJobDto) : Except Failure Unit :=
  if job.status.isTerminal then .ok () else outcome.reply ()

variable (sha256 : Content → String)

def answer : (call : Call) → Outcome → World → Reply call × World
  | .now, _, world => (world.now, world)
  | .randomUUID, _, world => (world.slots.length, { world with slots := world.slots ++ [none] })
  | .nameOutput id path, _, world =>
    ((), { world with outputs := Function.update world.outputs id (some path) })
  | .mkdir _, outcome, world => (outcome.reply (), world)
  | .persist job, outcome, world =>
    match outcome.persists job with
    | .ok () => (.ok (), world.upsert job)
    | .error failure => (.error failure, world)
  | .findSegments .., outcome, world => (outcome.reply outcome.segments, world)
  | .fileExists .., outcome, world => (outcome.reply outcome.found, world)
  | .writeManifest .., outcome, world => (outcome.reply (), world)
  | .getCamera .., outcome, world => (outcome.reply outcome.cameraName, world)
  | .ffmpeg _ _ _ output, outcome, world =>
    (outcome.reply (), { world with files := Function.update world.files output outcome.output })
  | .unlinkManifest _, outcome, world => (outcome.reply (), world)
  | .computeSha256 _ path, outcome, world => (outcome.ofFile sha256 (world.files path), world)
  | .stat _ path, outcome, world => (outcome.ofFile List.length (world.files path), world)
  | .getDiskUsage, outcome, world => (outcome.usageRatio, world)
  | .listJobs, _, world => (world.listJobs, world)
  | .unlink path, outcome, world =>
    match outcome.ofFile (fun _ ↦ ()) (world.files path) with
    | .ok () => (.ok (), { world with files := Function.update world.files path none })
    | .error failure => (.error failure, world)
  | .getJob id, _, world => ((world.job id).map World.mapPrismaJob, world)

/-- The calls that the service awaits. -/
def Call.isAwaited : Call → Bool
  | .now | .randomUUID | .nameOutput .. => false
  | _ => true

/-- What happens beside the calls. -/
inductive ExportEvent
  /-- An ffmpeg that runs writes to its output file. -/
  | encoded (output : Path) (content : Content)
  | tick (now : ℕ)
  deriving DecidableEq

def machine : Machine Call Reply World Outcome ExportEvent where
  answer := answer sha256
  synchronous := fun call ↦ !call.isAwaited
  calm := {}
  react := fun event world ↦
    match event with
    | .encoded output content =>
      { world with files := Function.update world.files output (some content) }
    | .tick now => { world with now := now }
  restart := id

end VmsLite.Exports
