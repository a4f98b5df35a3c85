import Mathlib.Data.List.Basic
import Mathlib.Data.Int.Order.Basic

/-!
# Data of the recording engine

The rows, files and readings the recording engine works on: `recording.types.ts`, the columns of
`schema.prisma` that its code reads or writes, and what the file system tells it. Instants and
durations are whole milliseconds. A row id is a number, drawn fresh for every row as a UUID is. A
path is the list of its components below `/`, so two paths are equal exactly when `path.resolve`
makes them the same string, and a path is inside a directory when the directory is a prefix of it.

Left out are the columns that nothing modelled here reads: codec, resolution, checksum and storage
provider of a recording, the user and format of an export, the title of a bookmark.
-/

set_option autoImplicit false

namespace VmsLite.Recordings

/-! ### Rows -/

abbrev CameraId := String

abbrev RecordingId := ℕ

/-- An absolute path in normal form, as the list of its components. -/
abbrev Path := List String

/-- A path for an error message or a report. -/
def renderPath (path : Path) : String := path.foldl (fun text name ↦ text ++ "/" ++ name) ""

inductive SegmentStatus
  | discovered | validating | available | buffered | quarantined | deletePending | garbage | missing
  | expired | deleted
  deriving DecidableEq, Repr

def SegmentStatus.name : SegmentStatus → String
  | .discovered => "DISCOVERED"
  | .validating => "VALIDATING"
  | .available => "AVAILABLE"
  | .buffered => "BUFFERED"
  | .quarantined => "QUARANTINED"
  | .deletePending => "DELETE_PENDING"
  | .garbage => "GARBAGE"
  | .missing => "MISSING"
  | .expired => "EXPIRED"
  | .deleted => "DELETED"

/-- `protectedTier` is the source's `PROTECTED`. -/
inductive RetentionTier
  | continuous | event | incident | protectedTier
  deriving DecidableEq, Repr

inductive RecordingMode
  | continuous | motionOnly | scheduled | manualOff
  deriving DecidableEq, Repr

/-- What `createRecording` is given. -/
structure NewRecording where
  cameraId : CameraId
  mediaMtxPath : String
  filePath : Path
  fileName : String
  startTime : ℤ
  endTime : ℤ
  durationMs : ℤ
  sizeBytes : ℕ
  format : String := "fmp4"
  status : SegmentStatus := .available
  retentionTier : RetentionTier := .continuous
  isProtected : Bool := false
  errorReason : Option String := none
  deriving DecidableEq, Repr

/-- A row of `recordings`. -/
structure Recording where
  id : RecordingId
  cameraId : CameraId
  mediaMtxPath : String
  filePath : Path
  fileName : String
  startTime : ℤ
  endTime : ℤ
  durationMs : ℤ
  sizeBytes : ℕ
  format : String := "fmp4"
  status : SegmentStatus := .available
  retentionTier : RetentionTier := .continuous
  isProtected : Bool := false
  errorReason : Option String := none
  deriving DecidableEq, Repr

/-- The row the database makes of new data. -/
def NewRecording.toRecording (data : NewRecording) (id : RecordingId) : Recording where
  id := id
  cameraId := data.cameraId
  mediaMtxPath := data.mediaMtxPath
  filePath := data.filePath
  fileName := data.fileName
  startTime := data.startTime
  endTime := data.endTime
  durationMs := data.durationMs
  sizeBytes := data.sizeBytes
  format := data.format
  status := data.status
  retentionTier := data.retentionTier
  isProtected := data.isProtected
  errorReason := data.errorReason

/-- A camera row, with the columns Segment Ingest and the audit read. -/
structure Camera where
  id : CameraId
  name : String
  mediaMtxPath : String
  subMediaMtxPath : Option String := none
  recordingMode : RecordingMode := .continuous
  deriving DecidableEq, Repr

structure Bookmark where
  cameraId : CameraId
  timestamp : ℤ
  deriving DecidableEq, Repr

inductive ExportStatus
  | queued | running | completed | failed | cancelled | expired
  deriving DecidableEq, Repr

structure ExportJob where
  id : ℕ
  cameraId : CameraId
  startTime : ℤ
  endTime : ℤ
  status : ExportStatus
  deriving DecidableEq, Repr

/-- A persisted `motion.detected` event. `createdAt` is when the appliance received it. -/
structure MotionEvent where
  cameraId : CameraId
  createdAt : ℤ
  deriving DecidableEq, Repr

/-- Footage of one camera from `start` to `stop`. -/
structure Window where
  cameraId : CameraId
  start : ℤ
  stop : ℤ
  deriving DecidableEq, Repr

/-! ### The recordings volume -/

/-- A file on the recordings volume, with what `stat` and a read of its first bytes tell. -/
structure DiskFile where
  path : Path
  size : ℕ
  mtimeMs : ℤ
  header : List UInt8 := []
  deriving DecidableEq, Repr

/-- The answer of `statfs`. -/
structure DiskStats where
  bsize : ℕ
  blocks : ℕ
  bfree : ℕ
  deriving DecidableEq, Repr

/-- The directories `statfs` answers for, and the latency of the write canary (`none` when the
write fails). -/
structure Volume where
  statfs : List (Path × DiskStats) := []
  canaryLatencyMs : Option ℕ := some 0
  deriving DecidableEq, Repr

inductive StorageHealthStatus
  | healthy | warning | critical | writeDegraded | writeFailed | mountMissing
  deriving DecidableEq, Repr

/-! ### Errors and events -/

/-- The error codes the code compares with or the database reports. -/
inductive ErrorCode
  | enoent | eacces | eperm | erofs | ebusy | eio | p2002 | p2003 | p2025 | other
  deriving DecidableEq, Repr

/-- A thrown error: its `code` and its `message`. -/
structure Failure where
  code : ErrorCode
  message : String
  deriving DecidableEq, Repr

/-- Events the recording engine emits, with the metadata it puts in them. -/
inductive BusEvent
  | segmentCreated (recording : Recording)
  | storageHealthChanged (previousStatus status : StorageHealthStatus) (usedPercent : ℕ)
      (canaryLatencyMs : Option ℕ) (protectedPercent : ℕ)
  | protectedOverflow (protectedBytes protectedPercent maxProtectedThresholdPercent : ℕ)
  | protectedRecovered (protectedBytes protectedPercent maxProtectedThresholdPercent : ℕ)
  | storageWarning (usedPercent warningThreshold criticalThreshold : ℕ)
  | storageCritical (usedPercent criticalThreshold targetThreshold : ℕ)
  | exhaustionRisk (usedPercent targetThreshold protectedBytes : ℕ)
  | rollover (deletedCount freedBytes usedPercentBefore usedPercentAfter targetThreshold : ℕ)
  | invariantsAudited (totalCatalogued violationsCount : ℕ)
  | cameraDeleted (cameraId : CameraId) (mediaMtxPath : String)
  deriving DecidableEq, Repr

end VmsLite.Recordings
