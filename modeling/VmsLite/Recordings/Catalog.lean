import VmsLite.Recordings.World

/-!
# The recording catalog

`RecordingCatalog`: the two-phase deletion of one segment, and the sweep that finishes the
deletions a crash has left half done. A `try` around a single call is a match on its reply.
-/

set_option autoImplicit false

namespace VmsLite.Recordings

open VmsLite.Async Program

/-! ### Repository calls -/

def updateRecordingStatus (id : RecordingId) (status : SegmentStatus)
    (errorReason : Option String := none) : Async (Option Recording) :=
  call (.updateRecordingStatus id status errorReason)

def updateRecordingTier (id : RecordingId) (tier : RetentionTier) : Async (Option Recording) :=
  call (.updateRecordingTier id tier)

/-- `deleteRecording`, with its error as a value. -/
def tryDeleteRecording (id : RecordingId) : Async (Except Failure Unit) :=
  call (.deleteRecording id)

def deleteRecording (id : RecordingId) : Async Unit := do orThrow (← tryDeleteRecording id)

def findRecordingsByStatus (status : SegmentStatus) (limit : ℕ) : Async (List Recording) := do
  orThrow (← call (.findRecordingsByStatus status limit))

/-- `getOldestRecordings` of the catalog. -/
def getOldestRecordings (limit skip : ℕ) (statuses : Option (List SegmentStatus)) :
    Async (List Recording) := do
  orThrow (← call (.findOldestRecordings limit skip statuses))

/-- `fsUnlinkFn`, with its error as a value. -/
def fsUnlinkFn (path : Path) : Async (Except Failure Unit) := call (.unlink path)

/-- `fsAccessFn`, with its error as a value. -/
def fsAccessFn (path : Path) : Async (Except Failure Unit) := call (.access path)

/-! ### Deletion -/

/-- The states of a row that is on its way out. -/
def SegmentStatus.isDeleting : SegmentStatus → Bool
  | .deletePending | .garbage => true
  | _ => false

/-- `isWithinRoot` on resolved paths: the root itself, or a path below it. -/
def isWithinRoot (root candidate : Path) : Bool := root.isPrefixOf candidate

structure SegmentDeletionResult where
  success : Bool
  recordingId : RecordingId
  wasStale : Bool := false
  freedBytes : ℕ := 0
  error : Option String := none
  deriving DecidableEq, Repr

/-- Internal deletion primitive: mark the row, unlink the file, delete the row. -/
def deleteSegmentInternal (recordingsRoot : Path) (recordingId : RecordingId) (rawFilePath : Path)
    (reportedSize : ℕ) : Async SegmentDeletionResult :=
  if isWithinRoot recordingsRoot rawFilePath then do
    -- Phase 1; the reply, `none` when the update failed, is not looked at
    let _ ← updateRecordingStatus recordingId .deletePending
    match ← fsUnlinkFn rawFilePath with
    | .error err =>
      if err.code = .enoent then do
        deleteRecording recordingId
        pure { success := true, recordingId, wasStale := true, freedBytes := 0 }
      else do
        let reason := "Filesystem unlink error: " ++ err.message
        let _ ← updateRecordingStatus recordingId .garbage (some reason)
        pure { success := false, recordingId, error := some reason }
    | .ok () =>
      match ← tryDeleteRecording recordingId with
      | .error dbErr => do
        let _ ← updateRecordingStatus recordingId .garbage
          (some ("Database deletion failed: " ++ dbErr.message))
        pure
          { success := false
            recordingId
            error := some ("Database deletion failed after file unlink: " ++ dbErr.message) }
      | .ok () => pure { success := true, recordingId, freedBytes := reportedSize }
  else
    failed
      { code := .other
        message := "Directory traversal denied: path " ++ renderPath rawFilePath ++
          " is outside " ++ renderPath recordingsRoot }

structure ReconcileResult where
  recoveredCount : ℕ := 0
  garbageCount : ℕ := 0
  deriving DecidableEq, Repr

/-- One round of `reconcilePendingDeletions`. -/
def reconcileSegment (counts : ReconcileResult) (seg : Recording) : Async ReconcileResult := do
  match ← fsAccessFn seg.filePath with
  | .ok () =>
    -- `updateRecordingStatus` catches its own errors, so the outer `catch` sees none from here
    catching
      (do
        orThrow (← fsUnlinkFn seg.filePath)
        deleteRecording seg.id
        pure { counts with recoveredCount := counts.recoveredCount + 1 })
      fun unlinkErr ↦ do
        let _ ← updateRecordingStatus seg.id .garbage
          (some ("Reconciliation unlink failed: " ++ unlinkErr.message))
        pure { counts with garbageCount := counts.garbageCount + 1 }
  | .error _ => do
    -- Whatever the error was
    deleteRecording seg.id
    pure { counts with recoveredCount := counts.recoveredCount + 1 }

/-- How many pending deletions one sweep reads. -/
def pendingSweepLimit : ℕ := 200

/-- Finishes the deletions that a crash, restart or power loss left DELETE_PENDING. -/
def reconcilePendingDeletions : Async ReconcileResult := do
  let pending ← findRecordingsByStatus .deletePending pendingSweepLimit
  pending.foldlM reconcileSegment {}

end VmsLite.Recordings
