import VmsLite.Recordings.Catalog

/-!
# The storage audit

`StorageInvariantsService.auditAndReconcile`, which checks the catalogue against the disk, and
`CameraService.removeCamera`, whose rows the database cascades away. Left out of the report are its
time stamp and the diagnostics line, which nothing reads.
-/

set_option autoImplicit false

namespace VmsLite.Recordings

open VmsLite.Async Program

inductive Severity
  | warning | critical
  deriving DecidableEq, Repr

structure InvariantViolation where
  invariant : ℕ
  description : String
  recordingId : Option RecordingId := none
  filePath : Path
  cameraId : Option CameraId := none
  severity : Severity
  deriving DecidableEq, Repr

structure InvariantAuditReport where
  totalCatalogued : ℕ := 0
  availableCount : ℕ := 0
  protectedCount : ℕ := 0
  deletePendingCount : ℕ := 0
  garbageCount : ℕ := 0
  missingCount : ℕ := 0
  orphanedFilesCount : ℕ := 0
  violations : List InvariantViolation := []
  reconciledCount : ℕ := 0
  deriving DecidableEq, Repr

/-- How many recordings one audit reads. -/
def auditLimit : ℕ := 500

def isLegallyHeld (row : Recording) : Bool :=
  row.isProtected || row.retentionTier = .protectedTier

/-- A violation that concerns a row. -/
def violationOf (row : Recording) (invariant : ℕ) (description : String) (severity : Severity) :
    InvariantViolation where
  invariant := invariant
  description := description
  recordingId := some row.id
  filePath := row.filePath
  cameraId := some row.cameraId
  severity := severity

/-- The counts of a row by its status, before the disk is asked. -/
def countRow (report : InvariantAuditReport) (row : Recording) : InvariantAuditReport :=
  { report with
    availableCount := report.availableCount + if row.status = .available then 1 else 0
    protectedCount := report.protectedCount + if isLegallyHeld row then 1 else 0
    deletePendingCount :=
      report.deletePendingCount + if row.status = .deletePending then 1 else 0
    garbageCount := report.garbageCount + if row.status = .garbage then 1 else 0
    missingCount := report.missingCount + if row.status = .missing then 1 else 0 }

/-- Invariant 1: one row for each file path. -/
def checkDuplicate (seenPaths : List Path) (row : Recording) : List InvariantViolation :=
  if seenPaths.contains row.filePath then
    [violationOf row 1
      ("Duplicate catalog entry detected for file path: " ++ renderPath row.filePath) .critical]
  else []

/-- Invariant 3: the row belongs to a known camera path. -/
def checkCameraPath (validPaths : List String) (row : Recording) : List InvariantViolation :=
  if row.mediaMtxPath ∈ validPaths then []
  else
    [violationOf row 3
      ("Recording " ++ toString row.id ++ " points to unknown mediaMtxPath: " ++
        row.mediaMtxPath) .warning]

/-- Invariant 5: protected segments are never on their way out. -/
def checkProtected (row : Recording) : List InvariantViolation :=
  if isLegallyHeld row && (row.status = .deletePending || row.status = .garbage) then
    [violationOf row 5
      ("Protected recording " ++ toString row.id ++ " was illegally placed into " ++
        row.status.name ++ " status!") .critical]
  else []

/-- Invariant 2: an AVAILABLE recording has a file. One without is marked MISSING. -/
def checkFile (report : InvariantAuditReport) (row : Recording) : Async InvariantAuditReport :=
  if row.status = .available then do
    match ← fsAccessFn row.filePath with
    | .ok () => pure report
    | .error _ => do
      let _ ← updateRecordingStatus row.id .missing (some "File missing on disk during audit")
      pure
        { report with
          violations := report.violations ++
            [violationOf row 2
              ("Physical media file missing on disk for AVAILABLE recording " ++
                toString row.id ++ ": " ++ renderPath row.filePath) .critical]
          missingCount := report.missingCount + 1
          availableCount := report.availableCount - 1 }
  else pure report

/-- One round of the audit; `seenPaths` are the paths of the rows before. -/
def auditRecording (validPaths : List String) (progress : List Path × InvariantAuditReport)
    (row : Recording) : Async (List Path × InvariantAuditReport) := do
  let (seenPaths, report) := progress
  let counted := countRow
    { report with violations := report.violations ++ checkDuplicate seenPaths row } row
  let checked ← checkFile counted row
  pure (row.filePath :: seenPaths,
    { checked with
      violations := checked.violations ++ checkCameraPath validPaths row ++ checkProtected row })

/-- The media paths of the cameras. -/
def validMediaPaths (cameras : List Camera) : List String :=
  (cameras.flatMap fun camera ↦ camera.mediaMtxPath :: camera.subMediaMtxPath.toList).filter
    fun mediaPath ↦ mediaPath ≠ ""

/-- The directories under the root that belong to no camera. -/
def unknownDirectories (validPaths names : List String) : List String :=
  names.filter fun name ↦ !name.toList.head?.any (· = '.') && name ∉ validPaths

/-- Invariant 3 on the disk; a root that cannot be read is passed over. -/
def auditDirectories (recordingsRoot : Path) (validPaths : List String)
    (report : InvariantAuditReport) : Async InvariantAuditReport := do
  match ← call (.readdir recordingsRoot) with
  | .error _ => pure report
  | .ok cameraDirs =>
    let unknown := unknownDirectories validPaths cameraDirs
    pure
      { report with
        orphanedFilesCount := unknown.length
        violations := report.violations ++ unknown.map fun name ↦
          { invariant := 3
            description :=
              "Unknown camera directory on disk with no matching registered camera: " ++ name
            filePath := recordingsRoot ++ [name]
            severity := .warning } }

/-- Performs an invariant audit and self-healing sweep. -/
def auditAndReconcile (recordingsRoot : Path) : Async InvariantAuditReport := do
  let pendingRecovery ← reconcilePendingDeletions
  let allRecordings ← orThrow (← call (.queryRecordings auditLimit))
  let cameras ← orThrow (← call .listAllCameras)
  let validPaths := validMediaPaths cameras
  let (_, audited) ← allRecordings.foldlM (auditRecording validPaths)
    ([],
      { totalCatalogued := allRecordings.length
        reconciledCount := pendingRecovery.recoveredCount })
  let report ← auditDirectories recordingsRoot validPaths audited
  let () ← call (.emitEvent (.invariantsAudited report.totalCatalogued report.violations.length))
  pure report

/-- Removes a camera and tears down its streaming path. -/
def removeCamera (id : CameraId) : Async Bool := do
  match ← orThrow (← call (.getCameraById id)) with
  | none => pure false
  | some existingCamera => do
    let () ← orThrow (← call (.deleteCamera id))
    let () ← orThrow (← call (.removeMediaPaths existingCamera))
    let () ← call (.emitEvent (.cameraDeleted id existingCamera.mediaMtxPath))
    pure true

end VmsLite.Recordings
