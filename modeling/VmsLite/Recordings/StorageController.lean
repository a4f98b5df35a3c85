import VmsLite.Recordings.Catalog
import VmsLite.Recordings.RetentionPolicy

/-!
# The storage controller

`StorageController`: the health of the recordings volume, the age purge and the FIFO rollover, and
the `tickStorage` of the recording engine that runs them. The thresholds and the retention policy
are the fields of the controller; its two fields that change on their own, the last health status
and the protected overflow, are memory of the process. A percentage is rounded to the nearest whole
one, halves up, as `Math.round` does. `lastCanaryLatencyMs` is left out: nothing reads it.
-/

set_option autoImplicit false

namespace VmsLite.Recordings

open VmsLite.Async Program

structure StorageController where
  recordingsRoot : Path
  warningThresholdPercent : ℕ := 80
  criticalThresholdPercent : ℕ := 90
  targetThresholdPercent : ℕ := 80
  retention : RetentionPolicy := {}
  maxProtectedThresholdPercent : ℕ := 25
  batchSize : ℕ := 50
  maxIterations : ℕ := 10

structure StorageMetrics where
  totalBytes : ℕ
  freeBytes : ℕ
  usedBytes : ℕ
  usedPercent : ℕ
  mountPath : Path
  warningThresholdPercent : ℕ
  criticalThresholdPercent : ℕ
  healthStatus : StorageHealthStatus
  canaryLatencyMs : Option ℕ
  protectedBytes : ℕ
  protectedPercent : ℕ
  maxProtectedThresholdPercent : ℕ
  days : RetentionDays
  deriving DecidableEq, Repr

/-- `Math.round((part / total) * 100)`, and 0 of an empty disk. -/
def percentOf (part total : ℕ) : ℕ :=
  if 0 < total then (200 * part + total) / (2 * total) else 0

/-- Where the `status` of a cleanup comes from. -/
inductive CleanupStatus
  | ok | warning | critical | writeDegraded | writeFailed | mountMissing
  deriving DecidableEq, Repr

structure StorageCleanupResult where
  status : CleanupStatus
  triggered : Bool
  usedPercentBefore : ℕ
  usedPercentAfter : ℕ
  deletedSegmentsCount : ℕ := 0
  freedBytes : ℕ := 0
  metrics : StorageMetrics
  protectedOverflow : Bool := false
  deriving DecidableEq, Repr

/-- What `deleteOldestSegments` is asked for. `shouldContinue` is asked before every batch. -/
structure PurgeOptions where
  mode : PurgeMode
  overrideDays : Option ℤ := none
  shouldContinue : Option (Async Bool) := none

/-- The counters of `deleteOldestSegments`: its result, and the two its loops keep. -/
structure PurgeProgress where
  deletedSegmentsCount : ℕ := 0
  freedBytes : ℕ := 0
  allRemainingProtected : Bool := false
  skip : ℕ := 0
  batchDeleted : ℕ := 0
  deriving DecidableEq, Repr

namespace StorageController

variable (controller : StorageController)

def setThresholds (warning critical : ℕ) (target maxProtected : Option ℕ) : StorageController :=
  { controller with
    warningThresholdPercent := warning
    criticalThresholdPercent := critical
    targetThresholdPercent := target.getD controller.targetThresholdPercent
    maxProtectedThresholdPercent := maxProtected.getD controller.maxProtectedThresholdPercent }

/-- Lifetime of CONTINUOUS footage. -/
def setRetentionDays (days : ℤ) : StorageController :=
  { controller with retention := controller.retention.setDays { continuous := some days } }

/-! ### Metrics -/

/-- The latency of the write canary, or `none` when it fails. -/
def runWriteCanary : Async (Option ℕ) := do
  match ← call .writeCanary with
  | .ok latencyMs => pure (some latencyMs)
  | .error _ => pure none

/-- `retention.protectedBytes`, and 0 when it throws. -/
def calculateProtectedBytes : Async ℕ :=
  catching controller.retention.protectedBytes fun _ ↦ pure 0

/-- `statfs` of the first `depth` components of a directory, or of the closest ancestor that
answers. -/
def statfsUpwards (dir : Path) : ℕ → Async DiskStats
  | 0 => do
    match ← call (.statfs []) with
    | .ok stats => pure stats
    | .error err =>
      failed
        { code := .other
          message := "Unable to read filesystem statistics for " ++ renderPath dir ++ ": " ++
            err.message }
  | depth + 1 => do
    match ← call (.statfs (dir.take (depth + 1))) with
    | .ok stats => pure stats
    | .error _ => statfsUpwards dir depth

def statfsNearestExisting (dir : Path) : Async DiskStats := statfsUpwards dir dir.length

/-- The state of the health machine for a reading. -/
def healthStatus (mountMissing : Bool) (canary : Option ℕ) (usedPercent : ℕ) :
    StorageHealthStatus :=
  if mountMissing then .mountMissing
  else
    match canary with
    | none => .writeFailed
    | some latencyMs =>
      if 1000 < latencyMs then .writeDegraded
      else if controller.criticalThresholdPercent ≤ usedPercent then .critical
      else if controller.warningThresholdPercent ≤ usedPercent then .warning
      else .healthy

/-- Emits an event when there is one. -/
def emitSome : Option BusEvent → Async Unit
  | some event => call (.emitEvent event)
  | none => pure ()

/-- The metrics of a reading. -/
def metricsOf (mountMissing : Bool) (stats : DiskStats) (protectedBytes : ℕ)
    (canary : Option ℕ) : StorageMetrics :=
  let totalBytes := stats.blocks * stats.bsize
  let freeBytes := stats.bfree * stats.bsize
  let usedBytes := totalBytes - freeBytes
  let usedPercent := percentOf usedBytes totalBytes
  { totalBytes
    freeBytes
    usedBytes
    usedPercent
    mountPath := controller.recordingsRoot
    warningThresholdPercent := controller.warningThresholdPercent
    criticalThresholdPercent := controller.criticalThresholdPercent
    healthStatus := controller.healthStatus mountMissing canary usedPercent
    canaryLatencyMs := canary
    protectedBytes
    protectedPercent := percentOf protectedBytes totalBytes
    maxProtectedThresholdPercent := controller.maxProtectedThresholdPercent
    days := controller.retention.getDays }

/-- What stands in for the reading of a missing mount. -/
def noReading : DiskStats := { bsize := 4096, blocks := 0, bfree := 0 }

/-- Retrieves storage metrics of the recordings root and evaluates the health state. -/
def getStorageMetrics : Async StorageMetrics := do
  let () ← call (.mkdir controller.recordingsRoot)
  let (mountMissing, stats) ← catching
    (do
      let stats ← statfsNearestExisting controller.recordingsRoot
      pure (false, stats))
    fun _ ↦ pure (true, noReading)
  let protectedBytes ← controller.calculateProtectedBytes
  let canary ← runWriteCanary
  let metrics := controller.metricsOf mountMissing stats protectedBytes canary
  let previousStatus ← call (.exchangeHealthStatus metrics.healthStatus)
  let () ← emitSome
    (if metrics.healthStatus ≠ previousStatus then
      some (.storageHealthChanged previousStatus metrics.healthStatus metrics.usedPercent canary
        metrics.protectedPercent)
    else none)
  let overflow : Bool := controller.maxProtectedThresholdPercent ≤ metrics.protectedPercent
  let protectedOverflow ← call .getProtectedOverflow
  let () ← emitSome
    (if overflow && !protectedOverflow then
      some (.protectedOverflow protectedBytes metrics.protectedPercent
        controller.maxProtectedThresholdPercent)
    else if !overflow && protectedOverflow then
      some (.protectedRecovered protectedBytes metrics.protectedPercent
        controller.maxProtectedThresholdPercent)
    else none)
  let () ← call (.setProtectedOverflow overflow)
  pure metrics

/-! ### Deleting the oldest segments -/

/-- One candidate of a batch: deleted when it may be, stepped over otherwise. -/
def deleteCandidate (deletable : List RecordingId) (progress : PurgeProgress)
    (segment : Recording) : Async PurgeProgress :=
  if segment.id ∈ deletable then
    catching
      (do
        let res ← deleteSegmentInternal controller.recordingsRoot segment.id segment.filePath
          segment.sizeBytes
        pure
          (if res.success then
            { progress with
              deletedSegmentsCount := progress.deletedSegmentsCount + 1
              freedBytes := progress.freedBytes + res.freedBytes
              batchDeleted := progress.batchDeleted + 1 }
          else { progress with skip := progress.skip + 1 }))
      fun _ ↦ pure { progress with skip := progress.skip + 1 }
  else pure { progress with skip := progress.skip + 1 }

/-- `shouldContinue`, which is true when it was not given. -/
def continues (opts : PurgeOptions) : Async Bool := opts.shouldContinue.getD (pure true)

/-- The iterations of one pass. The first component says whether `deleteOldestSegments` returned
from inside the pass. -/
def purgePass (opts : PurgeOptions) (statuses : Option (List SegmentStatus)) :
    ℕ → PurgeProgress → Async (Bool × PurgeProgress)
  | 0, progress => pure (false, progress)
  | iterations + 1, progress => do
    let candidates ← getOldestRecordings controller.batchSize progress.skip statuses
    if candidates.isEmpty then
      pure (false,
        { progress with allRemainingProtected := statuses.isNone && 0 < progress.skip })
    else if ← continues opts then do
      let deletable ← controller.retention.deletable candidates opts.mode opts.overrideDays
      let progress ← candidates.foldlM
        (controller.deleteCandidate (deletable.map Recording.id))
        { progress with batchDeleted := 0 }
      if progress.batchDeleted = 0 && candidates.length < controller.batchSize then
        pure (false, { progress with allRemainingProtected := statuses.isNone })
      else purgePass opts statuses iterations progress
    else pure (true, { progress with allRemainingProtected := false })

/-- The passes of a purge, each from the oldest row. -/
def purgePasses (opts : PurgeOptions) :
    List (Option (List SegmentStatus)) → PurgeProgress → Async PurgeProgress
  | [], progress => pure progress
  | statuses :: passes, progress => do
    let (returned, progress) ← controller.purgePass opts statuses controller.maxIterations
      { progress with skip := 0 }
    if returned then pure progress else purgePasses opts passes progress

/-- Under capacity pressure, quarantined segments go before any good footage. -/
def passes : PurgeMode → List (Option (List SegmentStatus))
  | .capacity => [some [.quarantined], none]
  | .age => [none]

/-- Deletes catalogued segments oldest-first, as far as the retention policy allows. -/
def deleteOldestSegments (opts : PurgeOptions) : Async PurgeProgress :=
  controller.purgePasses opts (passes opts.mode) {}

/-- Purges recordings that are past the lifetime of their tier. -/
def purgeRetention (overrideDays : Option ℤ := none) : Async PurgeProgress :=
  controller.deleteOldestSegments { mode := .age, overrideDays }

/-! ### The storage check -/

/-- Whether a rollover goes on: while usage is above the target. -/
def aboveTarget : Async Bool := do
  let metrics ← controller.getStorageMetrics
  pure (controller.targetThresholdPercent < metrics.usedPercent)

/-- The purge of a rollover. -/
def purgeCapacity : Async PurgeProgress :=
  controller.deleteOldestSegments
    { mode := .capacity, shouldContinue := some controller.aboveTarget }

/-- FIFO rollover, once the critical threshold is reached. -/
def rollover (initialMetrics : StorageMetrics) : Async StorageCleanupResult := do
  let usedPercentBefore := initialMetrics.usedPercent
  let () ← call (.emitEvent (.storageCritical usedPercentBefore
    controller.criticalThresholdPercent controller.targetThresholdPercent))
  -- Crash-interrupted pending deletions first
  let _ ← reconcilePendingDeletions
  let purged ← controller.purgeCapacity
  let currentMetrics ← controller.getStorageMetrics
  let usedPercentAfter := currentMetrics.usedPercent
  let () ← emitSome
    (if purged.allRemainingProtected && controller.targetThresholdPercent < usedPercentAfter then
      some (.exhaustionRisk usedPercentAfter controller.targetThresholdPercent
        currentMetrics.protectedBytes)
    else none)
  let () ← call (.emitEvent (.rollover purged.deletedSegmentsCount purged.freedBytes
    usedPercentBefore usedPercentAfter controller.targetThresholdPercent))
  pure
    { status := .critical
      triggered := true
      usedPercentBefore
      usedPercentAfter
      deletedSegmentsCount := purged.deletedSegmentsCount
      freedBytes := purged.freedBytes
      metrics := currentMetrics
      protectedOverflow := purged.allRemainingProtected }

/-- A result of `checkStorage` that deleted nothing. -/
def untriggered (status : CleanupStatus) (metrics : StorageMetrics) : StorageCleanupResult where
  status := status
  triggered := false
  usedPercentBefore := metrics.usedPercent
  usedPercentAfter := metrics.usedPercent
  metrics := metrics

/-- Inspects the thresholds and triggers FIFO rollover when the critical one is reached. -/
def checkStorage : Async StorageCleanupResult := do
  let initialMetrics ← controller.getStorageMetrics
  let usedPercentBefore := initialMetrics.usedPercent
  if initialMetrics.healthStatus = .mountMissing then
    pure (untriggered .mountMissing initialMetrics)
  else if initialMetrics.healthStatus = .writeFailed then
    pure (untriggered .writeFailed initialMetrics)
  else if usedPercentBefore < controller.warningThresholdPercent then
    pure (untriggered
      (if initialMetrics.healthStatus = .writeDegraded then .writeDegraded else .ok)
      initialMetrics)
  else if controller.warningThresholdPercent ≤ usedPercentBefore &&
      usedPercentBefore < controller.criticalThresholdPercent then do
    let () ← call (.emitEvent (.storageWarning usedPercentBefore
      controller.warningThresholdPercent controller.criticalThresholdPercent))
    pure (untriggered .warning initialMetrics)
  else controller.rollover initialMetrics

/-- `tickStorage` of the engine: age-based retention first, then capacity-based rollover. An error
ends the tick. -/
def tickStorage : Async Unit :=
  catching
    (do
      let _ ← controller.purgeRetention
      let _ ← controller.checkStorage
      pure ())
    fun _ ↦ pure ()

end StorageController

end VmsLite.Recordings
