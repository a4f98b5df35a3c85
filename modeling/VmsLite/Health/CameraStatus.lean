import VmsLite.Health.SiteOutage

/-!
# The status of a camera

`nextCameraStatus`: what one health sample makes of what is remembered of a camera.
-/

set_option autoImplicit false

namespace VmsLite.Health

inductive NetworkCheckResult
  | passed | failed | notApplicable
  deriving DecidableEq, Repr

/-- One health poll of a camera. -/
structure HealthSample where
  networkCheck : NetworkCheckResult
  latencyMs : Option ℤ
  networkError : Option String := none
  streamReady : Bool
  /-- None on the first sample after start or a counter reset. -/
  bitrateKbps : Option ℤ
  deriving DecidableEq, Repr

structure StatusMemory where
  status : CameraHealthStatus
  consecutiveFailures : ℕ
  unhealthySince : Option ℤ
  offlineSince : Option ℤ
  deriving DecidableEq, Repr

def initialStatus : StatusMemory where
  status := .unknown
  consecutiveFailures := 0
  unhealthySince := none
  offlineSince := none

def highLatencyMs : ℤ := 500

def minBitrateKbps : ℤ := 50

def offlineAfterMs : ℤ := 30000

namespace HealthSample

variable (sample : HealthSample)

def checkable : Bool := sample.networkCheck ≠ .notApplicable

def reachable : Bool := !sample.checkable || sample.networkCheck = .passed

def fastEnough : Bool :=
  !sample.checkable || sample.reachable && sample.latencyMs.any (· < highLatencyMs)

def starved : Bool := sample.bitrateKbps.any (· ≤ minBitrateKbps)

/-- One fully healthy sample. -/
def healthy : Bool := sample.fastEnough && sample.streamReady && !sample.starved

/-- A number in a text. -/
def numberText : Option ℤ → String
  | some number => toString number
  | none => "null"

/-- Why a sample fails. -/
def failureReason : String :=
  if !sample.reachable then
    (sample.networkError.filter (· ≠ "")).getD "TCP handshake connection failed"
  else if sample.latencyMs.any (highLatencyMs ≤ ·) then
    "High network latency (" ++ numberText sample.latencyMs ++ "ms >= " ++
      toString highLatencyMs ++ "ms)"
  else if !sample.streamReady then "MediaMTX stream path not ready / no video packet feed"
  else
    "Low stream bitrate (" ++ numberText sample.bitrateKbps ++ " kbps <= " ++
      toString minBitrateKbps ++
      " kbps)"

end HealthSample

structure NextStatus where
  memory : StatusMemory
  reason : Option String
  outageDurationMs : Option ℤ

/-- The camera status state machine, pure. -/
def nextCameraStatus (memory : StatusMemory) (sample : HealthSample) (now : ℤ) : NextStatus :=
  if sample.healthy then
    { memory :=
        { status := .online
          consecutiveFailures := 0
          unhealthySince := none
          offlineSince := none }
      reason := none
      outageDurationMs := memory.unhealthySince.map fun since ↦ now - since }
  else
    let failures := memory.consecutiveFailures + 1
    let unhealthySince := some (memory.unhealthySince.getD now)
    let confirmed := decide (2 ≤ failures)
    if !sample.reachable then
      let offlineSince := memory.offlineSince.getD now
      let status : CameraHealthStatus :=
        if confirmed && offlineAfterMs ≤ now - offlineSince then .offline
        else if confirmed then .degraded
        else memory.status
      { memory :=
          { status
            consecutiveFailures := failures
            unhealthySince
            offlineSince := some offlineSince }
        reason := some sample.failureReason
        outageDurationMs := none }
    else
      { memory :=
          { status := if confirmed then .degraded else memory.status
            consecutiveFailures := failures
            unhealthySince
            offlineSince := none }
        reason := some sample.failureReason
        outageDurationMs := none }

variable {memory : StatusMemory} {sample : HealthSample}

/-- One healthy sample recovers at once. -/
theorem nextCameraStatus_of_healthy (hhealthy : sample.healthy = true) (now : ℤ) :
    (nextCameraStatus memory sample now).memory.status = .online := by
  simp [nextCameraStatus, hhealthy]

end VmsLite.Health
