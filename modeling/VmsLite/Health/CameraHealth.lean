import VmsLite.Async.Transition
import VmsLite.Health.CameraStatus

/-!
# The camera health service

The poll cycle of `CameraHealthService` as a state machine: `pollAllCameras`, the checks of the
cameras in any order and overlapping, `finishCycle` with one event at a time, and `removeCamera`,
which a deletion may call between any two of them. A `Map` of the service is a function, but for
`siteSuppressed`, whose entries are gone through in order. What a probe and the media server say of
a camera is a `HealthSample`; the texts of a site event and the instants of the events are left out,
for nothing here reads them.

Beside the state stands a log, the newest entry first, of the events and of what the checks found.
No branch reads it.
-/

set_option autoImplicit false

namespace VmsLite.Health

abbrev CameraId := String

/-! ### Events -/

structure CameraHealthEventMetadata where
  cameraId : CameraId
  cameraName : String
  status : CameraHealthStatus
  previousStatus : CameraHealthStatus
  reason : Option String
  latencyMs : Option ℤ
  bitrateKbps : Option ℤ
  consecutiveFailures : ℕ
  outageDurationMs : Option ℤ
  networkCheck : NetworkCheckResult
  /-- The site, when the transition is part of a site link outage. -/
  siteOutage : Option SiteId
  deriving DecidableEq, Repr

structure SiteEventMetadata where
  siteId : SiteId
  siteName : String
  cameraIds : List CameraId
  cameraCount : ℕ
  outageDurationMs : Option ℤ
  deriving DecidableEq, Repr

inductive HealthMetadata
  | camera (metadata : CameraHealthEventMetadata)
  | site (metadata : SiteEventMetadata)
  deriving DecidableEq, Repr

/-- What the service gives to `emitEvent`. -/
structure HealthEvent where
  cameraId : Option CameraId
  siteId : Option SiteId
  type : String
  severity : String
  metadata : HealthMetadata
  deriving DecidableEq, Repr

/-- `metadata.siteOutage`. -/
def HealthEvent.siteOutage (event : HealthEvent) : Option SiteId :=
  match event.metadata with
  | .camera metadata => metadata.siteOutage
  | .site _ => none

/-! ### The state -/

structure HealthCheckCamera where
  id : CameraId
  name : String
  siteId : Option SiteId
  mediaMtxPath : String
  deriving DecidableEq, Repr

structure CameraInternalState where
  memory : StatusMemory := initialStatus
  latencyMs : Option ℤ := none
  bitrateKbps : Option ℤ := none
  networkCheck : NetworkCheckResult := .notApplicable
  reason : Option String := none

abbrev CameraInternalState.status (state : CameraInternalState) : CameraHealthStatus :=
  state.memory.status

structure PendingTransition where
  cameraId : CameraId
  cameraName : String
  newStatus : CameraHealthStatus
  previousStatus : CameraHealthStatus
  state : CameraInternalState
  outageDurationMs : Option ℤ

/-- What `finishCycle` has still to go through, in this order. -/
structure Agenda where
  down : List SiteOutageTransition
  suppressed : List (CameraId × SiteId)
  pending : List PendingTransition
  up : List SiteOutageTransition

/-- Where a poll cycle is. Each phase has the cameras of the cycle, and `idle` those of the last
one. -/
inductive Phase
  | idle (cameras : List HealthCheckCamera)
  /-- Some checks have not begun, and some have begun with the states that they have found. -/
  | checking (cameras unstarted : List HealthCheckCamera)
    (inFlight : List (HealthCheckCamera × CameraInternalState)) (pending : List PendingTransition)
  | finishing (cameras : List HealthCheckCamera) (pendingIds : List CameraId)
    (names : SiteId → Option String) (agenda : Agenda)

/-- The cameras of a cycle that has finished. -/
def Phase.finished : Phase → Option (List HealthCheckCamera)
  | .idle cameras => some cameras
  | _ => none

inductive LogEntry
  | seen (cameraId : CameraId)
  | checked (cameraId : CameraId) (status : CameraHealthStatus)
  | emitted (event : HealthEvent)

structure CameraHealthService where
  cameraStates : CameraId → Option CameraInternalState := fun _ ↦ none
  siteDetector : SiteOutageDetector := {}
  /-- Cameras whose alert was attributed to a site outage, with the site. -/
  siteSuppressed : List (CameraId × SiteId) := []
  phase : Phase := .idle []
  log : List LogEntry := []

/-- `Map.set`: the value of a key that is there is replaced at its place. -/
def setSuppressed (cameraId : CameraId) (siteId : SiteId) (entries : List (CameraId × SiteId)) :
    List (CameraId × SiteId) :=
  if entries.any (·.1 = cameraId) then
    entries.map fun entry ↦ if entry.1 = cameraId then (cameraId, siteId) else entry
  else entries ++ [(cameraId, siteId)]

/-- DEGRADED and OFFLINE. -/
def CameraHealthStatus.isFailing : CameraHealthStatus → Bool
  | .degraded | .offline => true
  | _ => false

/-! ### Emitting -/

def transitionEventType : CameraHealthStatus → String
  | .online => "camera.online"
  | .degraded => "camera.degraded"
  | _ => "camera.offline"

def transitionSeverity : CameraHealthStatus → String
  | .online => "info"
  | .degraded => "warning"
  | _ => "critical"

/-- The event of `emitTransitionEvent`; an empty `siteOutage` leaves it untagged. -/
def transitionEvent (cameraId : CameraId) (cameraName : String)
    (newStatus previousStatus : CameraHealthStatus) (state : CameraInternalState)
    (outageDurationMs : Option ℤ) (siteOutage : SiteId) : HealthEvent where
  cameraId := some cameraId
  siteId := none
  type := transitionEventType newStatus
  severity := transitionSeverity newStatus
  metadata := .camera
    { cameraId, cameraName
      status := newStatus
      previousStatus
      reason := state.reason
      latencyMs := state.latencyMs
      bitrateKbps := state.bitrateKbps
      consecutiveFailures := state.memory.consecutiveFailures
      outageDurationMs
      networkCheck := state.networkCheck
      siteOutage := if siteOutage = "" then none else some siteOutage }

/-- The event of `emitSiteEvent`. -/
def siteEvent (names : SiteId → Option String) (transition : SiteOutageTransition) :
    HealthEvent where
  cameraId := none
  siteId := some transition.siteId
  type := match transition.type with
    | .siteOffline => "site.offline"
    | .siteOnline => "site.online"
  severity := match transition.type with
    | .siteOffline => "critical"
    | .siteOnline => "info"
  metadata := .site
    { siteId := transition.siteId
      siteName := (names transition.siteId).getD "Unknown site"
      cameraIds := transition.cameraIds
      cameraCount := transition.cameraIds.length
      outageDurationMs := transition.outageDurationMs }

namespace CameraHealthService

variable (service : CameraHealthService)

/-- The events that were emitted, the newest first. -/
def events : List HealthEvent :=
  service.log.filterMap fun entry ↦
    match entry with
    | .emitted event => some event
    | _ => none

def emitEvent (event : HealthEvent) : CameraHealthService :=
  { service with log := .emitted event :: service.log }

/-! ### A cycle -/

/-- `pollAllCameras` with the cameras that were listed, up to the checks. A cycle that is under way
is not overlapped. -/
def pollAllCameras (cameras : List HealthCheckCamera) : CameraHealthService :=
  match service.phase with
  | .idle _ =>
    let activeCameras := cameras.filter (·.mediaMtxPath ≠ "")
    let activeIds := activeCameras.map (·.id)
    { service with
      cameraStates := fun cameraId ↦ if cameraId ∈
        activeIds then service.cameraStates cameraId else none
      siteSuppressed := service.siteSuppressed.filter (·.1 ∈ activeIds)
      phase := .checking activeCameras activeCameras [] [] }
  | _ => service

/-- The beginning of `checkCamera`: the state of the camera, a new one when there is none. -/
def startCheck (cameraId : CameraId) : CameraHealthService :=
  match service.phase with
  | .checking cameras unstarted inFlight pending =>
    match unstarted.find? (·.id = cameraId) with
    | some camera =>
      let phase := .checking cameras (unstarted.filter (·.id ≠ cameraId))
        ((camera, (service.cameraStates cameraId).getD {}) :: inFlight) pending
      match service.cameraStates cameraId with
      | some _ => { service with phase }
      | none =>
        { service with
          cameraStates := Function.update service.cameraStates cameraId (some {})
          phase
          log := .seen cameraId :: service.log }
    | none => service
  | _ => service

/-- The state of a camera after a sample. -/
def stateAfter (state : CameraInternalState) (sample : HealthSample) (now : ℤ) :
    CameraInternalState where
  memory := (nextCameraStatus state.memory sample now).memory
  latencyMs := sample.latencyMs
  bitrateKbps := sample.bitrateKbps
  networkCheck := sample.networkCheck
  reason := (nextCameraStatus state.memory sample now).reason

/-- The transition that a check leaves to the end of the cycle. -/
def transitionAfter (camera : HealthCheckCamera) (state : CameraInternalState)
    (sample : HealthSample)
    (now : ℤ) : Option PendingTransition :=
  let next := stateAfter state sample now
  if next.status ≠ state.status ∧ ¬ (state.status = .unknown ∧ next.status = .online) then
    some
      { cameraId := camera.id
        cameraName := camera.name
        newStatus := next.status
        previousStatus := state.status
        state := next
        outageDurationMs := (nextCameraStatus state.memory sample now).outageDurationMs }
  else none

/-- The end of `checkCamera`, or nothing when it throws. A camera that was removed meanwhile is in
the map no more, but its transition is. -/
def endCheck (cameraId : CameraId) (now : ℤ) (result : Option HealthSample) : CameraHealthService :=
  match service.phase with
  | .checking cameras unstarted inFlight pending =>
    match inFlight.find? (·.1.id = cameraId) with
    | some (camera, state) =>
      let others := inFlight.filter (·.1.id ≠ cameraId)
      match result with
      | some sample =>
        let next := stateAfter state sample now
        let phase := .checking cameras unstarted others
          (pending ++ (transitionAfter camera state sample now).toList)
        match service.cameraStates cameraId with
        | some _ =>
          { service with
            cameraStates := Function.update service.cameraStates cameraId (some next)
            phase
            log := .checked cameraId next.status :: service.log }
        | none => { service with phase }
      | none => { service with phase := .checking cameras unstarted others pending }
    | none => service
  | _ => service

/-- The samples of `finishCycle`. -/
def samples (cameras : List HealthCheckCamera) : List SiteCameraSample :=
  cameras.filterMap fun camera ↦ (service.cameraStates camera.id).map fun state ↦
    { cameraId := camera.id
      siteId := camera.siteId
      status := state.status
      networkChecked := state.networkCheck ≠ .notApplicable
      unreachable := state.networkCheck = .failed }

/-- `finishCycle` up to the first event, once every check is over. -/
def finishCycle (now : ℤ) (names : SiteId → Option String) : CameraHealthService :=
  match service.phase with
  | .checking cameras [] [] pending =>
    let (siteDetector, transitions) := service.siteDetector.evaluate (service.samples cameras) now
    { service with
      siteDetector
      phase := .finishing cameras (pending.map (·.cameraId)) names
        { down := transitions.filter (·.type = .siteOffline)
          suppressed := service.siteSuppressed
          pending
          up := transitions.filter (·.type = .siteOnline) } }
  | _ => service

def nameOf (cameras : List HealthCheckCamera) (cameraId : CameraId) : String :=
  ((cameras.find? (·.id = cameraId)).map (·.name)).getD cameraId

def siteOf (cameras : List HealthCheckCamera) (cameraId : CameraId) : Option SiteId :=
  (cameras.find? (·.id = cameraId)).bind (·.siteId)

/-- The round of an entry of `siteSuppressed`: once its site is up, a camera that still fails gets
its own alert, unless it has a transition in this cycle. -/
def release (cameras : List HealthCheckCamera) (pendingIds : List CameraId)
    (entry : CameraId × SiteId) :
    CameraHealthService :=
  if service.siteDetector.getState (some entry.2) ≠ .up then service
  else
    let released :=
      { service with siteSuppressed := service.siteSuppressed.filter (·.1 ≠ entry.1) }
    match service.cameraStates entry.1 with
    | some state =>
      if entry.1 ∉ pendingIds ∧ state.status.isFailing = true then
        released.emitEvent (transitionEvent entry.1 (nameOf cameras entry.1) state.status
          state.status state
          none "")
      else released
    | none => released

/-- The site that a transition is attributed to. -/
def attributedTo (cameras : List HealthCheckCamera) (transition : PendingTransition) :
    Option SiteId :=
  (siteOf cameras transition.cameraId).filter fun siteId ↦
    transition.newStatus.isFailing && service.siteDetector.getState (some siteId) ≠ .up

/-- The round of a transition. -/
def announce (cameras : List HealthCheckCamera) (transition : PendingTransition) :
    CameraHealthService :=
  let event (siteOutage : SiteId) := transitionEvent transition.cameraId transition.cameraName
    transition.newStatus transition.previousStatus transition.state
      transition.outageDurationMs siteOutage
  match service.attributedTo cameras transition with
  | some siteId =>
    { service with
      siteSuppressed := setSuppressed transition.cameraId siteId service.siteSuppressed }.emitEvent
        (event siteId)
  | none =>
    { service with
      siteSuppressed := service.siteSuppressed.filter (·.1 ≠ transition.cameraId) }.emitEvent
        (event "")

/-- The next round of `finishCycle`, or its end. -/
def proceed : CameraHealthService :=
  match service.phase with
  | .finishing cameras pendingIds names agenda =>
    let left (agenda : Agenda) : CameraHealthService :=
      { service with phase := .finishing cameras pendingIds names agenda }
    match agenda with
    | { down := transition :: down, suppressed, pending, up } =>
      (left { down, suppressed, pending, up }).emitEvent (siteEvent names transition)
    | { down := [], suppressed := entry :: suppressed, pending, up } =>
      (left { down := [], suppressed, pending, up }).release cameras pendingIds entry
    | { down := [], suppressed := [], pending := transition :: pending, up } =>
      (left { down := [], suppressed := [], pending, up }).announce cameras transition
    | { down := [], suppressed := [], pending := [], up := transition :: up } =>
      (left { down := [], suppressed := [], pending := [], up }).emitEvent
        (siteEvent names transition)
    | { down := [], suppressed := [], pending := [], up := [] } =>
      { service with phase := .idle cameras }
  | _ => service

/-- Removes cached telemetry for a camera. -/
def removeCamera (cameraId : CameraId) : CameraHealthService :=
  { service with cameraStates := Function.update service.cameraStates cameraId none }

end CameraHealthService

/-! ### Runs -/

inductive HealthStep
  | pollAllCameras (cameras : List HealthCheckCamera)
  | startCheck (cameraId : CameraId)
  | endCheck (cameraId : CameraId) (now : ℤ) (result : Option HealthSample)
  | finishCycle (now : ℤ) (names : SiteId → Option String)
  | proceed
  | removeCamera (cameraId : CameraId)

def CameraHealthService.step (service : CameraHealthService) : HealthStep → CameraHealthService
  | .pollAllCameras cameras => service.pollAllCameras cameras
  | .startCheck cameraId => service.startCheck cameraId
  | .endCheck cameraId now result => service.endCheck cameraId now result
  | .finishCycle now names => service.finishCycle now names
  | .proceed => service.proceed
  | .removeCamera cameraId => service.removeCamera cameraId

/-- The cameras that are listed have distinct ids; the evaluations meet a condition. -/
def HealthStep.IsLegal (condition : CameraHealthService → ℤ → Prop)
    (service : CameraHealthService) :
    HealthStep → Prop
  | .pollAllCameras cameras => (cameras.map (·.id)).Nodup
  | .finishCycle now _ => condition service now
  | _ => True

/-- A run of the service, as far as it has come. -/
structure HealthRun (condition : CameraHealthService → ℤ → Prop) where
  service : CameraHealthService
  reached : Async.Reaches CameraHealthService.step
    (fun service step ↦ step.IsLegal condition service) {}
    service

/-! ### Cycles in which nothing answers -/

/-- A camera that is probed. -/
def probed (id : CameraId) (siteId : Option SiteId) : HealthCheckCamera :=
  { id, name := id, siteId, mediaMtxPath := id }

/-- A probe that fails. -/
def deadProbe : HealthSample :=
  { networkCheck := .failed, latencyMs := none, streamReady := false, bitrateKbps := none }

/-- A cycle in which every probe fails, with some rounds. -/
def deadCycle (cameras : List HealthCheckCamera) (now : ℤ) (rounds : ℕ) : List HealthStep :=
  .pollAllCameras cameras :: cameras.map (HealthStep.startCheck ·.id) ++
    cameras.map (HealthStep.endCheck ·.id now (some deadProbe)) ++
      .finishCycle now (fun _ ↦ none) :: List.replicate rounds .proceed

theorem isLegal_of_mem_deadCycle {cameras : List HealthCheckCamera}
    (hnodup : (cameras.map (·.id)).Nodup)
    {now : ℤ} {rounds : ℕ} {step : HealthStep} (hstep : step ∈ deadCycle cameras now rounds)
    (service : CameraHealthService) : step.IsLegal (fun _ _ ↦ True) service := by
  rcases List.mem_append.mp hstep with hchecks | hfinish
  · rcases List.mem_append.mp hchecks with hstarts | hends
    · rcases List.mem_cons.mp hstarts with rfl | hstart
      · exact hnodup
      · obtain ⟨camera, -, rfl⟩ := List.mem_map.mp hstart
        trivial
    · obtain ⟨camera, -, rfl⟩ := List.mem_map.mp hends
      trivial
  · rcases List.mem_cons.mp hfinish with rfl | hround
    · trivial
    · rw [List.eq_of_mem_replicate hround]
      trivial

end VmsLite.Health
