import VmsLite.Async.Program
import VmsLite.Events.EventVisibility
import VmsLite.Recordings.Repository

/-!
# Incident correlation

`IncidentCorrelationService.createIncident`: an incident is stored, the events of its window are
linked to it, and the recordings that overlap the window are linked and put under the INCIDENT
retention tier. Both listings stop at a hundred rows and ask for no order, so the database may list
any hundred of them first. Links and tier updates that fail are passed over. The reason that goes
with a tier is left out; nothing decides on it.
-/

set_option autoImplicit false

namespace VmsLite.Incidents

open Async Async.Program Recordings
open Events (EventRecord carried)
open Users (SiteId UserId)

/-! ### Data -/

inductive IncidentSeverity
  | low | medium | high | critical
  deriving DecidableEq, Repr

inductive IncidentStatus
  | opened | investigating | resolved | archived
  deriving DecidableEq, Repr

abbrev IncidentId := ℕ

structure CreateIncidentInput where
  title : String
  description : Option String := none
  severity : IncidentSeverity := .medium
  status : IncidentStatus := .opened
  siteId : Option SiteId := none
  primaryCameraId : Option CameraId := none
  startTime : ℤ
  endTime : ℤ
  createdById : Option UserId := none
  createdSource : String := "manual"
  deriving DecidableEq, Repr

/-- A row of `incidents`. -/
structure Incident extends CreateIncidentInput where
  id : IncidentId
  incidentNumber : ℕ
  deriving DecidableEq, Repr

/-- `incident.created`. -/
structure IncidentCreated where
  incident : Incident
  eventsCount : ℕ
  recordingsCount : ℕ
  deriving DecidableEq, Repr

structure CreatedIncident where
  incident : Incident
  events : List EventRecord
  recordings : List Recording

/-! ### Listings -/

namespace CreateIncidentInput

variable (input : CreateIncidentInput)

/-- `eventWhere`. Beside a camera, a missing site leaves an alternative without a condition. -/
def correlates (event : EventRecord) : Bool :=
  (input.startTime ≤ event.timestamp && event.timestamp ≤ input.endTime) &&
    match carried input.primaryCameraId, carried input.siteId with
    | some cameraId, some siteId => event.cameraId = some cameraId || event.siteId = some siteId
    | some _, none => true
    | none, some siteId => event.siteId = some siteId
    | none, none => true

/-- `recordingWhere`. -/
def overlaps (recording : Recording) : Bool :=
  (recording.startTime < input.endTime && input.startTime < recording.endTime) &&
    (carried input.primaryCameraId).all (· = recording.cameraId)

end CreateIncidentInput

/-- `take` of both listings. -/
def pageLimit : ℕ := 100

/-- Rows in the order that the database happens to list them, those named first. -/
def arrange {Row Key : Type} [DecidableEq Key] (key : Row → Key) (order : List Key)
    (rows : List Row) : List Row :=
  rows.insertionSort fun first second ↦ order.idxOf (key first) ≤ order.idxOf (key second)

/-! ### The world -/

structure World where
  recordings : RecordingTable := {}
  events : List EventRecord := []
  incidents : List Incident := []
  nextIncident : IncidentId := 1
  incidentEvents : List (IncidentId × String) := []
  incidentRecordings : List (IncidentId × RecordingId) := []
  emitted : List IncidentCreated := []

/-- The outcome the environment chooses for a call; the orders are those of the listings. -/
inductive Outcome
  | ok
  | fail (error : Failure)
  | recordings (order : List RecordingId)
  | events (order : List String)
  deriving DecidableEq, Repr

inductive Call
  | createIncident (data : CreateIncidentInput)
  | findEvents (input : CreateIncidentInput)
  | linkEvent (incidentId : IncidentId) (eventId : String)
  | findRecordings (input : CreateIncidentInput)
  | linkRecording (incidentId : IncidentId) (recordingId : RecordingId)
  /-- `update` of a recording with the tier INCIDENT. -/
  | lockRecording (recordingId : RecordingId)
  | emitEvent (event : IncidentCreated)
  deriving DecidableEq, Repr

@[reducible] def Reply : Call → Type
  | .createIncident _ => Except Failure Incident
  | .findEvents _ => Except Failure (List EventRecord)
  | .findRecordings _ => Except Failure (List Recording)
  | .linkEvent .. | .linkRecording .. | .lockRecording _ => Except Failure Unit
  | .emitEvent _ => Unit

/-- Whether the environment lets the call through. -/
def Outcome.passes : Outcome → Bool
  | .fail _ => false
  | _ => true

def Outcome.orFail {α : Type} (outcome : Outcome) (value : α) : Except Failure α :=
  match outcome with
  | .fail error => .error error
  | _ => .ok value

def Outcome.recordingOrder : Outcome → List RecordingId
  | .recordings order => order
  | _ => []

def Outcome.eventOrder : Outcome → List String
  | .events order => order
  | _ => []

namespace World

variable (world : World)

/-- The recordings that a listing returns. -/
def listed (input : CreateIncidentInput) (order : List RecordingId) : List Recording :=
  (arrange Recording.id order (world.recordings.rows.filter input.overlaps)).take pageLimit

def answerCreate (data : CreateIncidentInput) (outcome : Outcome) :
    Except Failure Incident × World :=
  match outcome with
  | .fail error => (.error error, world)
  | _ =>
    let incident : Incident :=
      { data with id := world.nextIncident, incidentNumber := world.nextIncident }
    (.ok incident,
      { world with
        incidents := world.incidents ++ [incident]
        nextIncident := world.nextIncident + 1 })

/-- A link; a second one for the same pair throws. -/
def answerLink {Key : Type} [DecidableEq Key] (links : List (IncidentId × Key))
    (link : IncidentId × Key) (outcome : Outcome) :
    Except Failure Unit × List (IncidentId × Key) :=
  match outcome with
  | .fail error => (.error error, links)
  | _ =>
    if link ∈ links then
      (.error { code := .p2002, message := "Unique constraint failed" }, links)
    else (.ok (), links ++ [link])

/-- The row a tier update makes; it throws when there is none. -/
def answerLock (recordingId : RecordingId) (outcome : Outcome) : Except Failure Unit × World :=
  match outcome with
  | .fail error => (.error error, world)
  | _ =>
    if (world.recordings.find recordingId).isSome then
      (.ok (), { world with
        recordings := world.recordings.update recordingId { retentionTier := some .incident } })
    else (.error { code := .p2025, message := "Record to update not found." }, world)

end World

def answer (call : Call) (outcome : Outcome) (world : World) : Reply call × World :=
  match call with
  | .createIncident data => world.answerCreate data outcome
  | .findEvents input =>
    (outcome.orFail ((arrange EventRecord.id outcome.eventOrder
      (world.events.filter input.correlates)).take pageLimit), world)
  | .findRecordings input =>
    (outcome.orFail (world.listed input outcome.recordingOrder), world)
  | .linkEvent incidentId eventId =>
    let linked := World.answerLink world.incidentEvents (incidentId, eventId) outcome
    (linked.1, { world with incidentEvents := linked.2 })
  | .linkRecording incidentId recordingId =>
    let linked := World.answerLink world.incidentRecordings (incidentId, recordingId) outcome
    (linked.1, { world with incidentRecordings := linked.2 })
  | .lockRecording recordingId => world.answerLock recordingId outcome
  | .emitEvent event => ((), { world with emitted := world.emitted ++ [event] })

abbrev Async (α : Type) : Type := Program Call Reply Failure α

abbrev call (request : Call) : Async (Reply request) := Program.request request

/-! ### Creating an incident -/

/-- Links one recording and locks it. -/
def lockRecording (incident : Incident) (recording : Recording) : Async Unit := do
  let _ ← call (.linkRecording incident.id recording.id)
  let _ ← call (.lockRecording recording.id)
  pure ()

def createIncident (input : CreateIncidentInput) : Async CreatedIncident := do
  let incident ← orThrow (← call (.createIncident input))
  let events ← orThrow (← call (.findEvents input))
  let () ← events.foldlM (fun _ event ↦ do
    let _ ← call (.linkEvent incident.id event.id)
    pure ()) ()
  let recordings ← orThrow (← call (.findRecordings input))
  let () ← recordings.foldlM (fun _ recording ↦ lockRecording incident recording) ()
  let () ← call (.emitEvent
    { incident, eventsCount := events.length, recordingsCount := recordings.length })
  pure { incident, events, recordings }

end VmsLite.Incidents
