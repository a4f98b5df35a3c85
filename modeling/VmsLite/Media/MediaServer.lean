import VmsLite.Async.RelyGuarantee
import VmsLite.Data.AssociationList
import VmsLite.Media.PathNames
import VmsLite.Media.RtspUrl
import VmsLite.Schedule.WeeklyGrid

/-!
# The world of the media plane

The path table of the media server, the cameras and schedules in the database, and the memory of the
process that keeps the two in step: the previews it opened, the orphans of its last sweep, and which
cameras it takes to be recording. The media server keeps the configuration it was last given, under
the name it was given. A request may fail; one that changes something may do so and still fail, when
only its answer is lost.

`writes` is a record of the run that no program reads: the names of the paths whose configuration a
request set.
-/

set_option autoImplicit false

namespace VmsLite.Media

open VmsLite.Async VmsLite.Schedule Program
open Recordings (CameraId RecordingMode)
open Url (Text)

/-! ### Data -/

structure PathConfig where
  source : Text
  sourceOnDemand : Bool
  record : Bool
  deriving DecidableEq, Repr

structure CameraPaths where
  mediaMtxPath : String
  rtspUrl : Option String
  subMediaMtxPath : Option String
  subStreamUrl : Option String
  deriving DecidableEq, Repr

structure CameraRecordSummary extends CameraPaths where
  id : CameraId
  name : String
  deriving DecidableEq, Repr

/-- A row of `cameras` and its schedule. -/
structure Camera extends CameraRecordSummary where
  schedule : CameraScheduleConfig
  deriving DecidableEq, Repr

structure Failure where
  message : String
  deriving DecidableEq, Repr

/-- `recording.started` and `recording.stopped`. -/
structure RecordingEvent where
  started : Bool
  cameraId : CameraId
  mediaMtxPath : String
  cameraName : String
  mode : RecordingMode
  timestamp : LocalTime
  deriving DecidableEq, Repr

/-- What an add request is answered. -/
inductive AddReply
  | created | alreadyExists
  deriving DecidableEq, Repr

/-! ### World -/

/-- Midnight on a Sunday, where the clock of a new world stands. -/
def midnight : LocalTime := ⟨⟨0, by decide⟩, ⟨0, by decide⟩, ⟨0, by decide⟩⟩

structure World where
  paths : List (String × PathConfig) := []
  cameras : List Camera := []
  /-- `livePreviews`. -/
  livePreviews : List String := []
  /-- `CameraMediaPaths.orphanCandidates` of the scheduler. -/
  orphanCandidates : List String := []
  /-- `RecordingSchedulerCollaborator.recordingStates`. -/
  recordingStates : List (CameraId × Bool) := []
  now : LocalTime := midnight
  /-- Events emitted on the bus, oldest first. -/
  emitted : List RecordingEvent := []
  /-- Requests that set the configuration of a path, oldest first. -/
  writes : List String := []

/-- What the environment makes of a call: it succeeds, or it fails, with its effect or without. -/
inductive Outcome
  | ok
  | fail (error : Failure) (applied : Bool)
  deriving DecidableEq, Repr

/-- The awaited calls of the media plane, then its accesses to the memory of the process. -/
inductive Call
  | postAdd (name : String) (config : PathConfig)
  | postReplace (name : String) (config : PathConfig)
  | patchRecord (name : String) (record : Bool)
  | deletePath (name : String)
  | getConfig (name : String)
  | getRuntime (name : String)
  | listConfigs
  | listAllCameras
  | findRecordingMode (cameraId : CameraId)
  | findScheduleWindows (cameraId : CameraId)
  | replaceSchedule (cameraId : CameraId) (schedule : CameraScheduleConfig)
  | createCamera (camera : Camera)
  | findCamera (cameraId : CameraId)
  | deleteCamera (cameraId : CameraId)
  | emitEvent (event : RecordingEvent)
  | announce (type : String) (cameraId : CameraId)
  | clockNow
  | getRecordingState (cameraId : CameraId)
  | setRecordingState (cameraId : CameraId) (recording : Bool)
  | getLivePreviews
  | addLivePreview (name : String)
  | deleteLivePreview (name : String)
  | getOrphanCandidates
  | setOrphanCandidates (names : List String)
  deriving DecidableEq, Repr

@[reducible] def Reply : Call → Type
  | .postAdd .. => Except Failure AddReply
  | .postReplace .. | .patchRecord .. | .deletePath _ => Except Failure Unit
  | .getConfig _ => Except Failure (Option PathConfig)
  | .getRuntime _ => Unit
  | .listConfigs => Except Failure (List String)
  | .listAllCameras => Except Failure (List CameraRecordSummary)
  | .findRecordingMode _ => Except Failure (Option RecordingMode)
  | .findScheduleWindows _ => Except Failure (List ScheduleWindow)
  | .replaceSchedule .. | .createCamera _ | .deleteCamera _ => Except Failure Unit
  | .findCamera _ => Except Failure (Option CameraRecordSummary)
  | .emitEvent _ | .announce .. => Unit
  | .clockNow => LocalTime
  | .getRecordingState _ => Option Bool
  | .setRecordingState .. => Unit
  | .getLivePreviews | .getOrphanCandidates => List String
  | .addLivePreview _ | .deleteLivePreview _ | .setOrphanCandidates _ => Unit

/-- Calls that touch only the memory of the process. -/
def synchronous : Call → Bool
  | .clockNow | .getRecordingState _ | .setRecordingState .. | .getLivePreviews
  | .addLivePreview _ | .deleteLivePreview _ | .getOrphanCandidates | .setOrphanCandidates _ => true
  | _ => false

def Outcome.orFail {α : Type} (outcome : Outcome) (value : α) : Except Failure α :=
  match outcome with
  | .ok => .ok value
  | .fail error _ => .error error

/-- Whether a call has its effect. -/
def Outcome.applies : Outcome → Bool
  | .ok => true
  | .fail _ applied => applied

namespace World

variable (world : World)

/-- The configuration of a path. -/
def conf (name : String) : Option PathConfig := world.paths.lookup name

def put (name : String) (config : PathConfig) : World :=
  { world with
    paths := (name, config) :: world.paths.filter fun entry ↦ entry.1 ≠ name
    writes := world.writes ++ [name] }

def drop (name : String) : World :=
  { world with paths := world.paths.filter fun entry ↦ entry.1 ≠ name }

/-- A change that the outcome of its request lets through. -/
def change {α : Type} (outcome : Outcome) (value : α) (changed : World) :
    Except Failure α × World :=
  (outcome.orFail value, if outcome.applies then changed else world)

def answerAdd (name : String) (config : PathConfig) (outcome : Outcome) :
    Except Failure AddReply × World :=
  match world.conf name with
  | some _ => (outcome.orFail .alreadyExists, world)
  | none => world.change outcome .created (world.put name config)

def answerPatch (name : String) (record : Bool) (outcome : Outcome) : Except Failure Unit × World :=
  match world.conf name with
  | some config => world.change outcome () (world.put name { config with record := record })
  | none =>
    ((outcome.orFail ()).bind fun _ ↦
      .error { message := "MediaMTX failed to patch path " ++ name ++ ": HTTP 404" }, world)

def camera (cameraId : CameraId) : Option Camera :=
  world.cameras.find? fun camera ↦ camera.id = cameraId

def setSchedule (cameraId : CameraId) (schedule : CameraScheduleConfig) : World :=
  { world with
    cameras := world.cameras.map fun camera ↦
      if camera.id = cameraId then { camera with schedule := schedule } else camera }

/-- The transaction of `saveCameraSchedule`; it throws on a camera that is gone. -/
def answerReplaceSchedule (cameraId : CameraId) (schedule : CameraScheduleConfig)
    (outcome : Outcome) : Except Failure Unit × World :=
  if (world.camera cameraId).isSome then
    world.change outcome () (world.setSchedule cameraId schedule)
  else
    ((outcome.orFail ()).bind fun _ ↦ .error { message := "Record to update not found." }, world)

/-- `create` of a camera; it throws on an id or a path that is taken. -/
def answerCreateCamera (camera : Camera) (outcome : Outcome) : Except Failure Unit × World :=
  if world.cameras.any fun other ↦ other.id = camera.id ||
      other.mediaMtxPath = camera.mediaMtxPath ||
      (other.subMediaMtxPath.isSome && other.subMediaMtxPath = camera.subMediaMtxPath) then
    ((outcome.orFail ()).bind fun _ ↦ .error { message := "Unique constraint failed" }, world)
  else world.change outcome () { world with cameras := world.cameras ++ [camera] }

def answerDeleteCamera (cameraId : CameraId) (outcome : Outcome) : Except Failure Unit × World :=
  if (world.camera cameraId).isSome then
    world.change outcome ()
      { world with cameras := world.cameras.filter fun camera ↦ camera.id ≠ cameraId }
  else
    ((outcome.orFail ()).bind fun _ ↦ .error { message := "Record to delete does not exist." },
      world)

end World

/-- What every call does: its reply and the world after it. -/
def answer (call : Call) (outcome : Outcome) (world : World) : Reply call × World :=
  match call with
  | .postAdd name config => world.answerAdd name config outcome
  | .postReplace name config => world.change outcome () (world.put name config)
  | .patchRecord name record => world.answerPatch name record outcome
  | .deletePath name => world.change outcome () (world.drop name)
  | .getConfig name => (outcome.orFail (world.conf name), world)
  | .getRuntime _ => ((), world)
  | .listConfigs => (outcome.orFail ((world.paths.map Prod.fst).take 1000), world)
  | .listAllCameras =>
    (outcome.orFail (world.cameras.map Camera.toCameraRecordSummary), world)
  | .findRecordingMode cameraId =>
    (outcome.orFail ((world.camera cameraId).map fun camera ↦ camera.schedule.mode), world)
  | .findScheduleWindows cameraId =>
    (outcome.orFail (((world.camera cameraId).map fun camera ↦ camera.schedule.windows).getD []),
      world)
  | .replaceSchedule cameraId schedule => world.answerReplaceSchedule cameraId schedule outcome
  | .createCamera camera => world.answerCreateCamera camera outcome
  | .findCamera cameraId =>
    (outcome.orFail ((world.camera cameraId).map Camera.toCameraRecordSummary), world)
  | .deleteCamera cameraId => world.answerDeleteCamera cameraId outcome
  | .emitEvent event => ((), { world with emitted := world.emitted ++ [event] })
  | .announce .. => ((), world)
  | .clockNow => (world.now, world)
  | .getRecordingState cameraId => (world.recordingStates.lookup cameraId, world)
  | .setRecordingState cameraId recording =>
    ((), { world with recordingStates := (cameraId, recording) :: world.recordingStates })
  | .getLivePreviews => (world.livePreviews, world)
  | .addLivePreview name => ((), { world with livePreviews := name :: world.livePreviews })
  | .deleteLivePreview name =>
    ((), { world with livePreviews := world.livePreviews.filter (· ≠ name) })
  | .getOrphanCandidates => (world.orphanCandidates, world)
  | .setOrphanCandidates names => ((), { world with orphanCandidates := names })

/-- The change that a call makes if it has its effect. -/
def effect (call : Call) (world : World) : World :=
  match call with
  | .postAdd name config | .postReplace name config => world.put name config
  | .patchRecord name record =>
    ((world.conf name).map fun config ↦ world.put name { config with record := record }).getD world
  | .deletePath name => world.drop name
  | .replaceSchedule cameraId schedule => world.setSchedule cameraId schedule
  | .createCamera camera => { world with cameras := world.cameras ++ [camera] }
  | .deleteCamera cameraId =>
    { world with cameras := world.cameras.filter fun camera ↦ camera.id ≠ cameraId }
  | .emitEvent event => { world with emitted := world.emitted ++ [event] }
  | .setRecordingState cameraId recording =>
    { world with recordingStates := (cameraId, recording) :: world.recordingStates }
  | .addLivePreview name => { world with livePreviews := name :: world.livePreviews }
  | .deleteLivePreview name =>
    { world with livePreviews := world.livePreviews.filter (· ≠ name) }
  | .setOrphanCandidates names => { world with orphanCandidates := names }
  | _ => world

theorem change_effect {α : Type} (outcome : Outcome) (value : α) (world changed : World) :
    (world.change outcome value changed).2 = world ∨
      (world.change outcome value changed).2 = changed := by
  unfold World.change
  split_ifs
  · exact Or.inr rfl
  · exact Or.inl rfl

/-- A call leaves the world or has its effect. -/
theorem answer_effect (call : Call) (outcome : Outcome) (world : World) :
    (answer call outcome world).2 = world ∨ (answer call outcome world).2 = effect call world := by
  cases call with
  | postAdd name config =>
    show (world.answerAdd name config outcome).2 = _ ∨ (world.answerAdd name config outcome).2 = _
    unfold World.answerAdd
    cases world.conf name with
    | none => exact change_effect ..
    | some config => exact Or.inl rfl
  | patchRecord name record =>
    show (world.answerPatch name record outcome).2 = _ ∨
      (world.answerPatch name record outcome).2 = effect (.patchRecord name record) world
    simp only [World.answerPatch, effect]
    cases world.conf name with
    | none => exact Or.inl rfl
    | some config => exact change_effect ..
  | postReplace name config => exact change_effect ..
  | deletePath name => exact change_effect ..
  | replaceSchedule cameraId schedule =>
    show (world.answerReplaceSchedule cameraId schedule outcome).2 = _ ∨
      (world.answerReplaceSchedule cameraId schedule outcome).2 = _
    unfold World.answerReplaceSchedule
    split_ifs
    · exact change_effect ..
    · exact Or.inl rfl
  | createCamera camera =>
    show (world.answerCreateCamera camera outcome).2 = _ ∨
      (world.answerCreateCamera camera outcome).2 = _
    unfold World.answerCreateCamera
    split_ifs
    · exact Or.inl rfl
    · exact change_effect ..
  | deleteCamera cameraId =>
    show (world.answerDeleteCamera cameraId outcome).2 = _ ∨
      (world.answerDeleteCamera cameraId outcome).2 = _
    unfold World.answerDeleteCamera
    split_ifs
    · exact change_effect ..
    · exact Or.inl rfl
  | _ => exact Or.inr rfl

/-- What the effect of a call leaves, the call leaves. -/
theorem read_answer {α : Type} (read : World → α) {call : Call} (outcome : Outcome) {world : World}
    (heffect : read (effect call world) = read world) :
    read (answer call outcome world).2 = read world := by
  rcases answer_effect call outcome world with hsame | hdone
  · rw [hsame]
  · rw [hdone, heffect]

/-- Patching a path changes nothing that setting one leaves. -/
theorem read_effect_patchRecord {α : Type} (read : World → α) (name : String) (record : Bool)
    {world : World} (hput : ∀ config, read (world.put name config) = read world) :
    read (effect (.patchRecord name record) world) = read world := by
  simp only [effect]
  cases world.conf name with
  | none => rfl
  | some config => exact hput _

/-- What happens around the process: time, and whoever else talks to the media server. -/
inductive EnvironmentChange
  | clockMoves (now : LocalTime)
  | pathAppears (name : String) (config : PathConfig)
  | pathDisappears (name : String)

def react (change : EnvironmentChange) (world : World) : World :=
  match change with
  | .clockMoves now => { world with now := now }
  | .pathAppears name config =>
    { world with paths := (name, config) :: world.paths.filter fun entry ↦ entry.1 ≠ name }
  | .pathDisappears name => world.drop name

/-- A restart keeps the database and the media server. -/
def restart (world : World) : World :=
  { world with livePreviews := [], orphanCandidates := [], recordingStates := [] }

def machine : Machine Call Reply World Outcome EnvironmentChange where
  answer := answer
  synchronous := synchronous
  calm := .ok
  react := react
  restart := restart

/-- A program of the media plane. -/
abbrev Async (α : Type) : Type := Program Call Reply Failure α

/-- Await one call. -/
abbrev call (request : Call) : Async (Reply request) := Program.request request

/-! ### The client of the media server -/

/-- The name that the media server reads off a request: the client trims it, and encodes it for the
way. -/
def cleanName (name : String) : String := String.ofList (trim name.toList)

/-- `sanitizeRtspUrl`, throwing. -/
def sanitized (url : Text) : Async Text :=
  match sanitizeRtspUrl url with
  | .ok sanitized => pure sanitized
  | .error message => failed { message }

/-- Replaces an existing path configuration. -/
def replacePath (name : String) (config : PathConfig) : Async Unit := do
  orThrow (← call (.postReplace (cleanName name) config))

/-- Adds a path; replaces it if it already exists. -/
def addPath (name : String) (rtspSource : String) (sourceOnDemand record : Bool) : Async Unit := do
  let source ← sanitized (trim rtspSource.toList)
  let config : PathConfig := { source, sourceOnDemand, record }
  match ← orThrow (← call (.postAdd (cleanName name) config)) with
  | .created => pure ()
  | .alreadyExists => replacePath name config

def patchPath (name : String) (record : Bool) : Async Unit := do
  orThrow (← call (.patchRecord (cleanName name) record))

/-- Removes a path. Missing paths count as removed. -/
def removePath (name : String) : Async Unit := do
  orThrow (← call (.deletePath (cleanName name)))

/-- A path's configuration, and its runtime state, which nothing here looks at. -/
def getPath (name : String) : Async (Option PathConfig) := do
  match ← orThrow (← call (.getConfig (cleanName name))) with
  | none => pure none
  | some config => do
    let () ← call (.getRuntime (cleanName name))
    pure (some config)

/-- `.catch(() => {})`. -/
def ignoringErrors (program : Async Unit) : Async Unit := program.catching fun _ ↦ pure ()

/-! ### What the client's requests do -/

section Client

variable (policy : Call → World → Outcome) (world : World)

@[simp] theorem conf_put (name other : String) (config : PathConfig) :
    (world.put name config).conf other = if other =
        name then some config else world.conf other := by
  unfold World.conf World.put
  split_ifs with hother
  · rw [hother]
    exact List.lookup_cons_self
  · rw [List.lookup_cons, beq_false_of_ne hother]
    exact Data.lookup_filter_ne hother

/-- Dropping a path leaves the other ones. -/
theorem conf_drop {name other : String} (hne : other ≠ name) (world : World) :
    (world.drop name).conf other = world.conf other := Data.lookup_filter_ne hne

theorem conf_drop_self (name : String) : (world.drop name).conf name = none :=
  Data.lookup_filter_self

@[simp] theorem writes_put (name : String) (config : PathConfig) :
    (world.put name config).writes = world.writes ++ [name] := rfl

/-- A request that sets a path: it throws and changes nothing, or the path is set, whether or not
its answer arrives. -/
def Sets (name : String) (config : PathConfig) (ran : Except Failure Unit × World) : Prop :=
  ((∃ error, ran.1 = .error error) ∧ ran.2 = world) ∨ ran.2 = world.put name config

variable {world} in
theorem Sets.of_ok {name : String} {config : PathConfig} {ran : Except Failure Unit × World}
    (h : Sets world name config ran) (hok : ran.1 = .ok ()) : ran.2 = world.put name config := by
  rcases h with ⟨⟨error, herror⟩, -⟩ | hput
  · rw [hok] at herror
    cases herror
  · exact hput

theorem eval_getPath (name : String) :
    ∃ reply, eval answer policy (getPath name) world = (reply, world) ∧
      ∀ conf, reply = .ok conf → conf = world.conf (cleanName name) := by
  unfold getPath
  simp only [bind_eq, call, request_bind, eval_await]
  cases houtcome : policy (.getConfig (cleanName name)) world with
  | ok =>
    have hanswer : answer (.getConfig (cleanName name)) .ok world =
        (.ok (world.conf (cleanName name)), world) := rfl
    rw [hanswer]
    cases hconf : world.conf (cleanName name) with
    | none => exact ⟨_, rfl, fun _ hok ↦ (Except.ok.inj hok).symm⟩
    | some config => exact ⟨_, rfl, fun _ hok ↦ (Except.ok.inj hok).symm⟩
  | fail error applied => exact ⟨_, rfl, fun _ hok ↦ by cases hok⟩

theorem eval_replacePath (name : String) (config : PathConfig) :
    Sets world (cleanName name) config (eval answer policy (replacePath name config) world) := by
  unfold replacePath
  simp only [bind_eq, call, request_bind, eval_await]
  cases policy (.postReplace (cleanName name) config) world with
  | ok => exact Or.inr rfl
  | fail error applied =>
    cases applied with
    | false => exact Or.inl ⟨⟨error, rfl⟩, rfl⟩
    | true => exact Or.inr rfl

theorem eval_addPath (name : String) {rtspSource : String} {source : Text}
    (hsource : sanitizeRtspUrl (trim rtspSource.toList) = .ok source)
    (sourceOnDemand record : Bool) :
    Sets world (cleanName name) { source, sourceOnDemand, record }
      (eval answer policy (addPath name rtspSource sourceOnDemand record) world) := by
  unfold addPath sanitized
  simp only [hsource, pure_eq, bind_eq, done_bind, call, request_bind, eval_await]
  generalize policy (.postAdd (cleanName name) { source, sourceOnDemand, record }) world = outcome
  cases hconf : world.conf (cleanName name) with
  | none =>
    cases outcome with
    | ok =>
      right
      simp [answer, World.answerAdd, hconf, World.change, Outcome.orFail, Outcome.applies]
    | fail error applied =>
      cases applied with
      | false =>
        left
        simp [answer, World.answerAdd, hconf, World.change, Outcome.orFail, Outcome.applies]
      | true =>
        right
        simp [answer, World.answerAdd, hconf, World.change, Outcome.orFail, Outcome.applies]
  | some config =>
    cases outcome with
    | ok =>
      have hreplace := eval_replacePath policy world name { source, sourceOnDemand, record }
      simpa [answer, World.answerAdd, hconf, Outcome.orFail] using hreplace
    | fail error applied =>
      left
      simp [answer, World.answerAdd, hconf, Outcome.orFail]

/-- Patching sets the record flag of a path that is there, and throws on one that is not. -/
theorem eval_patchPath (name : String) {config : PathConfig}
    (hconf : world.conf (cleanName name) = some config) (record : Bool) :
    Sets world (cleanName name) { config with record }
      (eval answer policy (patchPath name record) world) := by
  unfold patchPath
  simp only [bind_eq, call, request_bind, eval_await]
  generalize policy (.patchRecord (cleanName name) record) world = outcome
  cases outcome with
  | ok =>
    right
    simp [answer, World.answerPatch, hconf, World.change, Outcome.orFail, Outcome.applies]
  | fail error applied =>
    cases applied with
    | false =>
      left
      simp [answer, World.answerPatch, hconf, World.change, Outcome.orFail, Outcome.applies]
    | true =>
      right
      simp [answer, World.answerPatch, hconf, World.change, Outcome.orFail, Outcome.applies]

end Client

end VmsLite.Media
