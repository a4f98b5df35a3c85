import Mathlib.Data.Rat.Defs
import VmsLite.Async.RelyGuarantee

/-!
# The PTZ service

`PtzService.move` commands a camera and sets a watchdog timer, which stops the camera when no other
command comes; `stop` clears the timer and commands a stop. The clearing of the old timer, the
command and the new timer are separate steps with awaits between them, and a watchdog that fires
edits the same map. The module is about the calls for one camera and its entry of the map. A command
reaches the camera in the step in which its reply is awaited. Speeds are rationals, as a request
carries them.
-/

set_option autoImplicit false

namespace VmsLite.Ptz

open VmsLite.Async Program

/-! ### The service -/

abbrev CameraId := String

abbrev TimerId := ℕ

/-- What the service reads of a row of `cameras`. -/
structure CameraRow where
  name : String
  onvifUrl : Option String
  ip : Option String
  port : Option ℤ
  username : Option String
  password : Option String
  profileToken : Option String
  deriving DecidableEq, Repr

structure CameraConnectionParams where
  xaddr : Option String
  ip : Option String
  port : Option ℤ
  username : Option String
  password : Option String
  deriving DecidableEq, Repr

structure PtzVelocity where
  x : Option ℚ
  y : Option ℚ
  z : Option ℚ
  deriving DecidableEq, Repr

structure PtzSpeed where
  x : ℚ
  y : ℚ
  z : ℚ
  deriving DecidableEq, Repr

structure PtzMoveParams where
  speed : PtzSpeed
  timeout : ℕ
  deriving DecidableEq, Repr

inductive PtzError
  | cameraNotFound (cameraId : CameraId)
  | ptzNotSupported (message : String)
  /-- An error of the database or of the provider. -/
  | failure (message : String)
  deriving DecidableEq, Repr

structure PtzResult where
  success : Bool
  moving : Bool
  deriving DecidableEq, Repr

inductive Call
  | findCamera (cameraId : CameraId)
  | ptzMove (params : CameraConnectionParams) (moveParams : PtzMoveParams)
      (profileToken : Option String)
  | ptzStop (params : CameraConnectionParams) (profileToken : Option String)
  | getWatchdog
  | setWatchdog (timer : TimerId)
  | deleteWatchdog
  | setTimeout
  | clearTimeout (timer : TimerId)
  /-- The runtime takes a timer off its list and runs its callback. -/
  | expire (timer : TimerId)
  deriving DecidableEq, Repr

def Reply : Call → Type
  | .findCamera _ => Except PtzError (Option CameraRow)
  | .ptzMove .. => Except PtzError Unit
  | .ptzStop .. => Except PtzError Unit
  | .getWatchdog => Option TimerId
  | .setTimeout => TimerId
  | _ => Unit

abbrev Async (α : Type) : Type := Program Call Reply PtzError α

/-- Await one call. -/
abbrev call (request : Call) : Async (Reply request) := Program.request request

/-- Clears any active watchdog timer. -/
def clearWatchdog : Async Unit := do
  match ← call .getWatchdog with
  | some existing =>
    call (.clearTimeout existing)
    call .deleteWatchdog
  | none => return

/-- `value || undefined` of a text. -/
def orUndefined (value : Option String) : Option String := value.filter (· ≠ "")

/-- The connection parameters of a row that was looked up, with the profile token. -/
def connectionParams (cameraId : CameraId) :
    Option CameraRow → Except PtzError (CameraConnectionParams × Option String)
  | none => .error (.cameraNotFound cameraId)
  | some camera =>
    if orUndefined camera.onvifUrl = none ∧ orUndefined camera.ip = none then
      .error (.ptzNotSupported
        s!"Camera '{camera.name}' does not have ONVIF network settings configured")
    else
      .ok
        ({ xaddr := orUndefined camera.onvifUrl
           ip := orUndefined camera.ip
           port := camera.port.filter (· ≠ 0)
           username := orUndefined camera.username
           password := orUndefined camera.password },
          orUndefined camera.profileToken)

def getConnectionParams (cameraId : CameraId) : Async (CameraConnectionParams × Option String) := do
  let camera ← orThrow (← call (.findCamera cameraId))
  orThrow (connectionParams cameraId camera)

/-- Clamps a speed to [-1, 1]. -/
def clamp (speed : Option ℚ) : ℚ :=
  let value := speed.getD 0
  if 1 < value then 1 else if value < -1 then -1 else value

def moveParams (velocity : PtzVelocity) : PtzMoveParams where
  speed := { x := clamp velocity.x, y := clamp velocity.y, z := clamp velocity.z }
  timeout := 2

/-- Commands continuous movement and starts the watchdog. -/
def move (cameraId : CameraId) (velocity : PtzVelocity) : Async PtzResult := do
  let (params, profileToken) ← getConnectionParams cameraId
  clearWatchdog
  orThrow (← call (.ptzMove params (moveParams velocity) profileToken))
  let timer ← call .setTimeout
  call (.setWatchdog timer)
  return { success := true, moving := true }

/-- Halts the movement and cancels the watchdog. -/
def stop (cameraId : CameraId) : Async PtzResult := do
  clearWatchdog
  let (params, profileToken) ← getConnectionParams cameraId
  orThrow (← call (.ptzStop params profileToken))
  return { success := true, moving := false }

/-- A program whose result nothing waits for. -/
def ignoringResult (program : Async PtzResult) : Async Unit := do
  let _ ← program
  return

/-- The callback of a watchdog timer. -/
def watchdogFires (cameraId : CameraId) (timer : TimerId) : Async Unit := do
  call (.expire timer)
  (ignoringResult (stop cameraId)).catching fun _ ↦ pure ()
  call .deleteWatchdog

/-! ### The machine -/

/-- What the camera was last made to do. -/
inductive PtzCommand
  | move (params : PtzMoveParams)
  | stop
  deriving DecidableEq, Repr

structure World where
  /-- The last command that the camera accepted. -/
  lastCommand : Option PtzCommand := none
  /-- The entry of `activeWatchdogs`. -/
  activeWatchdog : Option TimerId := none
  /-- The timers that will fire. -/
  pending : List TimerId := []
  nextTimer : TimerId := 0
  deriving DecidableEq, Repr

/-- How an awaited call ends: the row that a lookup finds, or an error. -/
structure Outcome where
  row : Option CameraRow := none
  error : Option PtzError := none
  deriving DecidableEq, Repr

/-- The reply to a command. -/
def Outcome.reply (outcome : Outcome) : Except PtzError Unit :=
  match outcome.error with
  | some error => .error error
  | none => .ok ()

/-- The reply to a lookup. -/
def Outcome.found (outcome : Outcome) : Except PtzError (Option CameraRow) :=
  match outcome.error with
  | some error => .error error
  | none => .ok outcome.row

def World.accept (world : World) (outcome : Outcome) (command : PtzCommand) : World :=
  match outcome.error with
  | some _ => world
  | none => { world with lastCommand := some command }

theorem World.accept_of_none (world : World) {outcome : Outcome} {command : PtzCommand}
    (herror : outcome.error = none) :
    world.accept outcome command = { world with lastCommand := some command } := by
  unfold accept
  rw [herror]

theorem World.accept_of_some (world : World) {outcome : Outcome} {command : PtzCommand}
    {error : PtzError} (herror : outcome.error = some error) :
        world.accept outcome command = world := by
  unfold accept
  rw [herror]

def answer : (call : Call) → Outcome → World → Reply call × World
  | .findCamera _, outcome, world => (outcome.found, world)
  | .ptzMove _ moveParams _, outcome, world =>
    (outcome.reply, world.accept outcome (.move moveParams))
  | .ptzStop .., outcome, world => (outcome.reply, world.accept outcome .stop)
  | .getWatchdog, _, world => (world.activeWatchdog, world)
  | .setWatchdog timer, _, world => ((), { world with activeWatchdog := some timer })
  | .deleteWatchdog, _, world => ((), { world with activeWatchdog := none })
  | .setTimeout, _, world =>
    (world.nextTimer,
      { world with
        pending := world.pending ++ [world.nextTimer]
        nextTimer := world.nextTimer + 1 })
  | .clearTimeout timer, _, world =>
    ((), { world with pending := world.pending.filter (· ≠ timer) })
  | .expire timer, _, world => ((), { world with pending := world.pending.filter (· ≠ timer) })

/-- The calls that the service awaits. -/
def Call.isAwaited : Call → Bool
  | .findCamera _ | .ptzMove .. | .ptzStop .. => true
  | _ => false

def machine : Machine Call Reply World Outcome Empty where
  answer := answer
  synchronous := fun call ↦ !call.isAwaited
  calm := {}
  react := nofun
  restart := fun _ ↦ {}

end VmsLite.Ptz
