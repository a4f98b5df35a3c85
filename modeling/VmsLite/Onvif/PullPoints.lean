import Mathlib.Algebra.Group.Int.Defs
import Mathlib.Data.Fin.Basic
import VmsLite.Async.RelyGuarantee

/-!
# ONVIF subscriptions

The subscription of one camera in `OnvifEventListenerService`: `subscribeCamera`,
`unsubscribeCamera` and the poll cycles, which a timer of the camera starts. A subscription is an
object that a poll cycle holds on to while it awaits, and that `unsubscribeCamera` may put out of
use meanwhile. The texts of the SOAP envelopes are left out: a request is known by its kind and by
where it goes, the reply to a creation by the address that is read off it, trimmed, and the reply to
a pull by the number of notifications that it parses to.

Beside the world stands a log, the newest entry first, of the pull points whose addresses came, and
of what became of them. No code reads it.
-/

set_option autoImplicit false

namespace VmsLite.Onvif

open VmsLite.Async Program

/-! ### The service -/

abbrev TimerId := ℕ

/-- A reference to a subscription object. -/
abbrev SubscriptionId := ℕ

abbrev Url := String

structure Failure where
  message : String
  deriving DecidableEq, Repr

structure CameraSubscriptionInput where
  name : String
  ip : Option String
  port : Option ℕ
  onvifXAddr : Option String
  username : Option String
  password : Option String
  deriving DecidableEq, Repr

structure OnvifEventSubscription where
  cameraName : String
  xaddr : Url
  username : Option String
  password : Option String
  subscriptionUrl : Option Url
  terminationTime : Option ℤ
  active : Bool
  errorCount : ℕ
  lastPoll : Option ℤ
  deriving DecidableEq, Repr, Inhabited

inductive Call
  /-- The entry of `subscriptions`. -/
  | getSubscription
  | setSubscription (sub : SubscriptionId)
  | deleteSubscription
  | newSubscription (subscription : OnvifEventSubscription)
  | read (sub : SubscriptionId)
  | modify (sub : SubscriptionId) (change : OnvifEventSubscription → OnvifEventSubscription)
  /-- The entry of `pollTimeouts`. -/
  | getPollTimeout
  | setPollTimeout (timer : TimerId)
  | deletePollTimeout
  | setTimeout (delayMs : ℕ)
  | clearTimeout (timer : TimerId)
  /-- The runtime takes a timer off its list and runs its callback. -/
  | expire (timer : TimerId)
  | now
  /-- `Math.floor(Math.random() * 500)`. -/
  | jitter
  /-- An Unsubscribe that nothing waits for. -/
  | sendUnsubscribe (url : Url)
  | createPullPoint (sub : SubscriptionId) (xaddr : Url)
  | renew (url : Url)
  | pullMessages (url : Option Url)
  /-- It does not fail: a write that fails and a subscriber that throws are caught in it. -/
  | processEvents (notifications : ℕ)

def Reply : Call → Type
  | .getSubscription => Option SubscriptionId
  | .newSubscription _ => SubscriptionId
  | .read _ => OnvifEventSubscription
  | .getPollTimeout => Option TimerId
  | .setTimeout _ => TimerId
  | .now => ℤ
  | .jitter => Fin 500
  | .createPullPoint .. => Except Failure (Option Url)
  | .renew _ => Except Failure Unit
  | .pullMessages _ => Except Failure ℕ
  | _ => Unit

abbrev Async (α : Type) : Type := Program Call Reply Failure α

/-- Await one call. -/
abbrev call (request : Call) : Async (Reply request) := Program.request request

/-- A text that is there and not empty. -/
def truthy (value : Option String) : Option String := value.filter (· ≠ "")

def subscriptionLifetimeMs : ℤ := 120000

def renewMarginMs : ℤ := 30000

/-- Schedules the next poll cycle. -/
def schedulePoll (delayMs : ℕ) : Async Unit := do
  if let some existing ← call .getPollTimeout then
    call (.clearTimeout existing)
  let timer ← call (.setTimeout delayMs)
  call (.setPollTimeout timer)

/-- Schedules the cycle after a failure, of a subscription that is in use. -/
def reconnect (subscription : OnvifEventSubscription) : Async Unit := do
  if subscription.active then
    let backoffMs := min 30000 (Nat.pow 2 subscription.errorCount * 1000)
    let jitter : Fin 500 ← call .jitter
    schedulePoll (backoffMs + jitter.val)

/-- Schedules a poll cycle of the subscription that the camera has by now. -/
def scheduleReconnect : Async Unit := do
  match ← call .getSubscription with
  | none => return
  | some sub => reconnect (← call (.read sub))

def noAddress : Failure := ⟨"No SubscriptionReference Address returned in PullPoint response"⟩

/-- What is read off the reply to a creation. -/
def takeAddress (sub : SubscriptionId) : Option Url → Async Unit
  | none => orThrow (.error noAddress)
  | some address => do
    let now : ℤ ← call .now
    call (.modify sub fun subscription ↦
      { subscription with
        subscriptionUrl := some address
        terminationTime := some (now + subscriptionLifetimeMs) })

def initiatePullPointSubscription (sub : SubscriptionId) : Async Unit := do
  let subscription : OnvifEventSubscription ← call (.read sub)
  let address ← orThrow (← call (.createPullPoint sub subscription.xaddr))
  takeAddress sub address

/-- Extends the lifetime of a pull point. -/
def renewSubscription (sub : SubscriptionId) (url : Url) : Async Unit := do
  orThrow (← call (.renew url))
  let now : ℤ ← call .now
  call (.modify sub fun subscription ↦
    { subscription with terminationTime := some (now + subscriptionLifetimeMs) })

/-- A live pull point has less than the margin left. -/
def isDue (terminationTime : Option ℤ) (now : ℤ) : Bool :=
  match terminationTime with
  | none => true
  | some time => time - now < renewMarginMs

/-- Renews a pull point that is due; where that fails, another is created. -/
def renewIfDue (sub : SubscriptionId) (subscription : OnvifEventSubscription)
    (url : Url) (now : ℤ) :
    Async Unit := do
  if isDue subscription.terminationTime now then
    (renewSubscription sub url).catching fun _ ↦ initiatePullPointSubscription sub

def ensurePullPoint (sub : SubscriptionId) (subscription : OnvifEventSubscription) :
    Async Unit := do
  match truthy subscription.subscriptionUrl with
  | none => initiatePullPointSubscription sub
  | some url => renewIfDue sub subscription url (← call .now)

/-- The rest of a poll cycle, once the notifications are there. -/
def takeNotifications (sub : SubscriptionId) (notifications : ℕ) : Async Unit := do
  let now : ℤ ← call .now
  call (.modify sub fun subscription ↦
    { subscription with lastPoll := some now, errorCount := 0 })
  if 0 < notifications then
    call (.processEvents notifications)
  schedulePoll 100

/-- Pulls for a subscription that is in use. -/
def pullFrom (sub : SubscriptionId) (subscription : OnvifEventSubscription) : Async Unit := do
  if subscription.active then
    let notifications ← orThrow (← call (.pullMessages subscription.subscriptionUrl))
    takeNotifications sub notifications

/-- The rest of a poll cycle, once there is a pull point. -/
def pullPoint (sub : SubscriptionId) : Async Unit := do
  pullFrom sub (← call (.read sub))

/-- A failure drops the pull point, and the next cycle creates another. -/
def pollFailed (sub : SubscriptionId) : Async Unit := do
  call (.modify sub fun subscription ↦
    { subscription with
      errorCount := subscription.errorCount + 1
      subscriptionUrl := none
      terminationTime := none })
  scheduleReconnect

/-- A poll cycle of a subscription that is in use. -/
def pollCycle (sub : SubscriptionId) (subscription : OnvifEventSubscription) : Async Unit := do
  if subscription.active then
    (do
      ensurePullPoint sub subscription
      pullPoint sub).catching fun _ ↦ pollFailed sub

/-- One poll cycle. -/
def pollOnce : Async Unit := do
  match ← call .getSubscription with
  | none => return
  | some sub => pollCycle sub (← call (.read sub))

/-- The callback of a poll timer. -/
def pollTimerFires (timer : TimerId) : Async Unit := do
  call (.expire timer)
  pollOnce.catching fun _ ↦ pure ()

/-- Frees the pull point at the camera: devices allow only a handful. -/
def releasePullPoint (mockMode : Bool) (subscription : OnvifEventSubscription) : Async Unit := do
  match truthy subscription.subscriptionUrl with
  | some url => if !mockMode then call (.sendUnsubscribe url)
  | none => return

/-- Puts the subscription of the camera out of use, if it has one. -/
def dropSubscription (mockMode : Bool) : Async Unit := do
  match ← call .getSubscription with
  | none => return
  | some sub =>
    call (.modify sub fun subscription ↦ { subscription with active := false })
    call .deleteSubscription
    releasePullPoint mockMode (← call (.read sub))

/-- Ends the subscription of the camera. -/
def unsubscribeCamera (mockMode : Bool) : Async Unit := do
  if let some timeout ← call .getPollTimeout then
    call (.clearTimeout timeout)
    call .deletePollTimeout
  dropSubscription mockMode

def CameraSubscriptionInput.xaddr (camera : CameraSubscriptionInput) : Url :=
  (truthy camera.onvifXAddr).getD
    ("http://" ++ (truthy camera.ip).getD "127.0.0.1" ++ ":" ++
      toString ((camera.port.filter (· ≠ 0)).getD 80) ++ "/onvif/device_service")

/-- A subscription without a pull point, in use. -/
def CameraSubscriptionInput.subscription (camera : CameraSubscriptionInput) :
    OnvifEventSubscription where
  cameraName := camera.name
  xaddr := camera.xaddr
  username := truthy camera.username
  password := truthy camera.password
  subscriptionUrl := none
  terminationTime := none
  active := true
  errorCount := 0
  lastPoll := none

/-- Subscribes the camera anew. -/
def subscribeCamera (mockMode : Bool) (camera : CameraSubscriptionInput) : Async Unit := do
  unsubscribeCamera mockMode
  let sub ← call (.newSubscription camera.subscription)
  call (.setSubscription sub)
  if mockMode then
    let now : ℤ ← call .now
    call (.modify sub fun subscription ↦
      { subscription with
        subscriptionUrl :=
          some s!"http://mock-camera:{(camera.port.filter (· ≠ 0)).getD 80}/onvif/subscription/1"
        terminationTime := some (now + 60000) })
  else
    schedulePoll 100

/-! ### The machine -/

/-- What happens to a pull point of the camera. -/
inductive Notice
  /-- Its address came. -/
  | received (url : Url)
  /-- An Unsubscribe was sent to it. -/
  | unsubscribed (url : Url)
  /-- A request to it failed. -/
  | failed (url : Url)
  deriving DecidableEq, Repr

/-- The least that a delay may be lengthened by. -/
def leastJitter : Fin 500 := ⟨0, Nat.succ_pos 499⟩

structure World where
  subscription : Option SubscriptionId := none
  objects : SubscriptionId → OnvifEventSubscription := fun _ ↦ default
  nextSubscription : SubscriptionId := 0
  pollTimeout : Option TimerId := none
  /-- The timers that will fire. -/
  pending : List TimerId := []
  nextTimer : TimerId := 0
  now : ℤ := 0
  jitter : Fin 500 := leastJitter
  log : List Notice := []

/-- How an awaited call ends: with a failure, or with an address or with notifications. -/
structure Outcome where
  failure : Option Failure := none
  address : Option Url := none
  notifications : ℕ := 0
  deriving DecidableEq, Repr

/-- The error of a request without an address to go to. -/
def invalidUrl : Failure := ⟨"Failed to parse URL"⟩

/-- How the request for messages ends. -/
def Outcome.pulled (outcome : Outcome) (url : Option Url) : Except Failure ℕ :=
  match truthy url, outcome.failure with
  | none, _ => .error invalidUrl
  | some _, some failure => .error failure
  | some _, none => .ok outcome.notifications

def Outcome.reply (outcome : Outcome) : Except Failure Unit :=
  match outcome.failure with
  | some failure => .error failure
  | none => .ok ()

def Outcome.created (outcome : Outcome) : Except Failure (Option Url) :=
  match outcome.failure with
  | some failure => .error failure
  | none => .ok outcome.address

namespace World

/-- Appends to the log, of addresses that are not blank. -/
def note (world : World) (notice : Url → Notice) (url : Option Url) : World :=
  match truthy url with
  | some url => { world with log := notice url :: world.log }
  | none => world

def modify (world : World) (sub : SubscriptionId)
    (change : OnvifEventSubscription → OnvifEventSubscription) : World :=
  { world with objects := Function.update world.objects sub (change (world.objects sub)) }

end World

def answer : (call : Call) → Outcome → World → Reply call × World
  | .getSubscription, _, world => (world.subscription, world)
  | .setSubscription sub, _, world => ((), { world with subscription := some sub })
  | .deleteSubscription, _, world => ((), { world with subscription := none })
  | .newSubscription subscription, _, world =>
    (world.nextSubscription,
      { world with
        objects := Function.update world.objects world.nextSubscription subscription
        nextSubscription := world.nextSubscription + 1 })
  | .read sub, _, world => (world.objects sub, world)
  | .modify sub change, _, world => ((), world.modify sub change)
  | .getPollTimeout, _, world => (world.pollTimeout, world)
  | .setPollTimeout timer, _, world => ((), { world with pollTimeout := some timer })
  | .deletePollTimeout, _, world => ((), { world with pollTimeout := none })
  | .setTimeout _, _, world =>
    (world.nextTimer,
      { world with
        pending := world.pending ++ [world.nextTimer]
        nextTimer := world.nextTimer + 1 })
  | .clearTimeout timer, _, world =>
    ((), { world with pending := world.pending.filter (· ≠ timer) })
  | .expire timer, _, world => ((), { world with pending := world.pending.filter (· ≠ timer) })
  | .now, _, world => (world.now, world)
  | .jitter, _, world => (world.jitter, world)
  | .sendUnsubscribe url, _, world => ((), world.note .unsubscribed (some url))
  | .createPullPoint .., outcome, world =>
    match outcome.created with
    | .ok address => (.ok address, world.note .received address)
    | .error failure => (.error failure, world)
  | .renew url, outcome, world =>
    match outcome.reply with
    | .ok () => (.ok (), world)
    | .error failure => (.error failure, world.note .failed (some url))
  | .pullMessages url, outcome, world =>
    match outcome.pulled url with
    | .ok notifications => (.ok notifications, world)
    | .error failure => (.error failure, world.note .failed url)
  | .processEvents _, _, world => ((), world)

/-- The calls that the service awaits. -/
def Call.isAwaited : Call → Bool
  | .createPullPoint .. | .renew _ | .pullMessages _ | .processEvents _ => true
  | _ => false

/-- Time goes by, and with it the jitter changes. -/
structure Tick where
  now : ℤ
  jitter : Fin 500
  deriving DecidableEq, Repr

def machine : Machine Call Reply World Outcome Tick where
  answer := answer
  synchronous := fun call ↦ !call.isAwaited
  calm := {}
  react := fun tick world ↦ { world with now := tick.now, jitter := tick.jitter }
  restart := fun _ ↦ {}

end VmsLite.Onvif
