import VmsLite.Async.RelyGuarantee
import VmsLite.Events.EventVisibility
import VmsLite.Users.SequentialSessions

/-!
# The live feed

`WebSocketFeedService`: a request for a socket is let through when its token is good, and the socket
keeps the cameras that its user could view then. Every event on the bus is offered to every open
socket, which decides on the cameras it has; one that has had them for more than a minute also asks
for new ones, for the events after.

The grants on cameras count their changes, and an answer of the database carries the grants as they
were. No code reads either; nor the record of what was sent, with the session and the grants then. A
socket that has closed keeps its place.
-/

set_option autoImplicit false

namespace VmsLite.Events

open Users Async Async.Program
open Recordings (CameraId)

/-! ### Sockets -/

/-- The grants at the moment of a read. -/
structure Reading where
  grants : GrantTables
  readAt : ℤ

/-- An answer of the database about grants. -/
structure Read (α : Type) where
  value : α
  reading : Reading

/-- The cameras that a socket shows, none for all, and the reads they come from. -/
structure Visible where
  cameraIds : Option (List CameraId)
  readings : List Reading

/-- An `AuthenticatedSocket`. -/
structure Socket where
  user : UserTokenPayload
  visible : Visible
  visibleLoadedAt : ℤ
  isOpen : Bool := true
  bufferedAmount : ℕ := 0

/-- The grants were replaced. -/
structure GrantChange where
  changedAt : ℤ
  before : GrantTables

/-- An event that was sent on a socket, with the session of its user and the grants at that time. -/
structure Sent where
  user : UserTokenPayload
  event : EventRecord
  sentAt : ℤ
  sessionIsGood : Bool
  grants : GrantTables
  changes : List GrantChange

namespace FeedModel

/-! ### The world -/

structure World where
  session : Users.World
  grants : GrantTables
  changes : List GrantChange := []
  sockets : List Socket := []
  /-- The sockets that have asked for new cameras. -/
  due : List ℕ := []
  sent : List Sent := []

inductive Call
  | session (call : Users.Call)
  | jwtVerify (token : String)
  | findCameraPermissions (userId : UserId)
  | findSitePermissions (userId : UserId)
  | findCameras (siteIds : List SiteId)
  | handleUpgrade (user : UserTokenPayload) (visible : Visible)
  /-- The resolver is called for a socket. -/
  | takeDue (index : ℕ)
  | setVisible (index : ℕ) (visible : Visible)

@[reducible] def Reply : Call → Type
  | .session call => Users.Reply call
  | .jwtVerify _ => Except Failure UserTokenPayload
  | .findCameraPermissions _ => Except Failure (Read (List CameraPermission))
  | .findSitePermissions _ => Except Failure (Read (List SitePermission))
  | .findCameras _ => Except Failure (Read (List SitedCamera))
  | .handleUpgrade .. | .takeDue _ | .setVisible .. => Unit

/-- The outcome the environment chooses for a call; `claims` answers for the signature of a
token. -/
inductive Outcome
  | ok
  | fail (error : Failure)
  | claims (payload : UserTokenPayload)

def Outcome.toUsers : Outcome → Users.Outcome
  | .fail error => .fail error
  | _ => .ok

namespace World

variable (world : World)

def now : ℤ := world.session.now

def answerFind {α : Type} (outcome : Outcome) (value : α) : Except Failure (Read α) :=
  outcome.toUsers.orFail { value, reading := { grants := world.grants, readAt := world.now } }

end World

def answer (call : Call) (outcome : Outcome) (world : World) : Reply call × World :=
  match call with
  | .session call =>
    let answered := Users.answer call outcome.toUsers world.session
    (answered.1, { world with session := answered.2 })
  | .jwtVerify _ =>
    (match outcome with
      | .claims payload => .ok payload
      | .fail error => .error error
      | .ok => .error { message := "invalid signature" }, world)
  | .findCameraPermissions userId =>
    (world.answerFind outcome (world.grants.cameraPermissions.filter (·.userId = userId)), world)
  | .findSitePermissions userId =>
    (world.answerFind outcome (world.grants.sitePermissions.filter (·.userId = userId)), world)
  | .findCameras siteIds =>
    (world.answerFind outcome (world.grants.cameras.filter (·.siteId.any (· ∈ siteIds))), world)
  | .handleUpgrade user visible =>
    ((), { world with
      sockets := world.sockets ++ [{ user, visible, visibleLoadedAt := world.now }] })
  | .takeDue index => ((), { world with due := world.due.filter (· ≠ index) })
  | .setVisible index visible =>
    ((), { world with sockets := world.sockets.modify index fun socket ↦ { socket with visible } })

/-! ### Broadcasts -/

def accessRefreshMs : ℤ := 60000

def maxBufferSize : ℕ := 1024 * 1024

end FeedModel

namespace Socket

open FeedModel

variable (socket : Socket) (now : ℤ) (event : EventRecord)

/-- Whether an event finds the cameras of the socket old. -/
def isDue : Bool :=
  socket.isOpen && socket.visible.cameraIds.isSome &&
    decide (accessRefreshMs < now - socket.visibleLoadedAt)

def sees : Bool := canSee socket.visible.cameraIds event

def isSlow : Bool := maxBufferSize < socket.bufferedAmount

/-- Whether the event is handed to the socket. -/
def receives : Bool := socket.isOpen && socket.sees event && !socket.isSlow

/-- The socket after it was offered an event. A slow consumer is dropped. -/
def offered : Socket :=
  { socket with
    visibleLoadedAt := if socket.isDue now then now else socket.visibleLoadedAt
    isOpen := socket.isOpen && !(socket.sees event && socket.isSlow) }

end Socket

namespace FeedModel

namespace World

variable (world : World)

def sentTo (event : EventRecord) (socket : Socket) : Sent where
  user := socket.user
  event := event
  sentAt := world.now
  sessionIsGood := world.session.isGood socket.user
  grants := world.grants
  changes := world.changes

/-- `broadcast`; the sends on some sockets throw, and are logged. -/
def broadcast (event : EventRecord) (throwing : List ℕ) : World :=
  if event.type ∈ nonBroadcastEventTypes then world
  else
    { world with
      sockets := world.sockets.map (·.offered world.now event)
      due := world.due ++
        ((world.sockets.zipIdx.filter fun entry ↦ entry.1.isDue world.now).map (·.2))
      sent := world.sent ++
        ((world.sockets.zipIdx.filter fun entry ↦
          entry.1.receives event && entry.2 ∉ throwing).map fun entry ↦
            world.sentTo event entry.1) }

end World

/-! ### What happens around -/

/-- Time passes, users and grants are written, sessions are invalidated, events are emitted, and
sockets fill up and close. -/
inductive EnvironmentChange
  | session (change : Users.EnvironmentChange)
  | sessionsInvalidated (userId : Option UserId) (committedAt : ℕ)
  | grantsWritten (grants : GrantTables)
  | emitted (event : EventRecord) (throwing : List ℕ)
  | buffered (index amount : ℕ)
  | closed (index : ℕ)

def react (change : EnvironmentChange) (world : World) : World :=
  match change with
  | .session change => { world with session := Users.react change world.session }
  | .sessionsInvalidated userId committedAt =>
    { world with session := world.session.invalidate userId committedAt }
  | .grantsWritten grants =>
    { world with
      grants
      changes := world.changes ++ [{ changedAt := world.now, before := world.grants }] }
  | .emitted event throwing => world.broadcast event throwing
  | .buffered index amount =>
    { world with
      sockets := world.sockets.modify index fun socket ↦ { socket with bufferedAmount := amount } }
  | .closed index =>
    { world with
      sockets := world.sockets.modify index fun socket ↦ { socket with isOpen := false } }

/-- A restart of the process closes all sockets. -/
def restart (world : World) : World :=
  { world with
    session := Users.restart world.session
    sockets := world.sockets.map fun socket ↦ { socket with isOpen := false }
    due := [] }

def machine : Machine Call Reply World Outcome EnvironmentChange where
  answer := answer
  synchronous := fun _ ↦ false
  calm := .ok
  react := react
  restart := restart

abbrev Async (α : Type) : Type := Program Call Reply Failure α

abbrev call (request : Call) : Async (Reply request) := Program.request request

/-- A program of the sessions. -/
def onSession {α : Type} : Users.Async α → Async α
  | done value => done value
  | failed error => failed error
  | await request next => await (.session request) fun reply ↦ onSession (next reply)

/-! ### Resolving access -/

/-- Two queries at once, which the database answers in either order. -/
def findGrants (userId : UserId) (cameraFirst : Bool) : Async
    (Except Failure (Read (List CameraPermission)) × Except Failure (Read (List SitePermission))) :=
  if cameraFirst then do
    let cameraGrants ← call (.findCameraPermissions userId)
    let siteGrants ← call (.findSitePermissions userId)
    pure (cameraGrants, siteGrants)
  else do
    let siteGrants ← call (.findSitePermissions userId)
    let cameraGrants ← call (.findCameraPermissions userId)
    pure (cameraGrants, siteGrants)

/-- What `effectiveGrants` reads of the grants, and the reads. -/
def readGrants (userId : UserId) (cameraFirst : Bool) : Async (GrantTables × List Reading) := do
  let (cameraReply, siteReply) ← findGrants userId cameraFirst
  let () ← call (.session .resolved)
  let cameraGrants ← orThrow cameraReply
  let siteGrants ← orThrow siteReply
  if siteGrants.value.isEmpty then
    pure
      ({ cameraPermissions := cameraGrants.value, sitePermissions := [], cameras := [] },
        [cameraGrants.reading, siteGrants.reading])
  else do
    let reply ← call (.findCameras (siteGrants.value.map (·.siteId)))
    let () ← call (.session .resolved)
    let cameras ← orThrow reply
    pure
      ({ cameraPermissions := cameraGrants.value
         sitePermissions := siteGrants.value
         cameras := cameras.value },
        [cameraGrants.reading, siteGrants.reading, cameras.reading])

/-- The grants that the scope of a user depends on. -/
def grantsFor (user : UserTokenPayload) (cameraFirst : Bool) : Async (GrantTables × List Reading) :=
  match user.role with
  | .admin | .viewer => pure ({ cameraPermissions := [], sitePermissions := [], cameras := [] }, [])
  | .operator => readGrants user.id cameraFirst

/-- `accessResolver`. -/
def accessResolver (user : UserTokenPayload) (cameraFirst : Bool) : Async Visible := do
  let () ← call (.session .resolved)
  let (grants, readings) ← grantsFor user cameraFirst
  pure { cameraIds := (CameraScope.forUser grants user).cameraIds .view, readings }

/-! ### Upgrades -/

/-- A request for a socket, with the tokens at its three places. -/
structure UpgradeRequest where
  pathname : String
  queryToken : Option String := none
  bearerToken : Option String := none
  subprotocol : Option String := none

def UpgradeRequest.token (request : UpgradeRequest) : Option String :=
  (carried request.queryToken).or ((carried request.bearerToken).or (carried request.subprotocol))

def feedPath : String := "/api/events/feed"

/-- The verifier that the server attaches the feed with. -/
def verifyToken (token : String) : Async UserTokenPayload := do
  let payload ← orThrow (← call (.jwtVerify token))
  let decision ← onSession (isSessionValid payload)
  if decision.accepted then pure payload else failed { message := "Session revoked" }

def upgrade (request : UpgradeRequest) (cameraFirst : Bool) : Async Unit :=
  if request.pathname ≠ feedPath then pure ()
  else
    match request.token with
    -- The answer is 401, and the connection is destroyed
    | none => pure ()
    | some token => do
      match ← ((verifyToken token).bind fun user ↦ done (some user)).catching fun _ ↦ done none with
      | none => pure ()
      | some user => do
        let visible ← (accessResolver user cameraFirst).catching fun _ ↦
          done { cameraIds := some [], readings := [] }
        call (.handleUpgrade user visible)

/-- The resolver is asked for new cameras of a socket; where it fails, the old ones stay. -/
def refresh (index : ℕ) (user : UserTokenPayload) (cameraFirst : Bool) : Async Unit := do
  let () ← call (.takeDue index)
  ((accessResolver user cameraFirst).bind fun visible ↦
    call (.setVisible index visible)).catching fun _ ↦ done ()

end FeedModel

end VmsLite.Events
