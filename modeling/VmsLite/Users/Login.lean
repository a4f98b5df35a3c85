import VmsLite.Users.Session

/-!
# Logging in

`POST /api/auth/login` with its throttle, beside the operations of sessions. The requests come from
one address. The throttle counts failures for the address and for each of its user names, in the
memory of the process, inside a fixed window; a successful login clears the counter of its name.

Three records are kept that no code reads: the logins that were decided, the tokens that were
signed, and the version that each write gave its user.
-/

set_option autoImplicit false

namespace VmsLite.Users.Login

open VmsLite.Async Program

/-! ### The throttle -/

/-- The address that requests come from, and how names are compared. -/
structure Client where
  ip : String
  toLowerCase : String → String

/-- What the throttle of `authRoutes` allows. -/
def maxPerUser : ℕ := 5

def maxPerIp : ℕ := 20

def windowMs : ℤ := 15 * 60 * 1000

/-- A window of a counter. -/
structure ThrottleWindow where
  count : ℕ
  windowStart : ℤ
  deriving DecidableEq, Repr

/-- The counters of one address: one for each name, in lower case, and one for all. -/
inductive Counter
  | user (name : String)
  | address
  deriving DecidableEq, Repr

def Counter.max : Counter → ℕ
  | .user _ => maxPerUser
  | .address => maxPerIp

namespace Client

variable (client : Client)

/-- `userKey` and `ipKey`. -/
def key : Counter → String
  | .user name => "u:" ++ client.ip ++ ":" ++ name
  | .address => "ip:" ++ client.ip

def userCounter (username : String) : Counter := .user (client.toLowerCase username)

end Client

/-- A login that was decided. -/
structure Attempt where
  username : String
  succeeded : Bool
  time : ℤ
  deriving DecidableEq, Repr

/-- A token that was signed, and the number of writes to the table of users before. -/
structure SignedToken where
  payload : UserTokenPayload
  signedAt : ℕ
  deriving DecidableEq, Repr

/-! ### The world -/

structure World where
  session : Users.World
  /-- The column `username`, which no operation here changes. -/
  usernames : List (String × UserId) := []
  /-- `LoginThrottle.failures`. -/
  failures : List (String × ThrottleWindow) := []
  attempts : List Attempt := []
  signed : List SignedToken := []
  /-- The number and the token version of each write that updated a user. -/
  versions : List (ℕ × ℤ) := []

inductive Call
  | session (call : Users.Call)
  | findUserByName (username : String)
  | audit (action : String)
  | sign (payload : UserTokenPayload)
  | prune
  /-- An entry of `failures`, and the time. -/
  | failuresGet (counter : Counter)
  | recordFailure (username : String)
  | recordSuccess (username : String)
  deriving DecidableEq, Repr

@[reducible] def Reply : Call → Type
  | .session call => Users.Reply call
  | .findUserByName _ => Except Failure (Stamped (Option User))
  | .audit _ | .sign _ | .prune | .recordFailure _ | .recordSuccess _ => Unit
  | .failuresGet _ => Option ThrottleWindow × ℤ

/-- The accesses to the throttle, which nothing interrupts. -/
def synchronous : Call → Bool
  | .prune | .failuresGet _ | .recordFailure _ | .recordSuccess _ => true
  | _ => false

namespace World

variable (world : World)

def now : ℤ := world.session.now

/-- Whether the window of an entry is over. -/
def isOver (entry : ThrottleWindow) : Bool := windowMs ≤ world.now - entry.windowStart

def userByName (username : String) : Option User :=
  (world.usernames.lookup username).bind fun userId ↦
    world.session.users.find? fun user ↦ user.id = userId

/-- Forget the windows that are over, once there are many. -/
def prune : World :=
  if world.failures.length < 10000 then world
  else { world with failures := world.failures.filter fun stored ↦ !world.isOver stored.2 }

/-- The window of a counter after one more failure. -/
def counted (key : String) : ThrottleWindow :=
  match (world.failures.lookup key).filter fun entry ↦ !world.isOver entry with
  | some entry => { entry with count := entry.count + 1 }
  | none => { count := 1, windowStart := world.now }

def countFailure (key : String) : World :=
  { world with
    failures := (key, world.counted key) :: world.failures.filter fun stored ↦ stored.1 ≠ key }

def decided (username : String) (succeeded : Bool) : World :=
  { world with attempts := world.attempts ++ [{ username, succeeded, time := world.now }] }

def recordFailure (client : Client) (username : String) : World :=
  ((world.countFailure (client.key (client.userCounter username))).countFailure
    (client.key .address)).decided username false

def recordSuccess (client : Client) (username : String) : World :=
  ({ world with failures := world.failures.filter fun stored ↦
      stored.1 ≠ client.key (client.userCounter username) } : World).decided username true

end World

/-- The version that a write gave its user. -/
def writtenVersion : (call : Users.Call) → Users.Reply call → List (ℕ × ℤ)
  | .updateUser .., .ok updated => [(updated.revision, updated.value.tokenVersion)]
  | _, _ => []

def answer (client : Client) (call : Call) (outcome : Outcome) (world : World) :
    Reply call × World :=
  match call with
  | .session call =>
    let answered := Users.answer call outcome world.session
    (answered.1,
      { world with
        session := answered.2
        versions := world.versions ++ writtenVersion call answered.1 })
  | .findUserByName username =>
    (outcome.orFail { value := world.userByName username, revision := world.session.revision },
      world)
  | .audit _ => ((), world)
  | .sign payload =>
    ((), { world with
      signed := world.signed ++ [{ payload, signedAt := world.session.revision }] })
  | .prune => ((), world.prune)
  | .failuresGet counter => ((world.failures.lookup (client.key counter), world.now), world)
  | .recordFailure username => ((), world.recordFailure client username)
  | .recordSuccess username => ((), world.recordSuccess client username)

/-- A restart of the process loses what it has in memory. -/
def restart (world : World) : World :=
  { world with session := Users.restart world.session, failures := [] }

def machine (client : Client) : Machine Call Reply World Outcome EnvironmentChange where
  answer := answer client
  synchronous := synchronous
  calm := .ok
  react := fun event world ↦ { world with session := Users.react event world.session }
  restart := restart

abbrev Async (α : Type) : Type := Program Call Reply Failure α

abbrev call (request : Call) : Async (Reply request) := Program.request request

/-- A program of the sessions. -/
def onSession {α : Type} : Users.Async α → Async α
  | done value => done value
  | failed error => failed error
  | await request next => await (.session request) fun reply ↦ onSession (next reply)

/-! ### The route -/

/-- `Math.ceil(ms / 1000)`. -/
def ceilSeconds (ms : ℤ) : ℤ := -(-ms / 1000)

/-- The seconds until a counter that is full may go on, as far as it is. -/
def blockedFor (counter : Counter) : Async (Option ℤ) := do
  let (entry, now) ← call (.failuresGet counter)
  pure ((entry.filter fun entry ↦ counter.max ≤ entry.count).map fun entry ↦
    ceilSeconds (entry.windowStart + windowMs - now))

/-- Seconds until the caller may retry, or 0 when allowed. -/
def retryAfterSeconds (client : Client) (username : String) : Async ℤ := do
  let () ← call .prune
  match ← blockedFor (client.userCounter username) with
  | some seconds => pure seconds
  | none => do
    let blocked ← blockedFor .address
    pure (blocked.getD 0)

def verifyCredentials (username password : String) : Async (Option User) := do
  let reply ← call (.findUserByName username)
  let () ← call (.session .resolved)
  let found ← orThrow reply
  match found.value with
  | none => pure none
  | some user => do
    let isValid ← call (.session (.verifyPassword password user.passwordHash))
    pure (if isValid then some user else none)

def tokenClaims (user : User) : UserTokenPayload where
  id := user.id
  role := user.role
  tv := some user.tokenVersion

/-- `POST /api/auth/login`. -/
def login (client : Client) (username password : String) : Async Unit :=
  if username = "" || password = "" then pure ()
  else do
    let retryAfter ← retryAfterSeconds client username
    if 0 < retryAfter then pure ()
    else do
      match ← verifyCredentials username password with
      | none => do
        let () ← call (.recordFailure username)
        call (.audit "AUTH_FAILURE")
      | some user => do
        let () ← call (.recordSuccess username)
        let () ← call (.audit "AUTH_LOGIN")
        call (.sign (tokenClaims user))

end VmsLite.Users.Login
