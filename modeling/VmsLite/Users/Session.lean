import Mathlib.Data.Int.Order.Basic
import VmsLite.Async.RelyGuarantee

/-!
# Sessions

The server-side check of a session token, `isSessionValid`, with its cache, and the operations of
`AuthService` that revoke tokens. A query of the database takes two steps: the database answers it,
and later the answer reaches the process (`Call.resolved`), so that anything may happen between the
two. The table of users counts its writes; an answer carries the number of writes it saw. No code
reads that number: it says which data an answer rests on. Two more things are recorded and read by
no code: which revocations have returned, and what every finished check decided.

A cache that holds more than 5000 users drops its oldest entry.
-/

set_option autoImplicit false

namespace VmsLite.Users

open VmsLite.Async Program

/-! ### Data -/

abbrev UserId := String

inductive Role
  | admin | operator | viewer
  deriving DecidableEq, Repr

/-- A row of `users`, with the columns that sessions depend on. -/
structure User where
  id : UserId
  passwordHash : String
  role : Role := .viewer
  tokenVersion : ℤ := 0
  deriving DecidableEq, Repr

/-- The claims of a token. `tv` is absent on tokens issued before versioning. -/
structure UserTokenPayload where
  id : UserId
  role : Role
  tv : Option ℤ := none
  deriving DecidableEq, Repr

/-- What a session check selects of a user. -/
structure SessionUser where
  role : Role
  tokenVersion : ℤ
  deriving DecidableEq, Repr

/-- An entry of the cache; `readAt` is the number of writes that its data had seen. -/
structure CacheEntry where
  storedAt : ℤ
  user : Option SessionUser
  readAt : ℕ
  deriving DecidableEq, Repr

/-- An answer of the database, and the number of writes it had seen. -/
structure Stamped (α : Type) where
  value : α
  revision : ℕ

/-- A `UserAdminError`, or an error of the database (with no status code). -/
structure Failure where
  statusCode : Option ℕ := none
  message : String
  deriving DecidableEq, Repr

/-- A revocation whose `invalidateSessionCache` has returned: whose tokens, and which write. -/
structure Revocation where
  userId : Option UserId
  committedAt : ℕ
  deriving DecidableEq, Repr

/-- Whether a revocation is one of this user's tokens. -/
def Revocation.covers (revocation : Revocation) (userId : UserId) : Prop :=
  revocation.userId = none ∨ revocation.userId = some userId

/-- What `isSessionValid` decided, and on which entry, if it looked at one. -/
structure Decision where
  accepted : Bool
  entry : Option CacheEntry
  deriving DecidableEq, Repr

/-- A finished check, with the revocations that had returned when it started. -/
structure Verdict where
  payload : UserTokenPayload
  returnedBefore : List Revocation
  decision : Decision
  deriving DecidableEq, Repr

/-! ### The world -/

structure World where
  users : List User := []
  /-- How many writes the table of users has seen. -/
  revision : ℕ := 0
  now : ℤ := 0
  /-- `cache`, in insertion order. -/
  cache : List (UserId × CacheEntry) := []
  generations : List (UserId × ℕ) := []
  globalGeneration : ℕ := 0
  returned : List Revocation := []
  verdicts : List Verdict := []

/-- The queries, and the accesses to the memory of the process. -/
inductive Call
  | findUser (userId : UserId)
  | countAdmins
  /-- `update`, with the data it sets. -/
  | updateUser (userId : UserId) (role : Option Role) (passwordHash : Option String)
      (tokenVersion : ℤ)
  | deleteUser (userId : UserId)
  /-- The answer to a query reaches the process. -/
  | resolved
  | hashPassword (password : String)
  | verifyPassword (password hash : String)
  | dateNow
  | cacheGet (userId : UserId)
  | generationOf (userId : UserId)
  /-- Store an entry, if the generation is still the one that was read. -/
  | cacheSetIf (userId : UserId) (generation : ℕ × ℕ) (entry : CacheEntry)
  /-- `invalidateSessionCache`, after the write `committedAt`. -/
  | invalidateSessionCache (userId : Option UserId) (committedAt : ℕ)
  | report (verdict : Verdict)
  deriving DecidableEq, Repr

@[reducible] def Reply : Call → Type
  | .findUser _ => Except Failure (Stamped (Option User))
  | .countAdmins => Except Failure ℕ
  | .updateUser .. => Except Failure (Stamped User)
  | .deleteUser _ => Except Failure (Stamped User)
  | .resolved => Unit
  | .hashPassword _ => String
  | .verifyPassword .. => Bool
  | .dateNow => ℤ
  | .cacheGet _ => Option CacheEntry
  | .generationOf _ => ℕ × ℕ
  | .cacheSetIf .. => Unit
  | .invalidateSessionCache .. => Unit
  | .report _ => Unit

/-- The outcome the environment chooses for a call; `hashed` and `verified` answer for `bcrypt`. -/
inductive Outcome
  | ok
  | fail (error : Failure)
  | hashed (hash : String)
  | verified (isValid : Bool)
  deriving DecidableEq, Repr

namespace World

variable (world : World)

/-- The generation of a user's entry: a bump of either part invalidates it. -/
def generationOf (userId : UserId) : ℕ × ℕ :=
  (world.globalGeneration, (world.generations.lookup userId).getD 0)

/-- How many entries the cache keeps. -/
def cacheLimit : ℕ := 5000

/-- `cache.set` keeps the place of a key; then the oldest entry goes, if there are too many. -/
def remember (userId : UserId) (entry : CacheEntry) : World :=
  let cache := if (world.cache.lookup userId).isSome then
      world.cache.map fun stored ↦ if stored.1 = userId then (userId, entry) else stored
    else world.cache ++ [(userId, entry)]
  { world with cache := if cacheLimit < cache.length then cache.tail else cache }

/-- `invalidateSessionCache`. -/
def invalidate (userId : Option UserId) (committedAt : ℕ) : World :=
  match userId with
  | some userId =>
    { world with
      generations := (userId, (world.generationOf userId).2 + 1) :: world.generations
      cache := world.cache.filter fun stored ↦ stored.1 ≠ userId
      returned := world.returned ++ [{ userId := some userId, committedAt }] }
  | none =>
    { world with
      globalGeneration := world.globalGeneration + 1
      cache := []
      returned := world.returned ++ [{ userId := none, committedAt }] }

/-- A write to the table of users. -/
def write (users : List User) : World := { world with users, revision := world.revision + 1 }

/-- An error of a write that finds no row. -/
def recordNotFound : Failure where
  message := "An operation failed because it depends on one or more records that were required " ++
    "but not found."

def answerUpdate (userId : UserId) (change : User → User) (outcome : Outcome) :
    Except Failure (Stamped User) × World :=
  match outcome with
  | .fail error => (.error error, world)
  | _ =>
    match world.users.find? fun user ↦ user.id = userId with
    | none => (.error recordNotFound, world)
    | some user =>
      (.ok { value := change user, revision := world.revision + 1 },
        world.write (world.users.map fun other ↦ if other.id = userId then change other else other))

def answerDelete (userId : UserId) (outcome : Outcome) :
    Except Failure (Stamped User) × World :=
  match outcome with
  | .fail error => (.error error, world)
  | _ =>
    match world.users.find? fun user ↦ user.id = userId with
    | none => (.error recordNotFound, world)
    | some user =>
      (.ok { value := user, revision := world.revision + 1 },
        world.write (world.users.filter fun other ↦ other.id ≠ userId))

end World

/-- A value, unless the environment made the call fail. -/
def Outcome.orFail {α : Type} (outcome : Outcome) (value : α) : Except Failure α :=
  match outcome with
  | .fail error => .error error
  | _ => .ok value

/-- What every call does. -/
def answer (call : Call) (outcome : Outcome) (world : World) : Reply call × World :=
  match call with
  | .findUser userId =>
    (outcome.orFail
      { value := world.users.find? fun user ↦ user.id = userId, revision := world.revision }, world)
  | .countAdmins =>
    (outcome.orFail (world.users.filter fun user ↦ user.role = .admin).length, world)
  | .updateUser userId role passwordHash tokenVersion =>
    world.answerUpdate userId
      (fun user ↦
        { user with
          role := role.getD user.role
          passwordHash := passwordHash.getD user.passwordHash
          tokenVersion })
      outcome
  | .deleteUser userId => world.answerDelete userId outcome
  | .resolved => ((), world)
  | .hashPassword _ => (match outcome with | .hashed hash => hash | _ => "", world)
  | .verifyPassword .. => (match outcome with | .verified isValid => isValid | _ => false, world)
  | .dateNow => (world.now, world)
  | .cacheGet userId => (world.cache.lookup userId, world)
  | .generationOf userId => (world.generationOf userId, world)
  | .cacheSetIf userId generation entry =>
    ((), if world.generationOf userId = generation then world.remember userId entry else world)
  | .invalidateSessionCache userId committedAt => ((), world.invalidate userId committedAt)
  | .report verdict => ((), { world with verdicts := world.verdicts ++ [verdict] })

/-- What happens around: time passes, and users are written by other code. -/
inductive EnvironmentChange
  | clockAdvances (ms : ℕ)
  | usersWritten (users : List User)

def react (change : EnvironmentChange) (world : World) : World :=
  match change with
  | .clockAdvances ms => { world with now := world.now + ms }
  | .usersWritten users => world.write users

/-- A restart of the process loses the cache; a crash loses all checks with it. -/
def restart (world : World) : World :=
  { world with cache := [], generations := [], globalGeneration := 0 }

/-- Every call is a step of its own, also one that only touches the memory of the process. -/
def machine : Machine Call Reply World Outcome EnvironmentChange where
  answer := answer
  synchronous := fun _ ↦ false
  calm := .ok
  react := react
  restart := restart

abbrev Async (α : Type) : Type := Program Call Reply Failure α

abbrev call (request : Call) : Async (Reply request) := Program.request request

/-! ### Checking a session -/

def cacheTtlMs : ℤ := 10000

/-- A query, and the wait for its answer. -/
def query (request : Call) : Async (Reply request) := do
  let reply ← call request
  let () ← call .resolved
  pure reply

/-- The entry of a user: the cached one while it is fresh, else one made of what the database
answers, which is stored unless the user's generation has changed since. -/
def sessionEntry (userId : UserId) : Async CacheEntry := do
  let cached ← call (.cacheGet userId)
  let now ← call .dateNow
  match cached.filter fun entry ↦ now - entry.storedAt ≤ cacheTtlMs with
  | some entry => pure entry
  | none => do
    let generation ← call (.generationOf userId)
    let found ← orThrow (← query (.findUser userId))
    let now ← call .dateNow
    let entry : CacheEntry :=
      { storedAt := now
        user := found.value.map fun user ↦ { role := user.role, tokenVersion := user.tokenVersion }
        readAt := found.revision }
    let () ← call (.cacheSetIf userId generation entry)
    pure entry

/-- Whether a token is good for a user. -/
def accepts (payload : UserTokenPayload) (entry : CacheEntry) : Bool :=
  match entry.user with
  | some user => user.role = payload.role && user.tokenVersion = payload.tv.getD 0
  | none => false

def isSessionValid (payload : UserTokenPayload) : Async Decision :=
  if payload.id = "" then pure { accepted := false, entry := none }
  else do
    let entry ← sessionEntry payload.id
    pure { accepted := accepts payload entry, entry := some entry }

/-! ### Revoking tokens -/

def minPasswordLength : ℕ := 8

/-- The length of a JavaScript string, in UTF-16 code units. -/
def utf16Length (text : String) : ℕ :=
  text.toList.foldl (fun total char ↦ total + if char.toNat < 65536 then 1 else 2) 0

def requireUser (userId : UserId) : Async User := do
  let found ← orThrow (← query (.findUser userId))
  match found.value with
  | some user => pure user
  | none =>
    failed { statusCode := some 404, message := "User with id '" ++ userId ++ "' not found" }

def assertNotLastAdmin (user : User) : Async Unit :=
  if user.role ≠ .admin then pure ()
  else do
    let admins ← orThrow (← query .countAdmins)
    if admins ≤ 1 then
      failed
        { statusCode := some 409
          message := "Cannot remove or demote the last administrator" }
    else pure ()

/-- Commit a write and drop what is cached of the user. -/
def commit (userId : UserId) (write : Async (Except Failure (Stamped User))) : Async User := do
  let updated ← orThrow (← write)
  let () ← call (.invalidateSessionCache (some userId) updated.revision)
  pure updated.value

/-- Invalidates every token issued to the user. -/
def revokeSessions (userId : UserId) : Async User := do
  let user ← requireUser userId
  commit userId (query (.updateUser userId none none (user.tokenVersion + 1)))

def updateRole (userId : UserId) (role : Role) (actorId : UserId) : Async User := do
  let user ← requireUser userId
  if user.role = role then pure user
  else if userId = actorId then
    failed { statusCode := some 409, message := "You cannot change your own role" }
  else do
    let () ← if role ≠ .admin then assertNotLastAdmin user else pure ()
    commit userId (query (.updateUser userId (some role) none (user.tokenVersion + 1)))

def deleteUser (userId actorId : UserId) : Async User := do
  let user ← requireUser userId
  if userId = actorId then
    failed { statusCode := some 409, message := "You cannot delete your own account" }
  else do
    let () ← assertNotLastAdmin user
    let _ ← commit userId (query (.deleteUser userId))
    pure user

def resetPassword (userId : UserId) (newPassword : String) : Async User :=
  if utf16Length newPassword < minPasswordLength then
    failed
      { statusCode := some 400
        message := "Password must be at least " ++ toString minPasswordLength ++ " characters" }
  else do
    let user ← requireUser userId
    let passwordHash ← call (.hashPassword newPassword)
    commit userId (query (.updateUser userId none (some passwordHash) (user.tokenVersion + 1)))

def changeOwnPassword (userId : UserId) (currentPassword newPassword : String) : Async User := do
  let user ← requireUser userId
  if ← call (.verifyPassword currentPassword user.passwordHash) then
    resetPassword userId newPassword
  else failed { statusCode := some 403, message := "Current password is incorrect" }

end VmsLite.Users
