import Mathlib.Data.Bool.Basic
import VmsLite.Users.SessionFreshness

/-!
# Sessions, one operation after another

What a session check and a revocation do when nothing comes between their steps. A revocation does
nothing, or it takes the user away or gives the user a higher version, and drops what is cached of
the user (`RevokesTokens.revoked`). A check decides on an entry of the cache that it still trusts,
or on what the database holds (`eval_isSessionValid`).
-/

set_option autoImplicit false

namespace VmsLite.Users

open VmsLite.Async Program

/-! ### What the database holds -/

/-- The row of a user. -/
def World.stored (world : World) (userId : UserId) : Option User :=
  world.users.find? fun user ↦ user.id = userId

/-- What a session check selects of it. -/
def World.sessionUser (world : World) (userId : UserId) : Option SessionUser :=
  (world.stored userId).map fun user ↦ { role := user.role, tokenVersion := user.tokenVersion }

/-- The entry that a check makes of it. -/
def World.currentEntry (world : World) (userId : UserId) : CacheEntry where
  storedAt := world.now
  user := world.sessionUser userId
  readAt := world.revision

/-- Whether a token is good for the user the database holds. -/
def World.isGood (world : World) (token : UserTokenPayload) : Bool :=
  accepts token (world.currentEntry token.id)

/-- An entry of the cache that is still trusted accepts the token. -/
def World.Cached (world : World) (token : UserTokenPayload) : Prop :=
  ∃ stored ∈ world.cache, stored.1 = token.id ∧ world.now - stored.2.storedAt ≤ cacheTtlMs ∧
    accepts token stored.2 = true

theorem accepts_congr {first second : CacheEntry} (huser : first.user = second.user)
    (token : UserTokenPayload) : accepts token first = accepts token second := by
  unfold accepts
  rw [huser]

theorem accepts_iff {token : UserTokenPayload} {entry : CacheEntry} :
    accepts token entry = true ↔ ∃ user, entry.user = some user ∧ user.role = token.role ∧
      user.tokenVersion = token.tv.getD 0 := by
  unfold accepts
  cases entry.user with
  | none => simp
  | some user => simp

theorem isGood_iff {world : World} {token : UserTokenPayload} :
    world.isGood token = true ↔ ∃ user, world.stored token.id = some user ∧
      user.role = token.role ∧ user.tokenVersion = token.tv.getD 0 := by
  refine accepts_iff.trans ?_
  constructor
  · rintro ⟨selected, hselected, hrole, hversion⟩
    obtain ⟨user, huser, rfl⟩ := Option.map_eq_some_iff.mp hselected
    exact ⟨user, huser, hrole, hversion⟩
  · rintro ⟨user, huser, hrole, hversion⟩
    exact ⟨_, Option.map_eq_some_iff.mpr ⟨user, huser, rfl⟩, hrole, hversion⟩

theorem stored_id {world : World} {userId : UserId} {user : User}
    (hstored : world.stored userId = some user) : user.id = userId := by
  simpa using List.find?_some hstored

/-! ### Revocations -/

/-- What a revocation of a user's tokens has done, if it did anything. -/
structure Revoked (userId : UserId) (before after : World) : Prop where
  now : after.now = before.now
  cache : after.cache = before.cache.filter fun stored ↦ stored.1 ≠ userId
  others : ∀ other, other ≠ userId → after.stored other = before.stored other
  own : ∀ renewed, after.stored userId = some renewed →
    ∃ user, before.stored userId = some user ∧ user.tokenVersion < renewed.tokenVersion

section Revocations

variable (policy : Call → World → Outcome) {world : World}

theorem stored_write (users : List User) (userId : UserId) :
    (world.write users).stored userId = users.find? fun user ↦ user.id = userId := rfl

/-- The rows after one of them was changed. -/
theorem find_map_change {users : List User} {userId other : UserId} {change : User → User}
    (hid : ∀ user, (change user).id = user.id) :
    ((users.map fun user ↦ if user.id = userId then change user else user).find?
        fun user ↦ user.id = other) =
      (users.find? fun user ↦ user.id = other).map fun user ↦
        if user.id = userId then change user else user := by
  induction users with
  | nil => rfl
  | cons user rest ih =>
    have hsame : (if user.id = userId then change user else user).id = user.id := by
      split_ifs
      · exact hid user
      · rfl
    rw [List.map_cons, List.find?_cons, List.find?_cons, hsame]
    by_cases hfound : user.id = other
    · simp [hfound]
    · simp [hfound, ih]

theorem find_filter_ne {users : List User} {userId other : UserId} (hne : other ≠ userId) :
    ((users.filter fun user ↦ user.id ≠ userId).find? fun user ↦ user.id = other) =
      users.find? fun user ↦ user.id = other := by
  rw [List.find?_filter]
  refine congrArg (users.find? ·) (funext fun user ↦ ?_)
  by_cases hfound : user.id = other
  · simp [hfound, hne]
  · simp [hfound]

theorem find_filter_self {users : List User} {userId : UserId} :
    ((users.filter fun user ↦ user.id ≠ userId).find? fun user ↦ user.id = userId) = none := by
  rw [List.find?_eq_none]
  intro user huser hsame
  obtain ⟨-, hne⟩ := List.mem_filter.mp huser
  exact of_decide_eq_true hne (of_decide_eq_true hsame)

/-- An update fails, or changes the rows of its user. -/
theorem answerUpdate_cases (userId : UserId) (change : User → User) (outcome : Outcome) :
    (∃ error, world.answerUpdate userId change outcome = (.error error, world)) ∨
      ∃ updated, world.answerUpdate userId change outcome = (.ok updated,
        world.write (world.users.map fun user ↦ if user.id =
            userId then change user else user)) := by
  unfold World.answerUpdate
  split
  · exact Or.inl ⟨_, rfl⟩
  · cases world.users.find? fun user ↦ user.id = userId with
    | none => exact Or.inl ⟨_, rfl⟩
    | some user => exact Or.inr ⟨_, rfl⟩

/-- A query, and the wait for its answer. -/
theorem eval_query (request : Call) : eval answer policy (query request) world =
    (.ok (answer request (policy request world) world).1,
      (answer request (policy request world) world).2) := rfl

theorem orFail_cases {α : Type} (outcome : Outcome) (value : α) :
    (∃ error, outcome.orFail value = .error error) ∨ outcome.orFail value = .ok value := by
  cases outcome with
  | fail error => exact Or.inl ⟨error, rfl⟩
  | _ => exact Or.inr rfl

theorem eval_findUser (userId : UserId) :
    (∃ error, eval answer policy (query (.findUser userId)) world = (.ok (.error error), world)) ∨
      eval answer policy (query (.findUser userId)) world =
        (.ok (.ok { value := world.stored userId, revision := world.revision }), world) := by
  rw [eval_query]
  have hanswer : answer (.findUser userId) (policy (.findUser userId) world) world =
      ((policy (.findUser userId) world).orFail
        { value := world.stored userId, revision := world.revision }, world) := rfl
  rw [hanswer]
  rcases orFail_cases (policy (.findUser userId) world)
    ({ value := world.stored userId, revision := world.revision } : Stamped (Option User))
      with ⟨error, herror⟩ | hfound
  · exact Or.inl ⟨error, by rw [herror]⟩
  · exact Or.inr (by rw [hfound])

/-- Looking a user up changes nothing; it finds the row or throws. -/
theorem eval_requireUser (userId : UserId) :
    (∃ error, eval answer policy (requireUser userId) world = (.error error, world)) ∨
      ∃ user, eval answer policy (requireUser userId) world = (.ok user, world) ∧
        world.stored userId = some user := by
  unfold requireUser
  rcases @eval_findUser policy world userId with ⟨error, hran⟩ | hran
  · rw [bind_eq, eval_bind_of_ok answer policy hran]
    exact Or.inl ⟨error, rfl⟩
  · rw [bind_eq, eval_bind_of_ok answer policy hran]
    cases world.stored userId with
    | none => exact Or.inl ⟨_, rfl⟩
    | some user => exact Or.inr ⟨user, rfl, rfl⟩

/-- Where an operation ends that first looks its user up. -/
theorem eval_requireUser_bind (kept : World → Prop) {userId : UserId} {α : Type}
    {rest : User → Async α} (hsame : kept world)
    (hrest : ∀ user, world.stored userId = some user →
      kept (eval answer policy (rest user) world).2) :
    kept (eval answer policy ((requireUser userId).bind rest) world).2 := by
  rcases @eval_requireUser policy world userId with
    ⟨error, hthrown⟩ | ⟨user, hfound, hstored⟩
  · rw [eval_bind_of_error answer policy hthrown]
    exact hsame
  · rw [eval_bind_of_ok answer policy hfound]
    exact hrest user hstored

/-- Calls that change nothing. -/
def Call.isRead : Call → Bool
  | .findUser _ | .countAdmins | .resolved | .hashPassword _ | .verifyPassword .. | .dateNow
  | .cacheGet _ | .generationOf _ => true
  | _ => false

theorem answer_of_isRead {call : Call} (hread : call.isRead = true) (outcome : Outcome) :
    (answer call outcome world).2 = world := by
  cases call with
  | updateUser userId role passwordHash tokenVersion => cases hread
  | deleteUser userId => cases hread
  | cacheSetIf userId generation entry => cases hread
  | invalidateSessionCache userId committedAt => cases hread
  | report verdict => cases hread
  | _ => rfl

/-- No session call moves the clock. -/
theorem now_answer (call : Call) (outcome : Outcome) (world : World) :
    (answer call outcome world).2.now = world.now := by
  have hupdate : ∀ userId change, (world.answerUpdate userId change outcome).2.now =
      world.now := by
    intro userId change
    unfold World.answerUpdate
    split
    · rfl
    · split <;> rfl
  have hdelete : ∀ userId, (world.answerDelete userId outcome).2.now = world.now := by
    intro userId
    unfold World.answerDelete
    split
    · rfl
    · split <;> rfl
  cases call with
  | updateUser userId role passwordHash tokenVersion => exact hupdate _ _
  | deleteUser userId => exact hdelete userId
  | cacheSetIf userId generation entry =>
    simp only [answer]
    split_ifs <;> rfl
  | invalidateSessionCache userId committedAt => cases userId <;> rfl
  | _ => rfl

/-- A program that changes nothing, followed by another one. -/
theorem eval_reads_bind (kept : World → Prop) {α β : Type} {first : Async α} {rest : α → Async β}
    (hreads : first.Uses (Call.isRead · = true)) (hsame : kept world)
    (hrest : ∀ value, kept (eval answer policy (rest value) world).2) :
    kept (eval answer policy (first.bind rest) world).2 := by
  have hworld : (eval answer policy first world).2 = world := by
    have hcall : ∀ call outcome (later : World), call.isRead = true → later = world →
        (answer call outcome later).2 = world :=
      fun call outcome later hread hsame ↦ (answer_of_isRead hread outcome).trans hsame
    exact hreads.eval policy hcall rfl
  refine eval_bind_world answer policy kept (fun value reached hran ↦ ?_) fun error reached hran ↦
    ?_
  · rw [hran] at hworld
    rw [show reached = world from hworld]
    exact hrest value
  · rw [hran] at hworld
    rw [show reached = world from hworld]
    exact hsame

theorem requireUser_reads (userId : UserId) :
    (requireUser userId).Uses (Call.isRead · = true) := by
  refine Uses.bind (Uses.bind (Uses.request rfl) fun _ ↦
    Uses.bind (Uses.request rfl) fun _ ↦ trivial)
    fun reply ↦ Uses.bind Uses.orThrow fun found ↦ ?_
  cases found.value <;> trivial

theorem assertNotLastAdmin_reads (user : User) :
    (assertNotLastAdmin user).Uses (Call.isRead · = true) := by
  unfold assertNotLastAdmin
  split_ifs
  · trivial
  · refine Uses.bind (Uses.bind (Uses.request rfl) fun _ ↦
      Uses.bind (Uses.request rfl) fun _ ↦ trivial) fun reply ↦
        Uses.bind Uses.orThrow fun admins ↦ ?_
    split_ifs <;> trivial

/-- Nothing was done, or the user's tokens were revoked. -/
def RevokedOrSame (userId : UserId) (before after : World) : Prop :=
  after = before ∨ Revoked userId before after

/-- What a write to one user's row does: the row goes, or gets a higher version. -/
structure Renews (userId : UserId) (before after : World) : Prop where
  now : after.now = before.now
  cache : after.cache = before.cache
  others : ∀ other, other ≠ userId → after.stored other = before.stored other
  own : ∀ renewed, after.stored userId = some renewed →
    ∃ user, before.stored userId = some user ∧ user.tokenVersion < renewed.tokenVersion

/-- A write that failed, or renewed the user. -/
def WritesRow (userId : UserId) (world : World)
    (ran : Except Failure (Except Failure (Stamped User)) × World) : Prop :=
  (∃ error, ran = (.ok (.error error), world)) ∨
    ∃ updated changed, ran = (.ok (.ok updated), changed) ∧ Renews userId world changed

/-- A write and its invalidation revoke the tokens of the user, or do nothing. -/
theorem eval_commit {userId : UserId} {write : Async (Except Failure (Stamped User))}
    (hwrite : WritesRow userId world (eval answer policy write world)) :
    RevokedOrSame userId world (eval answer policy (commit userId write) world).2 := by
  unfold commit
  rcases hwrite with ⟨error, hfailed⟩ | ⟨updated, changed, hwritten, hrenews⟩
  · rw [bind_eq, eval_bind_of_ok answer policy hfailed]
    exact Or.inl rfl
  · rw [bind_eq, eval_bind_of_ok answer policy hwritten]
    have hcache : (changed.invalidate (some userId) updated.revision).cache =
        world.cache.filter fun stored ↦ stored.1 ≠ userId :=
      congrArg (List.filter fun stored : UserId × CacheEntry ↦ decide (stored.1 ≠ userId))
        hrenews.cache
    exact Or.inr
      { now := hrenews.now
        cache := hcache
        others := hrenews.others
        own := hrenews.own }

/-- An update that raises the version of the row. -/
theorem eval_updateUser {userId : UserId} {user : User} (hstored : world.stored userId = some user)
    (role : Option Role) (passwordHash : Option String) :
    WritesRow userId world (eval answer policy
      (query (.updateUser userId role passwordHash (user.tokenVersion + 1))) world) := by
  rw [eval_query]
  let change : User → User := fun row ↦
    { row with
      role := role.getD row.role
      passwordHash := passwordHash.getD row.passwordHash
      tokenVersion := user.tokenVersion + 1 }
  have hanswer : answer (.updateUser userId role passwordHash (user.tokenVersion + 1))
      (policy (.updateUser userId role passwordHash (user.tokenVersion + 1)) world) world =
        world.answerUpdate userId change
          (policy (.updateUser userId role passwordHash (user.tokenVersion + 1)) world) := rfl
  rw [hanswer]
  rcases answerUpdate_cases userId change
    (policy (.updateUser userId role passwordHash (user.tokenVersion + 1)) world) with
      ⟨error, hfailed⟩ | ⟨updated, hupdated⟩
  · rw [hfailed]
    exact Or.inl ⟨error, rfl⟩
  · rw [hupdated]
    have hrows := fun other ↦ @find_map_change world.users userId other change fun _ ↦ rfl
    refine Or.inr ⟨_, _, rfl, rfl, rfl, fun other hne ↦ ?_, fun renewed hrenewed ↦
      ⟨user, hstored, ?_⟩⟩
    · rw [stored_write, hrows]
      refine (Option.map_congr fun row hrow ↦ if_neg fun hsame ↦ ?_).trans
        (congrFun Option.map_id _)
      exact hne ((@stored_id world _ _ hrow).symm.trans hsame)
    · rw [stored_write, hrows] at hrenewed
      obtain ⟨row, hrow, rfl⟩ := Option.map_eq_some_iff.mp hrenewed
      rw [if_pos (@stored_id world _ _ hrow)]
      exact Int.lt_succ _

theorem eval_deleteUser_write (userId : UserId) :
    WritesRow userId world (eval answer policy (query (.deleteUser userId)) world) := by
  rw [eval_query]
  have hanswer : answer (.deleteUser userId) (policy (.deleteUser userId) world) world =
      world.answerDelete userId (policy (.deleteUser userId) world) := rfl
  rw [hanswer]
  unfold World.answerDelete
  split
  · exact Or.inl ⟨_, rfl⟩
  · cases world.users.find? fun user ↦ user.id = userId with
    | none => exact Or.inl ⟨_, rfl⟩
    | some user =>
      refine Or.inr ⟨_, _, rfl, rfl, rfl, fun other hne ↦ find_filter_ne hne,
        fun renewed hrenewed ↦ ?_⟩
      rw [stored_write, find_filter_self] at hrenewed
      cases hrenewed

/-- Resetting a password revokes the tokens of the user, or does nothing. -/
theorem eval_resetPassword (userId : UserId) (newPassword : String) :
    RevokedOrSame userId world (eval answer policy (resetPassword userId newPassword) world).2 := by
  unfold resetPassword
  split_ifs
  · exact Or.inl rfl
  · refine eval_requireUser_bind policy (RevokedOrSame userId world) (Or.inl rfl) fun user hstored ↦
      ?_
    refine eval_reads_bind policy (RevokedOrSame userId world) (Uses.request rfl) (Or.inl rfl)
      fun passwordHash ↦ ?_
    exact eval_commit policy (eval_updateUser policy hstored _ _)

/-- Where an operation ends, its value put aside. -/
theorem eval_bind_done {α : Type} (program : Async α) :
    (eval answer policy (program.bind fun _ ↦ done ()) world).2 =
      (eval answer policy program world).2 := by
  refine eval_bind_world answer policy (· = (eval answer policy program world).2)
    (fun value reached hran ↦ ?_) fun error reached hran ↦ ?_
  · rw [hran]
    rfl
  · rw [hran]

/-- Every operation that revokes tokens revokes those of one user, or does nothing. -/
theorem RevokesTokens.revoked {program : Async Unit} (hrevokes : RevokesTokens program) :
    ∃ userId, RevokedOrSame userId world (eval answer policy program world).2 := by
  cases hrevokes with
  | revokeSessions userId =>
    rw [eval_bind_done]
    refine ⟨userId, eval_requireUser_bind policy (RevokedOrSame userId world) (Or.inl rfl)
      fun user hstored ↦ ?_⟩
    exact eval_commit policy (eval_updateUser policy hstored _ _)
  | updateRole userId role actorId =>
    rw [eval_bind_done]
    refine ⟨userId, eval_requireUser_bind policy (RevokedOrSame userId world) (Or.inl rfl)
      fun user hstored ↦ ?_⟩
    split_ifs
    · exact Or.inl rfl
    · exact Or.inl rfl
    · refine eval_reads_bind policy (RevokedOrSame userId world) (assertNotLastAdmin_reads user)
        (Or.inl rfl) fun _ ↦ ?_
      exact eval_commit policy (eval_updateUser policy hstored _ _)
    · exact eval_commit policy (eval_updateUser policy hstored _ _)
  | deleteUser userId actorId =>
    rw [eval_bind_done]
    refine ⟨userId, eval_requireUser_bind policy (RevokedOrSame userId world) (Or.inl rfl)
      fun user hstored ↦ ?_⟩
    split_ifs
    · exact Or.inl rfl
    · refine eval_reads_bind policy (RevokedOrSame userId world) (assertNotLastAdmin_reads user)
        (Or.inl rfl) fun _ ↦ ?_
      rw [bind_eq, show (fun _ : User ↦ (pure user : Async User)) = fun _ ↦ done user from rfl]
      refine eval_bind_world answer policy (RevokedOrSame userId world)
        (fun deleted reached hran ↦ ?_)
        fun error reached hran ↦ ?_
      · have hcommit := eval_commit policy (@eval_deleteUser_write policy world userId)
        rw [hran] at hcommit
        exact hcommit
      · have hcommit := eval_commit policy (@eval_deleteUser_write policy world userId)
        rw [hran] at hcommit
        exact hcommit
  | resetPassword userId newPassword =>
    rw [eval_bind_done]
    exact ⟨userId, eval_resetPassword policy userId newPassword⟩
  | changeOwnPassword userId currentPassword newPassword =>
    rw [eval_bind_done]
    refine ⟨userId, eval_requireUser_bind policy (RevokedOrSame userId world) (Or.inl rfl)
      fun user hstored ↦ ?_⟩
    refine eval_reads_bind policy (RevokedOrSame userId world) (Uses.request rfl) (Or.inl rfl)
      fun verified ↦ ?_
    split_ifs
    · exact eval_resetPassword policy userId newPassword
    · exact Or.inl rfl

end Revocations

/-! ### Checks -/

section Checks

variable (policy : Call → World → Outcome) {world : World}

/-- A check takes an entry that it still trusts, or makes one of what the database holds and stores
it, or throws. -/
theorem eval_sessionEntry (userId : UserId) :
    (∃ entry, world.cache.lookup userId = some entry ∧ world.now - entry.storedAt ≤ cacheTtlMs ∧
      eval answer policy (sessionEntry userId) world = (.ok entry, world)) ∨
    (∃ error, eval answer policy (sessionEntry userId) world = (.error error, world)) ∨
    eval answer policy (sessionEntry userId) world =
      (.ok (world.currentEntry userId), world.remember userId (world.currentEntry userId)) := by
  have hget : eval answer policy (call (.cacheGet userId)) world =
      (.ok (world.cache.lookup userId), world) := rfl
  have hnow : eval answer policy (call .dateNow) world = (.ok world.now, world) := rfl
  unfold sessionEntry
  rw [bind_eq, eval_bind_of_ok answer policy hget, bind_eq, eval_bind_of_ok answer policy hnow]
  split
  · next entry hfresh =>
    obtain ⟨hlookup, htrusted⟩ := Option.filter_eq_some_iff.mp hfresh
    exact Or.inl ⟨entry, hlookup, of_decide_eq_true htrusted, rfl⟩
  · right
    have hgeneration : eval answer policy (call (.generationOf userId)) world =
        (.ok (world.generationOf userId), world) := rfl
    rw [bind_eq, eval_bind_of_ok answer policy hgeneration, bind_eq]
    rcases @eval_findUser policy world userId with ⟨error, hran⟩ | hran
    · rw [eval_bind_of_ok answer policy hran]
      exact Or.inl ⟨error, rfl⟩
    · rw [eval_bind_of_ok answer policy hran]
      right
      -- Nothing has come between, so the generation is the one that was read
      have hstored : eval answer policy
          (call (.cacheSetIf userId (world.generationOf userId) (world.currentEntry userId)))
            world =
            (.ok (), if world.generationOf userId = world.generationOf userId then
              world.remember userId (world.currentEntry userId) else world) := rfl
      rw [if_pos rfl] at hstored
      show eval answer policy ((call (.cacheSetIf userId (world.generationOf userId)
        (world.currentEntry userId))).bind fun _ ↦ done (world.currentEntry userId)) world = _
      rw [eval_bind_of_ok answer policy hstored]
      rfl

/-- What a check leaves: it may have stored what the database holds of the user. -/
structure Checked (userId : UserId) (before after : World) : Prop where
  users : after.users = before.users
  now : after.now = before.now
  cache : ∀ stored ∈ after.cache, stored ∈ before.cache ∨
    stored.1 = userId ∧ stored.2.user = before.sessionUser userId

theorem eval_isSessionValid (token : UserTokenPayload) :
    Checked token.id world (eval answer policy (isSessionValid token) world).2 ∧
      ∀ decision, (eval answer policy (isSessionValid token) world).1 = .ok decision →
        decision.accepted = true → world.Cached token ∨ world.isGood token = true := by
  have hsame : Checked token.id world world := ⟨rfl, rfl, fun _ hstored ↦ Or.inl hstored⟩
  unfold isSessionValid
  split_ifs
  · refine ⟨hsame, fun decision hdecision haccepted ↦ ?_⟩
    obtain rfl := Except.ok.inj hdecision
    cases haccepted
  · rcases @eval_sessionEntry policy world token.id with
      ⟨entry, hlookup, htrusted, hran⟩ | ⟨error, hran⟩ | hran
    · rw [bind_eq, eval_bind_of_ok answer policy hran]
      refine ⟨hsame, fun decision hdecision haccepted ↦ Or.inl ?_⟩
      obtain rfl := Except.ok.inj hdecision
      obtain ⟨first, second, hcache, -⟩ := List.lookup_eq_some_iff.mp hlookup
      exact ⟨(token.id, entry), hcache ▸ by simp, rfl, htrusted, haccepted⟩
    · rw [bind_eq, eval_bind_of_error answer policy hran]
      exact ⟨hsame, nofun⟩
    · rw [bind_eq, eval_bind_of_ok answer policy hran]
      refine ⟨⟨rfl, rfl, fun stored hstored ↦ ?_⟩, fun decision hdecision haccepted ↦ Or.inr ?_⟩
      · rcases World.mem_remember hstored with hold | rfl
        · exact Or.inl hold
        · exact Or.inr ⟨rfl, rfl⟩
      · obtain rfl := Except.ok.inj hdecision
        exact haccepted

end Checks

end VmsLite.Users
