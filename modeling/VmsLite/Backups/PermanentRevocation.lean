import VmsLite.Async.Transition
import VmsLite.Backups.Restore

/-!
# Whether a revocation is permanent

A token is good for a user with its role and its version, and every revocation takes the user away
or raises the version. A restore puts back the role and the version of a backup. The tokens that an
operation has made bad stay rejected in every run whose restores write no version that a token of
the user still reaches (`revocationPermanent`).
-/

set_option autoImplicit false

namespace VmsLite.Backups

open VmsLite.Async VmsLite.Users Program

/-! ### The claim -/

/-- The system, its backups, and the tokens that some operation has revoked. -/
structure Appliance where
  world : Login.World
  backups : List Backup := []
  revoked : List UserTokenPayload := []

/-- The operations, each with what the environment makes of its calls. -/
inductive Operation
  | login (client : Login.Client) (username password : String)
      (policy : Login.Call → Login.World → Outcome)
  | revoke (program : Users.Async Unit) (hrevokes : RevokesTokens program)
      (policy : Call → Users.World → Outcome)
  | checkSession (token : UserTokenPayload) (policy : Call → Users.World → Outcome)
  | createBackup
  | restoreBackup (backup : Backup) (mode : RestoreMode) (succeeds : Bool)
  | clockAdvances (ms : ℕ)
  | restart

namespace Operation

def change (world : Login.World) : Operation → Login.World
  | login client username password policy =>
    (eval (Login.answer client) policy (Login.login client username password) world).2
  | revoke program _ policy =>
    { world with session := (eval answer policy program world.session).2 }
  | checkSession token policy =>
    { world with session := (eval answer policy (isSessionValid token) world.session).2 }
  | createBackup => world
  | restoreBackup backup mode succeeds => Backups.restoreBackup mode backup succeeds world
  | clockAdvances ms => { world with session := react (.clockAdvances ms) world.session }
  | restart => Login.restart world

/-- The backups that an operation makes. -/
def saved (world : Login.World) : Operation → List Backup
  | createBackup => [Backups.createBackup world]
  | _ => []

end Operation

namespace Appliance

variable (appliance : Appliance)

/-- The tokens that were signed. -/
def tokens : List UserTokenPayload := appliance.world.signed.map (·.payload)

/-- An operation revokes the tokens that were good before it and are not after it. -/
def perform (operation : Operation) : Appliance where
  world := operation.change appliance.world
  backups := appliance.backups ++ operation.saved appliance.world
  revoked := appliance.revoked ++ appliance.tokens.filter fun token ↦
    appliance.world.session.isGood token &&
      !(operation.change appliance.world).session.isGood token

/-- Only backups of this system are restored. -/
def Legal : Operation → Prop
  | .restoreBackup backup _ _ => backup ∈ appliance.backups
  | _ => True

end Appliance

/-- A system over any users, with no session yet. -/
def newAppliance (users : List User) (usernames : List (String × UserId)) (now : ℤ) :
    Appliance where
  world := { session := { users, now }, usernames }

/-- No run of a check accepts the token. -/
def Rejected (world : Users.World) (token : UserTokenPayload) : Prop :=
  ∀ policy decision, (eval answer policy (isSessionValid token) world).1 = .ok decision →
    decision.accepted = false

/-- Every token that was revoked is rejected now. -/
def Appliance.RejectsRevoked (appliance : Appliance) : Prop :=
  ∀ token ∈ appliance.revoked, Rejected appliance.world.session token

/-- A run, as far as it has come, whose operations meet a condition. -/
structure ApplianceRun (condition : Appliance → Operation → Prop) where
  users : List User
  usernames : List (String × UserId)
  now : ℤ
  appliance : Appliance
  reached : Reaches Appliance.perform
    (fun appliance operation ↦ appliance.Legal operation ∧ condition appliance operation)
    (newAppliance users usernames now) appliance

/-! ### The condition -/

/-- The token can not be good for this row, nor for it with a higher version. -/
def Outdated (token : UserTokenPayload) (user : User) : Prop :=
  token.tv.getD 0 < user.tokenVersion ∨
    token.tv.getD 0 = user.tokenVersion ∧ token.role ≠ user.role

/-- The row of a backup has the role and the version that the user has now; or else no token of the
user reaches its version, and no cached entry accepts one. -/
def KeepsRevoked (appliance : Appliance) (row : BackupUser) : Prop :=
  (∃ user, appliance.world.session.stored row.id = some user ∧ user.role = row.role ∧
    user.tokenVersion = row.tokenVersion) ∨
  ∀ token ∈ appliance.tokens, token.id = row.id →
    Outdated token row.toUser ∧ ¬ appliance.world.session.Cached token

/-- A restore writes only rows that bring back no token. -/
def RestoresNoToken (appliance : Appliance) : Operation → Prop
  | .restoreBackup backup mode true =>
    ∀ row ∈ written mode appliance.world backup, KeepsRevoked appliance row
  | _ => True

/-! ### What an operation does -/

/-- What the tokens of a user become. -/
inductive UserEvolves (tokens : List UserTokenPayload) (before after : Users.World)
    (userId : UserId) :
    Prop
  | kept (hsame : after.sessionUser userId = before.sessionUser userId)
  | renewed (houtdated : ∀ token ∈ tokens, token.id = userId → ∀ user,
      after.stored userId = some user → Outdated token user)
      (huncached : ∀ token ∈ tokens, token.id = userId → ¬ after.Cached token)

structure Evolves (before after : Login.World) : Prop where
  now_le : before.session.now ≤ after.session.now
  user : ∀ userId, UserEvolves (before.signed.map (·.payload)) before.session after.session userId
  cache : ∀ stored ∈ after.session.cache, stored ∈ before.session.cache ∨
    stored.2.user = after.session.sessionUser stored.1
  signed : ∃ fresh, after.signed = before.signed ++ fresh ∧
    ∀ token ∈ fresh, after.session.isGood token.payload = true

/-- Revoked tokens are outdated wherever a check looks. -/
structure Sound (appliance : Appliance) : Prop where
  outdated : ∀ token ∈ appliance.revoked, ∀ user,
    appliance.world.session.stored token.id = some user → Outdated token user
  uncached : ∀ token ∈ appliance.revoked, ¬ appliance.world.session.Cached token
  accounted : ∀ token ∈ appliance.tokens, token ∈ appliance.revoked ∨
    appliance.world.session.isGood token = true
  signed : ∀ token ∈ appliance.revoked, token ∈ appliance.tokens

section Soundness

variable {appliance : Appliance} {before after : Users.World} {token : UserTokenPayload}

/-- A token that is good is not outdated. -/
theorem not_isGood_of_outdated
    (houtdated : ∀ user, after.stored token.id = some user → Outdated token user) :
    ¬ after.isGood token = true := by
  intro hgood
  obtain ⟨user, hstored, hrole, hversion⟩ := isGood_iff.mp hgood
  rcases houtdated user hstored with hless | ⟨-, hrole'⟩
  · omega
  · exact hrole' hrole.symm

/-- A token is as good as the user the database holds. -/
theorem isGood_congr (hsame : after.sessionUser token.id = before.sessionUser token.id) :
    after.isGood token = before.isGood token :=
  accepts_congr hsame token

theorem stored_of_sessionUser {userId : UserId}
    (hsame : after.sessionUser userId = before.sessionUser userId) {user : User}
    (hstored : after.stored userId = some user) : ∃ old, before.stored userId = some old ∧
      old.role = user.role ∧ old.tokenVersion = user.tokenVersion := by
  have hselected : before.sessionUser userId =
      some { role := user.role, tokenVersion := user.tokenVersion } := by
    rw [← hsame]
    unfold World.sessionUser
    rw [hstored]
    rfl
  obtain ⟨old, hold, hfields⟩ := Option.map_eq_some_iff.mp hselected
  obtain ⟨hrole, hversion⟩ := SessionUser.mk.inj hfields
  exact ⟨old, hold, hrole, hversion⟩

theorem Outdated.congr {first second : User} (hrole : first.role = second.role)
    (hversion : first.tokenVersion = second.tokenVersion) (houtdated : Outdated token first) :
    Outdated token second := by
  unfold Outdated
  rw [← hrole, ← hversion]
  exact houtdated

/-- The tokens that an operation has revoked, and those that were revoked before. -/
theorem mem_revoked_perform {operation : Operation} :
    token ∈ (appliance.perform operation).revoked ↔ token ∈ appliance.revoked ∨
      token ∈ appliance.tokens ∧ appliance.world.session.isGood token = true ∧
        ¬ (operation.change appliance.world).session.isGood token = true := by
  unfold Appliance.perform
  simp only [List.mem_append, List.mem_filter, Bool.and_eq_true, Bool.not_eq_true',
    Bool.not_eq_true]

/-- Revoked tokens stay outdated. -/
theorem Sound.perform (hsound : Sound appliance) {operation : Operation}
    (hevolves : Evolves appliance.world (operation.change appliance.world)) :
    Sound (appliance.perform operation) := by
  obtain ⟨fresh, hfresh, hgood⟩ := hevolves.signed
  have htokens : (appliance.perform operation).tokens = appliance.tokens ++
      fresh.map (·.payload) := by
    unfold Appliance.tokens
    rw [← List.map_append, ← hfresh]
    rfl
  have hsigned : ∀ token ∈ (appliance.perform operation).revoked, token ∈ appliance.tokens := by
    intro token htoken
    rcases mem_revoked_perform.mp htoken with hold | ⟨hsigned, -⟩
    · exact hsound.signed token hold
    · exact hsigned
  have houtdated : ∀ token ∈ (appliance.perform operation).revoked, ∀ user,
      (operation.change appliance.world).session.stored token.id = some user →
        Outdated token user := by
    intro token htoken user hstored
    cases hevolves.user token.id with
    | renewed houtdated _ => exact houtdated token (hsigned token htoken) rfl user hstored
    | kept hsame =>
      rcases mem_revoked_perform.mp htoken with hold | ⟨-, hbefore, hafter⟩
      · obtain ⟨old, hstoredOld, hrole, hversion⟩ := stored_of_sessionUser hsame hstored
        exact (hsound.outdated token hold old hstoredOld).congr hrole hversion
      · exact absurd ((isGood_congr hsame).trans hbefore) hafter
  constructor
  · exact houtdated
  · rintro token htoken ⟨stored, hstored, hid, htrusted, haccepts⟩
    have hstale : ¬ (operation.change appliance.world).session.isGood token = true :=
      not_isGood_of_outdated (houtdated token htoken)
    cases hevolves.user token.id with
    | renewed _ huncached =>
      exact huncached token (hsigned token htoken) rfl ⟨stored, hstored, hid, htrusted, haccepts⟩
    | kept hsame =>
      rcases hevolves.cache stored hstored with hold | hcurrent
      · have hcached : appliance.world.session.Cached token :=
          ⟨stored, hold, hid, (Int.sub_le_sub_right hevolves.now_le _).trans htrusted, haccepts⟩
        rcases mem_revoked_perform.mp htoken with hrevoked | ⟨-, hbefore, hafter⟩
        · exact hsound.uncached token hrevoked hcached
        · exact absurd ((isGood_congr hsame).trans hbefore) hafter
      · have hsameUser : stored.2.user = ((operation.change appliance.world).session.currentEntry
            token.id).user := by
          rw [hcurrent, hid]
          rfl
        rw [accepts_congr hsameUser] at haccepts
        exact hstale haccepts
  · intro token htoken
    rw [htokens] at htoken
    rcases List.mem_append.mp htoken with hold | hnew
    · by_cases hafter : (operation.change appliance.world).session.isGood token = true
      · exact Or.inr hafter
      · refine Or.inl (mem_revoked_perform.mpr ?_)
        rcases hsound.accounted token hold with hrevoked | hbefore
        · exact Or.inl hrevoked
        · exact Or.inr ⟨hold, hbefore, hafter⟩
    · obtain ⟨signed, hsigned, rfl⟩ := List.mem_map.mp hnew
      exact Or.inr (hgood signed hsigned)
  · intro token htoken
    rw [htokens]
    exact List.mem_append_left _ (hsigned token htoken)

end Soundness

/-! ### Each operation -/

section Operations

variable {world : Login.World}

/-- Sessions that are as they were. -/
theorem Evolves.of_session {after : Login.World} (hsession : after.session = world.session)
    (hsigned : ∃ fresh, after.signed = world.signed ++ fresh ∧
      ∀ token ∈ fresh, after.session.isGood token.payload = true) : Evolves world after where
  now_le := le_of_eq (congrArg World.now hsession.symm)
  user := fun userId ↦ .kept (congrArg (·.sessionUser userId) hsession)
  cache := fun _ hstored ↦ Or.inl (hsession ▸ hstored)
  signed := hsigned

theorem Evolves.refl (world : Login.World) : Evolves world world :=
  Evolves.of_session rfl ⟨[], (List.append_nil _).symm, nofun⟩

/-- A check leaves the users, and stores what the database holds. -/
theorem evolves_checkSession (token : UserTokenPayload) (policy : Call → Users.World → Outcome) :
    Evolves world { world with session := (eval answer policy (isSessionValid token)
        world.session).2 } := by
  obtain ⟨hchecked, -⟩ := @eval_isSessionValid policy world.session token
  have hstored : ∀ userId, (eval answer policy (isSessionValid token) world.session).2.sessionUser
      userId = world.session.sessionUser userId := by
    intro userId
    unfold World.sessionUser World.stored
    rw [hchecked.users]
  constructor
  · exact le_of_eq hchecked.now.symm
  · exact fun userId ↦ .kept (hstored userId)
  · intro stored hin
    rcases hchecked.cache stored hin with hold | ⟨hid, huser⟩
    · exact Or.inl hold
    · right
      rw [huser, hstored, hid]
  · exact ⟨[], (List.append_nil _).symm, nofun⟩

/-- A revocation raises the version of its user above the tokens that were signed. -/
theorem evolves_revoke {appliance : Appliance} (hsound : Sound appliance)
    {program : Users.Async Unit} (hrevokes : RevokesTokens program)
    (policy : Call → Users.World → Outcome) :
    Evolves appliance.world { appliance.world with
      session := (eval answer policy program appliance.world.session).2 } := by
  obtain ⟨userId, hsame | hrevoked⟩ :=
    @RevokesTokens.revoked policy appliance.world.session program hrevokes
  · exact Evolves.of_session hsame ⟨[], (List.append_nil _).symm, nofun⟩
  · constructor
    · exact le_of_eq hrevoked.now.symm
    · intro other
      by_cases hother : other = userId
      · subst hother
        refine .renewed (fun token htoken hid user hstored ↦ ?_) fun token htoken hid ↦ ?_
        · obtain ⟨old, hold, hless⟩ := hrevoked.own user hstored
          have hreach : token.tv.getD 0 ≤ old.tokenVersion := by
            rw [← hid] at hold
            rcases hsound.accounted token htoken with hrevokedBefore | hgood
            · rcases hsound.outdated token hrevokedBefore old hold with hless | ⟨hsame, -⟩
              · omega
              · omega
            · obtain ⟨user, huser, -, hversion⟩ := isGood_iff.mp hgood
              obtain rfl := Option.some.inj (hold.symm.trans huser)
              omega
          exact Or.inl (by omega)
        · rintro ⟨stored, hin, hstored, -⟩
          have hcache : stored ∈ appliance.world.session.cache.filter fun stored ↦
              stored.1 ≠ other := by
            rw [← hrevoked.cache]
            exact hin
          exact of_decide_eq_true (List.mem_filter.mp hcache).2 (hstored.trans hid)
      · refine .kept ?_
        unfold World.sessionUser
        rw [hrevoked.others other hother]
    · intro stored hin
      left
      have hcache : stored ∈ appliance.world.session.cache.filter fun stored ↦
          stored.1 ≠ userId := by
        rw [← hrevoked.cache]
        exact hin
      exact (List.mem_filter.mp hcache).1
    · exact ⟨[], (List.append_nil _).symm, nofun⟩

/-- A restore that brings back no token. -/
theorem evolves_restoreBackup {appliance : Appliance} {backup : Backup} {mode : RestoreMode}
    {succeeds : Bool} (hkeeps : RestoresNoToken appliance (.restoreBackup backup mode succeeds)) :
    Evolves appliance.world (restoreBackup mode backup succeeds appliance.world) := by
  cases succeeds with
  | false => exact Evolves.refl _
  | true =>
    have hrestored := restored_restoreBackup mode backup true appliance.world
    constructor
    · exact le_of_eq hrestored.now.symm
    · intro userId
      rcases hrestored.stored userId with hsame | ⟨row, hrow, rfl, hstored⟩
      · refine .kept ?_
        unfold World.sessionUser
        rw [hsame]
      · rcases hkeeps row hrow with ⟨user, huser, hrole, hversion⟩ | houtdated
        · refine .kept ?_
          unfold World.sessionUser
          rw [hstored, huser]
          simp [hrole, hversion]
        · refine .renewed (fun token htoken hid user huser ↦ ?_) fun token htoken hid hcached ↦ ?_
          · obtain rfl := Option.some.inj (hstored.symm.trans huser)
            exact (houtdated token htoken hid).1
          · refine (houtdated token htoken hid).2 ?_
            unfold World.Cached at hcached ⊢
            rw [hrestored.cache, hrestored.now] at hcached
            exact hcached
    · intro stored hin
      rw [hrestored.cache] at hin
      exact Or.inl hin
    · refine ⟨[], ?_, nofun⟩
      rw [hrestored.signed, List.append_nil]

/-! Logging in -/

/-- Calls that neither write users nor sign. -/
def signsNothing : Login.Call → Bool
  | .session call => call.isRead
  | .sign _ => false
  | _ => true

/-- The sessions and the tokens are as they were. -/
def Unsigned (before after : Login.World) : Prop :=
  after.session = before.session ∧ after.usernames = before.usernames ∧ after.signed = before.signed

theorem Unsigned.answer {client : Login.Client} {call : Login.Call}
    (hcall : signsNothing call = true)
    (outcome : Outcome) {reached : Login.World} (hsame : Unsigned world reached) :
    Unsigned world (Login.answer client call outcome reached).2 := by
  obtain ⟨hsession, husernames, hsigned⟩ := hsame
  cases call with
  | session call => exact ⟨(answer_of_isRead hcall outcome).trans hsession, husernames, hsigned⟩
  | sign payload => cases hcall
  | prune =>
    refine ⟨?_, ?_, ?_⟩ <;> unfold Login.answer Login.World.prune <;> dsimp only <;> split_ifs <;>
      assumption
  | _ => exact ⟨hsession, husernames, hsigned⟩

theorem unsigned_eval (client : Login.Client) {α : Type} {program : Login.Async α}
    (huses : program.Uses (signsNothing · = true)) (policy : Login.Call → Login.World → Outcome)
    {reached : Login.World} (hsame : Unsigned world reached) :
    Unsigned world (eval (Login.answer client) policy program reached).2 :=
  huses.eval policy (fun _ outcome _ hcall hsame ↦ Unsigned.answer hcall outcome hsame) hsame

theorem retryAfterSeconds_unsigned (client : Login.Client) (username : String) :
    (Login.retryAfterSeconds client username).Uses (signsNothing · = true) := by
  have hblocked : ∀ counter, (Login.blockedFor counter).Uses (signsNothing · = true) :=
    fun counter ↦ Uses.bind (Uses.request rfl) fun _ ↦ trivial
  refine Uses.bind (Uses.request rfl) fun _ ↦ Uses.bind (hblocked _) fun seconds ↦ ?_
  cases seconds with
  | some seconds => trivial
  | none => exact Uses.bind (hblocked _) fun _ ↦ trivial

theorem verifyCredentials_unsigned (username password : String) :
    (Login.verifyCredentials username password).Uses (signsNothing · = true) := by
  refine Uses.bind (Uses.request rfl) fun reply ↦ Uses.bind (Uses.request rfl) fun _ ↦
    Uses.bind Uses.orThrow fun found ↦ ?_
  cases found.value with
  | none => trivial
  | some user =>
    refine Uses.bind (Uses.request rfl) fun isValid ↦ ?_
    cases isValid <;> trivial

theorem stored_of_userByName {reached : Login.World} (hsame : Unsigned world reached)
    {username : String} {user : User} (hname : reached.userByName username = some user) :
    world.session.stored user.id = some user := by
  obtain ⟨userId, -, hfound⟩ := Option.bind_eq_some_iff.mp hname
  rw [hsame.1] at hfound
  have hid : user.id = userId := @stored_id world.session userId user hfound
  rw [hid]
  exact hfound

/-- Credentials are good for a user that is there. -/
theorem eval_verifyCredentials {client : Login.Client} (policy : Login.Call → Login.World → Outcome)
    (username password : String) {reached : Login.World} (hsame : Unsigned world reached)
    {user : User} (hverified : (eval (Login.answer client) policy
      (Login.verifyCredentials username password) reached).1 = .ok (some user)) :
    world.session.stored user.id = some user := by
  have hfind : eval (Login.answer client) policy (Login.call (.findUserByName username)) reached =
      (.ok ((policy (.findUserByName username) reached).orFail
        { value := reached.userByName username, revision := reached.session.revision }),
            reached) := rfl
  unfold Login.verifyCredentials at hverified
  rw [bind_eq, eval_bind_of_ok _ policy hfind, bind_eq, eval_bind_of_ok _ policy rfl] at hverified
  rcases orFail_cases (policy (.findUserByName username) reached)
    ({ value := reached.userByName username, revision := reached.session.revision } :
      Stamped (Option User)) with ⟨error, herror⟩ | hfound
  · rw [herror] at hverified
    cases hverified
  · rw [hfound] at hverified
    cases hname : reached.userByName username with
    | none =>
      rw [hname] at hverified
      cases hverified
    | some found =>
      rw [hname] at hverified
      simp only [orThrow_ok, bind_eq, done_bind] at hverified
      rw [eval_bind_of_ok _ policy rfl] at hverified
      have hvalue : (if _ then some found else none) = some user := Except.ok.inj hverified
      split_ifs at hvalue
      obtain rfl := Option.some.inj hvalue
      exact stored_of_userByName hsame hname

/-- A login signs no token, or one that is good. -/
theorem evolves_login (client : Login.Client) (username password : String)
    (policy : Login.Call → Login.World → Outcome) :
    Evolves world (eval (Login.answer client) policy
      (Login.login client username password) world).2 := by
  have hunsigned : ∀ reached, Unsigned world reached → Evolves world reached :=
    fun reached hsame ↦ Evolves.of_session hsame.1 ⟨[], by rw [hsame.2.2, List.append_nil], nofun⟩
  have hstart : Unsigned world world := ⟨rfl, rfl, rfl⟩
  unfold Login.login
  split_ifs
  · exact hunsigned world hstart
  refine eval_bind_world _ policy (Evolves world) (fun seconds throttled hthrottled ↦ ?_)
    fun error reached hran ↦ ?_
  · have hallowed := unsigned_eval client (retryAfterSeconds_unsigned client username) policy hstart
    rw [hthrottled] at hallowed
    split_ifs
    · exact hunsigned throttled hallowed
    refine eval_bind_world _ policy (Evolves world) (fun found verified hverified ↦ ?_)
      fun error reached hran ↦ ?_
    · have hsame := unsigned_eval client (verifyCredentials_unsigned username password)
        policy hallowed
      have hstored := @eval_verifyCredentials world client policy username password
        throttled hallowed
      rw [hverified] at hsame hstored
      cases found with
      | none =>
        refine hunsigned _ (unsigned_eval client ?_ policy hsame)
        exact Uses.bind (Uses.request rfl) fun _ ↦ Uses.request rfl
      | some user =>
        have hdecided := @Unsigned.answer world client (.recordSuccess username) rfl .ok
          verified hsame
        refine Evolves.of_session hdecided.1
          ⟨[{ payload := Login.tokenClaims user, signedAt := _ }],
          congrArg (· ++ _) hdecided.2.2, fun token htoken ↦ ?_⟩
        obtain rfl := List.mem_singleton.mp htoken
        refine isGood_iff.mpr ⟨user, ?_, rfl, rfl⟩
        exact (congrArg (·.stored user.id) hdecided.1).trans (hstored rfl)
    · have hsame := unsigned_eval client (verifyCredentials_unsigned username password)
        policy hallowed
      rw [hran] at hsame
      exact hunsigned reached hsame
  · have hallowed := unsigned_eval client (retryAfterSeconds_unsigned client username) policy hstart
    rw [hran] at hallowed
    exact hunsigned reached hallowed

end Operations

/-! ### Every run -/

theorem sound_newAppliance (users : List User) (usernames : List (String × UserId)) (now : ℤ) :
    Sound (newAppliance users usernames now) where
  outdated := fun _ htoken ↦ absurd htoken List.not_mem_nil
  uncached := fun _ htoken ↦ absurd htoken List.not_mem_nil
  accounted := fun _ htoken ↦ absurd htoken List.not_mem_nil
  signed := fun _ htoken ↦ absurd htoken List.not_mem_nil

theorem Evolves.perform {appliance : Appliance} (hsound : Sound appliance) {operation : Operation}
    (hkeeps : RestoresNoToken appliance operation) :
    Evolves appliance.world (operation.change appliance.world) := by
  cases operation with
  | login client username password policy => exact evolves_login client username password policy
  | revoke program hrevokes policy => exact evolves_revoke hsound hrevokes policy
  | checkSession token policy => exact evolves_checkSession token policy
  | createBackup => exact Evolves.refl _
  | restoreBackup backup mode succeeds => exact evolves_restoreBackup hkeeps
  | clockAdvances ms =>
    exact
      { now_le := Int.le_add_of_nonneg_right (Int.natCast_nonneg ms)
        user := fun _ ↦ .kept rfl
        cache := fun _ hstored ↦ Or.inl hstored
        signed := ⟨[], (List.append_nil _).symm, nofun⟩ }
  | restart =>
    exact
      { now_le := le_rfl
        user := fun _ ↦ .kept rfl
        cache := fun _ hstored ↦ absurd hstored List.not_mem_nil
        signed := ⟨[], (List.append_nil _).symm, nofun⟩ }

/-- A revoked token stays rejected in every run whose restores bring back no token. -/
theorem revocationPermanent (run : ApplianceRun RestoresNoToken) :
    run.appliance.RejectsRevoked := by
  have hsound : Sound run.appliance := by
    refine run.reached.invariant (sound_newAppliance _ _ _) fun appliance operation _ hsound hmove ↦
      ?_
    exact hsound.perform (Evolves.perform hsound hmove.2)
  intro token htoken policy decision hdecision
  by_contra haccepted
  rcases (eval_isSessionValid policy token).2 decision hdecision
    (Bool.eq_true_of_not_eq_false haccepted) with
    hcached | hgood
  · exact hsound.uncached token htoken hcached
  · exact not_isGood_of_outdated (hsound.outdated token htoken) hgood

/-! A backup from before a revocation -/

/-- A client whose names are in lower case already. -/
def office : Login.Client where
  ip := "10.0.0.9"
  toLowerCase := fun username ↦ username

def bob : User := { id := "user-1", passwordHash := "hash-bob", role := .operator }

/-- Every password is right, and every call succeeds. -/
def rightPassword : Login.Call → Login.World → Outcome
  | .session (.verifyPassword ..), _ => .verified true
  | _, _ => .ok

def bobsBackup : Backup := [{ toUser := bob, username := "bob" }]

def bobsToken : UserTokenPayload := Login.tokenClaims bob

/-- The sessions of bob are revoked after a backup, and the backup is restored. -/
def restoredSessions : List Operation :=
  [.login office "bob" "secret" rightPassword, .createBackup,
    .revoke _ (.revokeSessions "user-1") fun _ _ ↦ .ok, .restoreBackup bobsBackup .overwrite true]

def restored : Appliance :=
  runMoves Appliance.perform (newAppliance [bob] [("bob", "user-1")] 0) restoredSessions

theorem reaches_restored : Reaches Appliance.perform
    (fun appliance operation ↦ appliance.Legal operation ∧ True)
    (newAppliance [bob] [("bob", "user-1")] 0) restored := by
  refine Reaches.refl.run ⟨⟨trivial, trivial⟩, ⟨trivial, trivial⟩, ⟨trivial, trivial⟩,
    ⟨?_, trivial⟩, trivial⟩
  exact List.mem_cons_self

theorem mem_revoked_restored : bobsToken ∈ restored.revoked := by decide

/-- The token is accepted again. -/
theorem not_revocationPermanent_restored :
    ¬ ∀ run : ApplianceRun fun _ _ ↦ True, run.appliance.RejectsRevoked := by
  intro hpermanent
  let run : ApplianceRun fun _ _ ↦ True :=
    { users := [bob]
      usernames := [("bob", "user-1")]
      now := 0
      appliance := restored
      reached := reaches_restored }
  let entry : CacheEntry :=
    { storedAt := 0, user := some { role := .operator, tokenVersion := 0 }, readAt := 2 }
  have hrejected := hpermanent run bobsToken mem_revoked_restored (fun _ _ ↦ .ok)
    { accepted := true, entry := some entry } (by decide)
  cases hrejected

end VmsLite.Backups
