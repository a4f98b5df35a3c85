import VmsLite.Users.Login
import VmsLite.Users.SequentialSessions

/-!
# Revocations that overlap

A revocation looks the version of its user up, awaits, and writes the next one. Two that overlap may
write the same version, and a login in between then has signed it. A token that was signed before a
revocation was committed is worthless once it has returned, in every run in which each commit writes
a version that no token signed so far carries (`revocationsCover`).

The proof puts two disciplines over the same runs: that of the session checks, which says that a
check rests on data no older than the revocations it has to respect, and one about versions, which
says that data of a certain age carries a version other than that of every token signed before.
-/

set_option autoImplicit false

namespace VmsLite.Users.Login

open VmsLite.Async Program

/-! ### The claim -/

/-- The operations that raise the version of a user. -/
inductive RaisesVersion (userId : UserId) : Users.Async Unit → Prop
  | revokeSessions : RaisesVersion userId ((revokeSessions userId).bind fun _ ↦ done ())
  | updateRole (role : Role) (actorId : UserId) :
      RaisesVersion userId ((updateRole userId role actorId).bind fun _ ↦ done ())
  | resetPassword (newPassword : String) :
      RaisesVersion userId ((resetPassword userId newPassword).bind fun _ ↦ done ())
  | changeOwnPassword (currentPassword newPassword : String) :
      RaisesVersion userId ((changeOwnPassword userId currentPassword newPassword).bind fun _ ↦
        done ())

/-- Logins, checks and revocations of one user start, and time passes; calls meet a condition. -/
def revocationRuns (client : Client) (userId : UserId) (condition : Call → Outcome → World → Prop)
    (system : System Call Reply Failure World Unit) :
    Move Call Reply Failure Outcome EnvironmentChange Unit → Prop
  | .start _ program =>
    (∃ username password, program = login client username password) ∨
    (∃ payload, program = onSession (checkSession payload system.world.session.returned)) ∨
    ∃ raises, RaisesVersion userId raises ∧ program = onSession raises
  | .advance thread outcome => ∀ call next,
    system.threads[thread]? = some ((), .await call next) → condition call outcome system.world
  | .environment (.clockAdvances _) => True
  | .environment (.usersWritten _) => False
  | .crash => False

/-- A process that has just started, with the users and their names. -/
def newProcess (users : List User) (usernames : List (String × UserId)) (now : ℤ) :
    System Call Reply Failure World Unit where
  threads := []
  world := { session := { users, now }, usernames }

/-- A run, as far as it has come. -/
structure RevocationRun (condition : Call → Outcome → World → Prop) where
  client : Client
  userId : UserId
  users : List User
  usernames : List (String × UserId)
  now : ℤ
  system : System Call Reply Failure World Unit
  reached : Reaches (machine client).move (revocationRuns client userId condition)
    (newProcess users usernames now) system

/-- The version that a token carries. -/
def SignedToken.version (token : SignedToken) : ℤ := token.payload.tv.getD 0

/-- Tokens that were signed before a revocation was committed are rejected by every check that
starts after it has returned, and carry another version than the user has now. -/
structure RevocationsCover (userId : UserId) (world : World) : Prop where
  rejected : ∀ verdict ∈ world.session.verdicts, verdict.payload.id = userId →
    verdict.decision.accepted = true → ∀ revocation ∈ verdict.returnedBefore,
      revocation.covers userId → ∀ token ∈ world.signed, token.payload = verdict.payload →
        revocation.committedAt ≤ token.signedAt
  version_ne : ∀ revocation ∈ world.session.returned, revocation.covers userId →
    ∀ token ∈ world.signed, token.payload.id = userId → token.signedAt < revocation.committedAt →
      ∀ user, world.session.stored userId = some user → user.tokenVersion ≠ token.version

/-- A commit that goes through writes a version that none of the user's tokens signed so far
carries. -/
def WritesUnsigned (call : Call) (outcome : Outcome) (world : World) : Prop :=
  ∀ userId role passwordHash version, call =
    .session (.updateUser userId role passwordHash version) →
    ∀ updated, (Users.answer (.updateUser userId role passwordHash version) outcome
      world.session).1 = .ok updated →
        ∀ token ∈ world.signed, token.payload.id = userId → token.version ≠ version

/-! ### Session programs beside logins -/

section Lifting

variable {client : Client} {α β : Type}

theorem onSession_bind (program : Users.Async α) (rest : α → Users.Async β) :
    onSession (program.bind rest) = (onSession program).bind fun value ↦
        onSession (rest value) := by
  induction program with
  | done value => rfl
  | failed error => rfl
  | await call next ih =>
    show await (.session call) (fun reply ↦ onSession ((next reply).bind rest)) =
      await (.session call) fun reply ↦ (onSession (next reply)).bind fun value ↦
        onSession (rest value)
    exact congrArg (await _) (funext ih)

theorem onSession_orThrow (reply : Except Failure α) :
    onSession (Program.orThrow reply) = Program.orThrow reply := by
  cases reply <;> rfl

/-- A session program makes the calls of its own. -/
theorem onSession_uses {allowed : Users.Call → Prop} {wider : Call → Prop}
    (hallowed : ∀ call, allowed call → wider (.session call)) {program : Users.Async α}
    (huses : program.Uses allowed) : (onSession program).Uses wider := by
  induction program with
  | done value => trivial
  | failed error => trivial
  | await call next ih => exact ⟨hallowed call huses.1, fun reply ↦ ih reply (huses.2 reply)⟩

/-- The discipline of sessions, with logins around. -/
def freshDiscipline (client : Client) : Discipline (machine client) where
  allowed := fun _ _ _ ↦ True
  rely := fun before after ↦ Evolves before.session after.session
  guarantee := fun before after ↦ Evolves before.session after.session
  rely_refl := fun world ↦ Evolves.refl world.session
  rely_trans := Evolves.trans
  rely_of_guarantee := id
  allowed_calm := fun _ ↦ trivial
  guarantee_synchronous := by
    intro call first second hsynchronous hevolves
    have hsame : (answer client call .ok second).2.session = second.session := by
      cases call with
      | prune =>
        show second.prune.session = second.session
        unfold World.prune
        split_ifs <;> rfl
      | _ => first | rfl | cases hsynchronous
    show Evolves first.session (answer client call .ok second).2.session
    rw [hsame]
    exact hevolves

/-- A session program that is safe by itself is safe with logins around. -/
theorem onSession_safe {program : Users.Async α} {post : α → Users.World → Prop} {world : World}
    (hsafe : SafeSession program post world.session) :
    (onSession program).Safe (freshDiscipline client) (fun value later ↦ post value later.session)
      (fun _ _ ↦ True) world := by
  induction program generalizing world with
  | done value => exact fun later hlater ↦ hsafe later.session hlater
  | failed error => exact fun _ _ ↦ trivial
  | await call next ih =>
    intro later hlater outcome _
    obtain ⟨hguarantee, hnext⟩ := hsafe later.session hlater outcome trivial
    exact ⟨hguarantee, ih _ hnext⟩

/-- Calls of a login. -/
def Call.isOfLogin : Call → Bool
  | .session .resolved | .session (.verifyPassword ..) => true
  | .session _ => false
  | _ => true

theorem login_uses (username password : String) :
    (login client username password).Uses (Call.isOfLogin · = true) := by
  have hblocked : ∀ counter, (blockedFor counter).Uses (Call.isOfLogin · = true) :=
    fun counter ↦ Uses.bind (Uses.request rfl) fun _ ↦ trivial
  have hthrottle : (retryAfterSeconds client username).Uses (Call.isOfLogin · = true) := by
    refine Uses.bind (Uses.request rfl) fun _ ↦ Uses.bind (hblocked _) fun seconds ↦ ?_
    cases seconds with
    | some seconds => trivial
    | none => exact Uses.bind (hblocked _) fun _ ↦ trivial
  have hverify : (verifyCredentials username password).Uses (Call.isOfLogin · = true) := by
    refine Uses.bind (Uses.request rfl) fun reply ↦ Uses.bind (Uses.request rfl) fun _ ↦
      Uses.bind Uses.orThrow fun found ↦ ?_
    cases found.value with
    | none => trivial
    | some user => exact Uses.bind (Uses.request rfl) fun _ ↦ trivial
  unfold login
  split_ifs
  · trivial
  refine Uses.bind hthrottle fun seconds ↦ ?_
  split_ifs
  · trivial
  refine Uses.bind hverify fun verified ↦ ?_
  cases verified with
  | none => exact Uses.bind (Uses.request rfl) fun _ ↦ Uses.request rfl
  | some user =>
    exact Uses.bind (Uses.request rfl) fun _ ↦ Uses.bind (Uses.request rfl) fun _ ↦ Uses.request rfl

/-- A login leaves the sessions as they are. -/
theorem session_answer {call : Call} (hcall : call.isOfLogin = true) (outcome : Outcome)
    (world : World) : (answer client call outcome world).2.session = world.session := by
  cases call with
  | session call => cases call <;> first | rfl | cases hcall
  | prune =>
    show world.prune.session = world.session
    unfold World.prune
    split_ifs <;> rfl
  | _ => rfl

end Lifting

/-! ### Versions and the tokens signed before -/

section Versions

variable (userId : UserId)

/-- The tokens of the user that were signed before a write carry other versions. -/
def Apart (signed : List SignedToken) (readAt : ℕ) (version : ℤ) : Prop :=
  ∀ token ∈ signed, token.payload.id = userId → token.signedAt < readAt → token.version ≠ version

/-- What is known of an entry of the cache. -/
structure EntryApart (world : World) (entry : CacheEntry) : Prop where
  readAt_le : entry.readAt ≤ world.session.revision
  apart : ∀ user, entry.user = some user →
    Apart userId world.signed entry.readAt user.tokenVersion

/-- Wherever the user's version is known, no token signed before carries it. -/
structure Versioned (world : World) : Prop where
  row : ∀ user, world.session.stored userId = some user →
    Apart userId world.signed world.session.revision user.tokenVersion
  cached : ∀ stored ∈ world.session.cache, stored.1 = userId → EntryApart userId world stored.2
  verdicts : ∀ verdict ∈ world.session.verdicts, verdict.payload.id = userId →
    ∀ entry, verdict.decision.entry = some entry → EntryApart userId world entry

/-- What any number of steps do: writes are counted, tokens are signed after what was written
before, and versions stay apart from those signed before. -/
structure Keeps (before after : World) : Prop where
  revision_le : before.session.revision ≤ after.session.revision
  signed : ∀ token ∈ after.signed, token ∈ before.signed ∨
    before.session.revision ≤ token.signedAt
  versioned : Versioned userId before → Versioned userId after

variable {userId} {before after : World}

theorem Keeps.refl (world : World) : Keeps userId world world :=
  ⟨Nat.le_refl _, fun _ htoken ↦ Or.inl htoken, id⟩

theorem Keeps.trans {third : World} (hfirst : Keeps userId before after)
    (hsecond : Keeps userId after third) : Keeps userId before third where
  revision_le := hfirst.revision_le.trans hsecond.revision_le
  signed := by
    intro token htoken
    rcases hsecond.signed token htoken with hold | hnew
    · exact hfirst.signed token hold
    · exact Or.inr (hfirst.revision_le.trans hnew)
  versioned := hsecond.versioned ∘ hfirst.versioned

/-- What is apart from a version read in time stays apart. -/
theorem Keeps.apart (hkeeps : Keeps userId before after) {readAt : ℕ} {version : ℤ}
    (hreadAt : readAt ≤ before.session.revision)
    (hapart : Apart userId before.signed readAt version) :
    Apart userId after.signed readAt version := by
  intro token htoken hid hsigned
  rcases hkeeps.signed token htoken with hold | hnew
  · exact hapart token hold hid hsigned
  · omega

theorem EntryApart.keeps {entry : CacheEntry} (hentry : EntryApart userId before entry)
    (hkeeps : Keeps userId before after) : EntryApart userId after entry where
  readAt_le := hentry.readAt_le.trans hkeeps.revision_le
  apart := fun user huser ↦ hkeeps.apart hentry.readAt_le (hentry.apart user huser)

/-- Steps that write no user keep what is known, if what they remember is known. -/
theorem Keeps.of_users (husers : after.session.users = before.session.users)
    (hrevision : after.session.revision = before.session.revision)
    (hsigned : ∀ token ∈ after.signed, token ∈ before.signed ∨
      before.session.revision ≤ token.signedAt)
    (hcached : ∀ stored ∈ after.session.cache, stored ∈ before.session.cache ∨
      (stored.1 = userId → EntryApart userId before stored.2))
    (hverdicts : ∀ verdict ∈ after.session.verdicts, verdict ∈ before.session.verdicts ∨
      (verdict.payload.id = userId → ∀ entry, verdict.decision.entry = some entry →
        EntryApart userId before entry)) : Keeps userId before after := by
  have hapart : ∀ {readAt version}, readAt ≤ before.session.revision →
      Apart userId before.signed readAt version → Apart userId after.signed readAt version := by
    intro readAt version hreadAt hbefore token htoken hid hlater
    rcases hsigned token htoken with hold | hnew
    · exact hbefore token hold hid hlater
    · omega
  have hentry : ∀ entry, EntryApart userId before entry → EntryApart userId after entry :=
    fun entry hapartEntry ↦
      ⟨hrevision ▸ hapartEntry.readAt_le, fun user huser ↦
        hapart hapartEntry.readAt_le (hapartEntry.apart user huser)⟩
  refine ⟨Nat.le_of_eq hrevision.symm, hsigned, fun hversioned ↦ ⟨fun user huser ↦ ?_,
    fun stored hstored hid ↦ ?_, fun verdict hverdict hid entry hfound ↦ ?_⟩⟩
  · have hstored : before.session.stored userId = some user := by
      unfold World.stored at huser ⊢
      rw [← husers]
      exact huser
    rw [hrevision]
    exact hapart (Nat.le_refl _) (hversioned.row user hstored)
  · rcases hcached stored hstored with hold | hnew
    · exact hentry _ (hversioned.cached stored hold hid)
    · exact hentry _ (hnew hid)
  · rcases hverdicts verdict hverdict with hold | hnew
    · exact hentry _ (hversioned.verdicts verdict hold hid entry hfound)
    · exact hentry _ (hnew hid entry hfound)

/-- Steps that change nothing of this. -/
theorem Keeps.of_session (hsession : after.session = before.session)
    (hsigned : ∀ token ∈ after.signed, token ∈ before.signed ∨
      before.session.revision ≤ token.signedAt) : Keeps userId before after :=
  Keeps.of_users (congrArg World.users hsession) (congrArg World.revision hsession) hsigned
    (fun _ hstored ↦ Or.inl (hsession ▸ hstored)) fun _ hverdict ↦ Or.inl (hsession ▸ hverdict)

/-- The commit of a revocation keeps versions apart. -/
theorem Keeps.updateUser {client : Client} {role : Option Role} {passwordHash : Option String}
    {version : ℤ} {outcome : Outcome}
    (hwrites : WritesUnsigned (.session (.updateUser userId role passwordHash version))
      outcome before) :
    Keeps userId before
      (answer client (.session (.updateUser userId role passwordHash version)) outcome
          before).2 := by
  let change : User → User := fun user ↦
    { user with
      role := role.getD user.role
      passwordHash := passwordHash.getD user.passwordHash
      tokenVersion := version }
  have hanswer : Users.answer (.updateUser userId role passwordHash version) outcome
    before.session =
      before.session.answerUpdate userId change outcome := rfl
  have hreply := hwrites userId role passwordHash version rfl
  rcases answerUpdate_cases userId change outcome with ⟨error, hfailed⟩ | ⟨updated, hupdated⟩
  · refine Keeps.of_session ?_ fun _ htoken ↦ Or.inl htoken
    show (Users.answer (.updateUser userId role passwordHash version) outcome before.session).2 = _
    rw [hanswer, hfailed]
  · have hapart := hreply updated (by rw [hanswer, hupdated])
    have hsession : (answer client (.session (.updateUser userId role passwordHash version)) outcome
        before).2.session = before.session.write (before.session.users.map fun user ↦
          if user.id = userId then change user else user) := by
      show (Users.answer (.updateUser userId role passwordHash version) outcome before.session).2 =
        _
      rw [hanswer, hupdated]
    have hentry : ∀ entry, EntryApart userId before entry → EntryApart userId
        (answer client (.session (.updateUser userId role passwordHash version)) outcome before).2
          entry := by
      refine fun entry hapartEntry ↦ ⟨?_, hapartEntry.apart⟩
      rw [hsession]
      exact Nat.le_succ_of_le hapartEntry.readAt_le
    refine ⟨?_, fun _ htoken ↦ Or.inl htoken, fun hversioned ↦ ⟨?_, ?_, ?_⟩⟩
    · rw [hsession]
      exact Nat.le_succ _
    · intro user huser token htoken hid _
      rw [hsession, stored_write, @find_map_change _ _ _ change fun _ ↦ rfl] at huser
      obtain ⟨row, hrow, rfl⟩ := Option.map_eq_some_iff.mp huser
      rw [if_pos (@stored_id before.session _ _ hrow)]
      exact hapart token htoken hid
    · intro stored hstored hid
      rw [hsession] at hstored
      exact hentry _ (hversioned.cached stored hstored hid)
    · intro verdict hverdict hid entry hfound
      rw [hsession] at hverdict
      exact hentry _ (hversioned.verdicts verdict hverdict hid entry hfound)

end Versions

/-! ### The programs -/

/-- The calls of operations that raise the version of a user. -/
def Call.raises (userId : UserId) : Users.Call → Prop
  | .updateUser target .. => target = userId
  | .invalidateSessionCache .. => True
  | call => call.isRead = true

section Programs

variable {userId : UserId}

theorem raises_of_isRead {call : Users.Call} (hread : call.isRead = true) :
    Call.raises userId call := by
  cases call <;> first | exact hread | trivial

theorem commit_raises {write : Users.Async (Except Failure (Stamped User))}
    (hwrite : write.Uses (Call.raises userId)) : (commit userId write).Uses (Call.raises userId) :=
  hwrite.bind fun _ ↦ Uses.bind Uses.orThrow fun _ ↦ Uses.bind (Uses.request trivial) fun _ ↦
    trivial

theorem updateUser_raises (role : Option Role) (passwordHash : Option String) (version : ℤ) :
    (query (.updateUser userId role passwordHash version)).Uses (Call.raises userId) :=
  Uses.bind (Uses.request rfl) fun _ ↦ Uses.bind (Uses.request rfl) fun _ ↦ trivial

theorem requireUser_raises : (requireUser userId).Uses (Call.raises userId) :=
  (requireUser_reads userId).mono fun _ ↦ raises_of_isRead

theorem resetPassword_raises (newPassword : String) :
    (resetPassword userId newPassword).Uses (Call.raises userId) := by
  unfold resetPassword
  split_ifs
  · trivial
  · exact requireUser_raises.bind fun user ↦ Uses.bind (Uses.request rfl) fun hash ↦
      commit_raises (updateUser_raises _ _ _)

/-- What they call. -/
theorem RaisesVersion.uses {program : Users.Async Unit} (hraises : RaisesVersion userId program) :
    program.Uses (Call.raises userId) := by
  cases hraises with
  | revokeSessions =>
    refine Uses.bind (requireUser_raises.bind fun user ↦ ?_) fun _ ↦ trivial
    exact commit_raises (updateUser_raises _ _ _)
  | updateRole role actorId =>
    refine Uses.bind (requireUser_raises.bind fun user ↦ ?_) fun _ ↦ trivial
    split_ifs
    · trivial
    · trivial
    · refine Uses.bind ((assertNotLastAdmin_reads user).mono fun _ ↦ raises_of_isRead) fun _ ↦ ?_
      exact commit_raises (updateUser_raises _ _ _)
    · exact commit_raises (updateUser_raises _ _ _)
  | resetPassword newPassword =>
    exact (resetPassword_raises newPassword).bind fun _ ↦ trivial
  | changeOwnPassword currentPassword newPassword =>
    refine Uses.bind (requireUser_raises.bind fun user ↦ Uses.bind (Uses.request rfl) fun verified ↦
      ?_)
      fun _ ↦ trivial
    split_ifs
    · exact resetPassword_raises newPassword
    · trivial

end Programs

/-! ### The discipline of versions -/

section Discipline

variable {client : Client} {userId : UserId} {world : World}

theorem signed_answer {call : Call} (outcome : Outcome) :
    ∀ token ∈ (answer client call outcome world).2.signed, token ∈ world.signed ∨
      world.session.revision ≤ token.signedAt := by
  intro token htoken
  cases call with
  | sign payload =>
    rcases List.mem_append.mp htoken with hold | hnew
    · exact Or.inl hold
    · obtain rfl := List.mem_singleton.mp hnew
      exact Or.inr (Nat.le_refl _)
  | prune =>
    have hsame : world.prune.signed = world.signed := by
      unfold World.prune
      split_ifs <;> rfl
    exact Or.inl (hsame ▸ htoken)
  | _ => exact Or.inl htoken

/-- The calls of a login keep versions apart. -/
theorem Keeps.login {call : Call} (hcall : call.isOfLogin = true) (outcome : Outcome) :
    Keeps userId world (answer client call outcome world).2 :=
  Keeps.of_session (session_answer hcall outcome world) (signed_answer outcome)

def versionDiscipline (client : Client) (userId : UserId) : Discipline (machine client) where
  allowed := WritesUnsigned
  rely := Keeps userId
  guarantee := Keeps userId
  rely_refl := Keeps.refl
  rely_trans := Keeps.trans
  rely_of_guarantee := id
  allowed_calm := by
    intro call world hsynchronous userId role passwordHash version hcall
    rw [hcall] at hsynchronous
    cases hsynchronous
  guarantee_synchronous := by
    intro call first second hsynchronous hkeeps
    have hlogin : call.isOfLogin = true := by
      cases call <;> first | rfl | cases hsynchronous
    exact hkeeps.trans (Keeps.login hlogin .ok)

/-- A program that is safe among the steps of others, with what it returns. -/
def SafeVersions {α : Type} (client : Client) (userId : UserId) (program : Async α)
    (post : α → World → Prop) (world : World) : Prop :=
  program.Safe (versionDiscipline client userId) post (fun _ _ ↦ True) world

theorem login_safe (username password : String) :
    SafeVersions client userId (login client username password) (fun _ _ ↦ True) world :=
  Safe.of_uses (login_uses username password)
    (fun _ outcome _ hcall _ ↦ Keeps.login hcall outcome) world

/-- Session calls that change nothing. -/
theorem Keeps.read {call : Users.Call} (hread : call.isRead = true) (outcome : Outcome) :
    Keeps userId world (answer client (.session call) outcome world).2 :=
  Keeps.of_session (answer_of_isRead hread outcome) fun _ htoken ↦ Or.inl htoken

theorem RaisesVersion.safe {program : Users.Async Unit} (hraises : RaisesVersion userId program) :
    SafeVersions client userId (onSession program) (fun _ _ ↦ True) world := by
  have huses : (onSession program).Uses fun call ↦
      ∃ request, call = .session request ∧ Call.raises userId request :=
    onSession_uses (fun call hcall ↦ ⟨call, rfl, hcall⟩) hraises.uses
  refine Safe.of_uses huses ?_ world
  rintro call outcome world ⟨request, rfl, hrequest⟩ hallowed
  by_cases hread : request.isRead = true
  · exact @Keeps.read client userId world request hread outcome
  · cases request with
    | updateUser target role passwordHash version =>
      obtain rfl : target = userId := hrequest
      exact @Keeps.updateUser target world client role passwordHash version outcome hallowed
    | invalidateSessionCache target committedAt =>
      cases target with
      | none =>
        exact Keeps.of_users rfl rfl (fun _ ↦ Or.inl)
          (fun _ hstored ↦ absurd hstored List.not_mem_nil)
          fun _ ↦ Or.inl
      | some target =>
        exact Keeps.of_users rfl rfl (fun _ ↦ Or.inl)
          (fun _ hstored ↦ Or.inl (List.mem_filter.mp hstored).1) fun _ ↦ Or.inl
    | _ => exact absurd hrequest hread

/-- One session call, and a stable fact about its reply. -/
theorem SafeVersions.request {request : Users.Call} {post : Users.Reply request → World → Prop}
    (hstable : ∀ reply first second, Keeps userId first second → post reply first →
      post reply second)
    (hstep : ∀ later, Keeps userId world later → ∀ outcome,
      Keeps userId later (answer client (.session request) outcome later).2 ∧
        post (Users.answer request outcome later.session).1
          (answer client (.session request) outcome later).2) :
    SafeVersions client userId (onSession (Users.call request)) post world :=
  Safe.request hstable fun later hlater outcome _ ↦ hstep later hlater outcome

theorem SafeVersions.bind {α β : Type} {program : Async α} {rest : α → Async β}
    {middle : α → World → Prop} {post : β → World → Prop}
    (hfirst : SafeVersions client userId program middle world)
    (hrest : ∀ value world, middle value world →
      SafeVersions client userId (rest value) post world) :
    SafeVersions client userId (program.bind rest) post world :=
  Safe.bind hfirst hrest

/-- A query that changes nothing and the wait for its answer, with a stable fact about the
answer. -/
theorem SafeVersions.query {request : Users.Call} {post : Users.Reply request → World → Prop}
    (hread : request.isRead = true)
    (hstable : ∀ reply first second, Keeps userId first second → post reply first →
      post reply second)
    (hpost : ∀ later, Keeps userId world later → ∀ outcome,
      post (Users.answer request outcome later.session).1
        (answer client (.session request) outcome later).2) :
    SafeVersions client userId (onSession (query request)) post world := by
  show SafeVersions client userId (onSession ((Users.call request).bind fun reply ↦
    (Users.call .resolved).bind fun _ ↦ done reply)) post world
  rw [onSession_bind]
  refine SafeVersions.bind (SafeVersions.request hstable fun later hlater outcome ↦
    ⟨Keeps.read hread outcome, hpost later hlater outcome⟩) fun reply asked hasked ↦ ?_
  have hresolved : SafeVersions client userId (onSession (Users.call .resolved))
      (fun _ later ↦ post reply later) asked :=
    SafeVersions.request (fun _ first second ↦ hstable reply first second)
      fun later hlater outcome ↦ ⟨Keeps.read rfl outcome,
        hstable reply _ _ (hlater.trans (@Keeps.read client userId later .resolved rfl outcome))
          hasked⟩
  rw [onSession_bind]
  exact SafeVersions.bind hresolved fun _ resolved hpost later hlater ↦
    hstable reply _ _ hlater hpost

theorem SafeVersions.orThrow {α : Type} {reply : Except Failure α} {post : α → World → Prop}
    (hpost : ∀ value, reply = .ok value → ∀ later, Keeps userId world later → post value later) :
    SafeVersions client userId (onSession (Program.orThrow reply)) post world := by
  rw [onSession_orThrow]
  exact Safe.orThrow hpost fun _ _ _ _ ↦ trivial

/-- A call that changes nothing keeps what is stable. -/
theorem SafeVersions.read {request : Users.Call} (hread : request.isRead = true)
    {fact : World → Prop}
    (hstable : ∀ first second, Keeps userId first second → fact first → fact second)
    (hfact : fact world) :
    SafeVersions client userId (onSession (Users.call request)) (fun _ later ↦ fact later) world :=
  SafeVersions.request (fun _ ↦ hstable) fun later hlater outcome ↦
    have hkeeps := @Keeps.read client userId later request hread outcome
    ⟨hkeeps, hstable _ _ (hlater.trans hkeeps) hfact⟩

/-! ### A check -/

/-- What the database has answered about the user. -/
def FoundApart (userId : UserId) (found : Stamped (Option User)) (world : World) : Prop :=
  found.revision ≤ world.session.revision ∧ ∀ user, found.value = some user →
    Apart userId world.signed found.revision user.tokenVersion

theorem FoundApart.keeps {found : Stamped (Option User)} {first second : World}
    (hfound : FoundApart userId found first) (hkeeps : Keeps userId first second) :
    FoundApart userId found second :=
  ⟨hfound.1.trans hkeeps.revision_le, fun user huser ↦ hkeeps.apart hfound.1 (hfound.2 user huser)⟩

/-- The entry that a check makes of an answer. -/
theorem FoundApart.entry {found : Stamped (Option User)} (hfound : FoundApart userId found world)
    (now : ℤ) : EntryApart userId world
      { storedAt := now
        user := found.value.map fun user ↦ { role := user.role, tokenVersion := user.tokenVersion }
        readAt := found.revision } where
  readAt_le := hfound.1
  apart := by
    intro selected hselected
    obtain ⟨user, huser, rfl⟩ := Option.map_eq_some_iff.mp hselected
    exact hfound.2 user huser

/-- Storing an entry that is known. -/
theorem Keeps.cacheSetIf {target : UserId} {entry : CacheEntry} (generation : ℕ × ℕ)
    (hentry : target = userId → EntryApart userId world entry) :
    Keeps userId world (answer client (.session (.cacheSetIf target generation entry)) .ok
        world).2 := by
  show Keeps userId world { world with
    session := if world.session.generationOf target = generation then
      world.session.remember target entry else world.session
    versions := world.versions ++ [] }
  split_ifs
  · refine Keeps.of_users rfl rfl (fun _ ↦ Or.inl) (fun stored hstored ↦ ?_) fun _ ↦ Or.inl
    rcases World.mem_remember hstored with hold | rfl
    · exact Or.inl hold
    · exact Or.inr hentry
  · exact Keeps.of_session rfl fun _ ↦ Or.inl

/-- What is known while a check of a user looks for an entry. -/
def Known (userId target : UserId) (entry : Option CacheEntry) (world : World) : Prop :=
  Versioned userId world ∧ ∀ known, entry = some known → target = userId →
    EntryApart userId world known

theorem Known.keeps {target : UserId} {entry : Option CacheEntry} {first second : World}
    (hkeeps : Keeps userId first second) (hknown : Known userId target entry first) :
    Known userId target entry second :=
  ⟨hkeeps.versioned hknown.1, fun known hentry hid ↦ (hknown.2 known hentry hid).keeps hkeeps⟩

/-- The cache holds an entry that is known. -/
theorem cacheGet_known (target : UserId) (hversioned : Versioned userId world) :
    SafeVersions client userId (onSession (Users.call (.cacheGet target)))
      (fun cached later ↦ Known userId target cached later) world := by
  refine SafeVersions.request (fun _ _ _ ↦ Known.keeps) fun later hlater outcome ↦ ?_
  have hread := @Keeps.read client userId later (.cacheGet target) rfl outcome
  have hknown : Known userId target (later.session.cache.lookup target) later := by
    refine ⟨hlater.versioned hversioned, fun entry hentry hid ↦ ?_⟩
    obtain ⟨first, second, hcache, -⟩ := List.lookup_eq_some_iff.mp hentry
    exact (hlater.versioned hversioned).cached (target, entry) (hcache ▸ by simp) hid
  exact ⟨hread, hknown.keeps hread⟩

/-- The database answers with a row that is known. -/
theorem findUser_apart (target : UserId) (hversioned : Versioned userId world) :
    SafeVersions client userId (onSession (query (.findUser target)))
      (fun reply later ↦ ∀ found, reply = .ok found → target = userId →
        FoundApart userId found later) world := by
  refine SafeVersions.query rfl (fun reply first second hkeeps hpost found hfound hid ↦ ?_)
    fun later hlater outcome found hfound hid ↦ ?_
  · exact (hpost found hfound hid).keeps hkeeps
  · rcases orFail_cases outcome
      ({ value := later.session.stored target, revision := later.session.revision } :
        Stamped (Option User)) with ⟨error, herror⟩ | hok
    · cases herror.symm.trans hfound
    · obtain rfl := Except.ok.inj (hok.symm.trans hfound)
      refine ⟨Nat.le_refl _, fun user huser ↦ ?_⟩
      exact (hlater.versioned hversioned).row user (hid ▸ huser)

/-- A check of the user rests on an entry whose version no token signed before carries. -/
theorem sessionEntry_apart (target : UserId) (hversioned : Versioned userId world) :
    SafeVersions client userId (onSession (sessionEntry target))
      (fun entry later ↦ target = userId → EntryApart userId later entry) world := by
  unfold sessionEntry
  rw [bind_eq, onSession_bind]
  refine SafeVersions.bind (cacheGet_known target hversioned) fun cached got hgot ↦ ?_
  rw [bind_eq, onSession_bind]
  refine SafeVersions.bind (SafeVersions.read rfl (fun _ _ ↦ Known.keeps) hgot)
    fun now clocked hclocked ↦ ?_
  split
  · next entry hfresh =>
    obtain ⟨hcached, -⟩ := Option.filter_eq_some_iff.mp hfresh
    exact fun later hlater hid ↦ (hclocked.2 entry hcached hid).keeps hlater
  rw [bind_eq, onSession_bind]
  refine SafeVersions.bind (SafeVersions.read rfl (fun _ _ hkeeps ↦ hkeeps.versioned) hclocked.1)
    fun generation read hread ↦ ?_
  rw [bind_eq, onSession_bind]
  refine SafeVersions.bind (findUser_apart target hread) fun reply answered hanswered ↦ ?_
  rw [bind_eq, onSession_bind]
  refine SafeVersions.bind (SafeVersions.orThrow fun found hfound later hlater hid ↦
    (hanswered found hfound hid).keeps hlater) fun found thrown hthrown ↦ ?_
  rw [bind_eq, onSession_bind]
  refine SafeVersions.bind (@SafeVersions.read client userId thrown .dateNow rfl
    (fun later ↦ target = userId → FoundApart userId found later)
    (fun _ _ hkeeps hfound hid ↦ (hfound hid).keeps hkeeps) hthrown) fun now stamped hstamped ↦ ?_
  let entry : CacheEntry :=
    { storedAt := now
      user := found.value.map fun user ↦ { role := user.role, tokenVersion := user.tokenVersion }
      readAt := found.revision }
  have hentry : ∀ later, Keeps userId stamped later → target = userId →
      EntryApart userId later entry :=
    fun later hlater hid ↦ ((hstamped hid).entry now).keeps hlater
  have hset : SafeVersions client userId
      (onSession (Users.call (.cacheSetIf target generation entry)))
      (fun _ later ↦ target = userId → EntryApart userId later entry) stamped := by
    refine SafeVersions.request (fun _ _ _ hkeeps hpost hid ↦ (hpost hid).keeps hkeeps)
      fun later hlater outcome ↦ ?_
    have hremember := @Keeps.cacheSetIf client userId later target entry generation
      (hentry later hlater)
    exact ⟨hremember, fun hid ↦ (hentry later hlater hid).keeps hremember⟩
  rw [bind_eq, onSession_bind]
  exact SafeVersions.bind hset fun _ stored hstored later hlater hid ↦ (hstored hid).keeps hlater

/-- A check of any token keeps versions apart. -/
theorem checkSession_apart (payload : UserTokenPayload) (returnedBefore : List Revocation)
    (hversioned : Versioned userId world) :
    SafeVersions client userId (onSession (checkSession payload returnedBefore)) (fun _ _ ↦ True)
      world := by
  have hdecision : SafeVersions client userId (onSession (isSessionValid payload))
      (fun decision later ↦ payload.id = userId → ∀ entry, decision.entry = some entry →
        EntryApart userId later entry) world := by
    unfold isSessionValid
    split_ifs
    · exact fun _ _ _ entry hentry ↦ nomatch hentry
    · rw [bind_eq, onSession_bind]
      refine SafeVersions.bind (sessionEntry_apart payload.id hversioned) fun found reached hfound ↦
        ?_
      intro later hlater hid entry hentry
      obtain rfl := Option.some.inj hentry
      exact (hfound hid).keeps hlater
  unfold checkSession
  rw [bind_eq, onSession_bind]
  refine SafeVersions.bind hdecision fun decision decided hdecided ↦ ?_
  refine SafeVersions.request (fun _ _ _ _ hpost ↦ hpost) fun later hlater outcome ↦ ⟨?_, trivial⟩
  refine Keeps.of_users rfl rfl (fun _ ↦ Or.inl) (fun _ ↦ Or.inl) fun verdict hverdict ↦ ?_
  rcases List.mem_append.mp hverdict with hold | hnew
  · exact Or.inl hold
  · obtain rfl := List.mem_singleton.mp hnew
    exact Or.inr fun hid entry hentry ↦ (hdecided hid entry hentry).keeps hlater

end Discipline

/-! ### Runs -/

section Runs

variable {client : Client} {userId : UserId}

theorem newProcess_versioned (users : List User) (usernames : List (String × UserId)) (now : ℤ) :
    Versioned userId (newProcess users usernames now).world where
  row := fun _ _ _ htoken ↦ absurd htoken List.not_mem_nil
  cached := fun _ hstored ↦ absurd hstored List.not_mem_nil
  verdicts := fun _ hverdict ↦ absurd hverdict List.not_mem_nil

theorem RaisesVersion.revokes {program : Users.Async Unit}
    (hraises : RaisesVersion userId program) :
    RevokesTokens program := by
  cases hraises with
  | revokeSessions => exact .revokeSessions userId
  | updateRole role actorId => exact .updateRole userId role actorId
  | resetPassword newPassword => exact .resetPassword userId newPassword
  | changeOwnPassword currentPassword newPassword =>
    exact .changeOwnPassword userId currentPassword newPassword

theorem revocationRuns_fresh (condition : Call → Outcome → World → Prop) (users : List User)
    (usernames : List (String × UserId)) (now : ℤ) :
    Respects (freshDiscipline client) (revocationRuns client userId condition)
      (newProcess users usernames now) where
  initial_safe := fun _ hthread ↦ absurd hthread List.not_mem_nil
  start_safe := by
    intro system tag program _ hevolves hlegal
    have hsound := hevolves.sound (startedProcess_sound users 0 now)
    rcases hlegal with ⟨username, password, rfl⟩ | ⟨payload, rfl⟩ | ⟨raises, hraises, rfl⟩
    · refine Safe.of_uses (login_uses username password) (fun call outcome world hcall _ ↦ ?_)
        system.world
      show Evolves world.session (answer client call outcome world).2.session
      rw [session_answer hcall]
      exact Evolves.refl world.session
    · exact onSession_safe (Users.checkSession_safe payload hsound)
    · exact onSession_safe (hraises.revokes.safe system.world.session)
  advance_allowed := fun _ _ ↦ trivial
  crash_rely := False.elim
  environment_rely := by
    intro system event hlegal
    cases event with
    | clockAdvances ms => exact Evolves.of_same (Nat.le_refl _) rfl rfl rfl rfl rfl
    | usersWritten users => exact hlegal.elim

theorem revocationRuns_versions (users : List User) (usernames : List (String × UserId)) (now : ℤ) :
    Respects (versionDiscipline client userId) (revocationRuns client userId WritesUnsigned)
      (newProcess users usernames now) where
  initial_safe := fun _ hthread ↦ absurd hthread List.not_mem_nil
  start_safe := by
    intro system tag program _ hkeeps hlegal
    have hversioned := hkeeps.versioned (newProcess_versioned users usernames now)
    rcases hlegal with ⟨username, password, rfl⟩ | ⟨payload, rfl⟩ | ⟨raises, hraises, rfl⟩
    · exact login_safe username password
    · exact checkSession_apart payload _ hversioned
    · exact hraises.safe
  advance_allowed := fun hlegal hthread ↦ hlegal _ _ hthread
  crash_rely := False.elim
  environment_rely := by
    intro system event hlegal
    cases event with
    | clockAdvances ms =>
      exact Keeps.of_users rfl rfl (fun _ ↦ Or.inl) (fun _ ↦ Or.inl) fun _ ↦ Or.inl
    | usersWritten users => exact hlegal.elim

/-- A token that was signed before a revocation was committed is worthless once the revocation has
returned, in every run in which no commit writes a version that a token carries. -/
theorem revocationsCover (run : RevocationRun WritesUnsigned) :
    RevocationsCover run.userId run.system.world := by
  have hsound : Users.Sound run.system.world.session :=
    (run.reached.safe (revocationRuns_fresh _ run.users run.usernames run.now)).2.sound
      (startedProcess_sound run.users 0 run.now)
  have hversioned : Versioned run.userId run.system.world :=
    (run.reached.safe (revocationRuns_versions run.users run.usernames run.now)).2.versioned
      (newProcess_versioned run.users run.usernames run.now)
  constructor
  · intro verdict hverdict hid haccepted revocation hrevocation hcovers token htoken hpayload
    obtain ⟨entry, hentry, hgood, hread⟩ := hsound.fresh verdict hverdict haccepted
    obtain ⟨user, huser, -, hversion⟩ := accepts_iff.mp hgood
    by_contra hearlier
    have hsigned : token.signedAt < entry.readAt :=
      (Nat.lt_of_not_le hearlier).trans_le (hread revocation hrevocation (hid ▸ hcovers))
    have hapart := (hversioned.verdicts verdict hverdict hid entry hentry).apart user huser token
      htoken (hpayload ▸ hid) hsigned
    rw [← hpayload] at hversion
    exact hapart hversion.symm
  · intro revocation hrevocation _ token htoken hid hsigned user hstored hsame
    have hcommitted := hsound.committed revocation hrevocation
    exact hversioned.row user hstored token htoken hid (hsigned.trans_le hcommitted) hsame.symm

end Runs

/-! ### Two revocations that write the same version -/

def bob : User where
  id := "user-1"
  passwordHash := "hash"

def office : Client where
  ip := "10.0.0.7"
  toLowerCase := id

/-- Two revocations look the version up; one is done, then a login, and then the other one. -/
def overlapMoves : List (Move Call Reply Failure Outcome EnvironmentChange Unit) :=
  [.start () (onSession ((revokeSessions "user-1").bind fun _ ↦ done ())),
    .start () (onSession ((revokeSessions "user-1").bind fun _ ↦ done ())),
    .advance 0 .ok, .advance 0 .ok, .advance 1 .ok, .advance 1 .ok,
    .advance 0 .ok, .advance 0 .ok, .advance 0 .ok,
    .start () (login office "bob" "secret"),
    .advance 2 .ok, .advance 2 .ok, .advance 2 (.verified true), .advance 2 .ok, .advance 2 .ok,
    .advance 1 .ok, .advance 1 .ok, .advance 1 .ok]

def overlapped : System Call Reply Failure World Unit :=
  runMoves (machine office).move (newProcess [bob] [("bob", "user-1")] 0) overlapMoves

theorem reaches_overlapped : Reaches (machine office).move
    (revocationRuns office "user-1" fun _ _ _ ↦ True)
    (newProcess [bob] [("bob", "user-1")] 0) overlapped := by
  refine Reaches.refl.run ⟨Or.inr (Or.inr ⟨_, .revokeSessions, rfl⟩),
    Or.inr (Or.inr ⟨_, .revokeSessions, rfl⟩), ?_⟩
  simp [LegalRun, revocationRuns]

/-- A token that carries the version of the first revocation. -/
def bobsToken : SignedToken where
  payload := { id := "user-1", role := .viewer, tv := some 1 }
  signedAt := 1

theorem signed_overlapped : bobsToken ∈ overlapped.world.signed := by decide

theorem returned_overlapped :
    { userId := some "user-1", committedAt := 2 } ∈ overlapped.world.session.returned := by decide

theorem stored_overlapped : overlapped.world.session.stored "user-1" =
    some { id := "user-1", passwordHash := "hash", tokenVersion := 1 } := by decide

/-- Its version is that of the user, although a later revocation has returned. -/
theorem not_revocationsCover_overlapped :
    ¬ ∀ run : RevocationRun fun _ _ _ ↦ True, RevocationsCover run.userId run.system.world := by
  intro hcover
  let run : RevocationRun fun _ _ _ ↦ True :=
    { client := office
      userId := "user-1"
      users := [bob]
      usernames := [("bob", "user-1")]
      now := 0
      system := overlapped
      reached := reaches_overlapped }
  exact (hcover run).version_ne _ returned_overlapped (Or.inr rfl) bobsToken signed_overlapped rfl
    (by decide) _ stored_overlapped rfl

end VmsLite.Users.Login
