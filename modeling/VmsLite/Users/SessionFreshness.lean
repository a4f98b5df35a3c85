import Mathlib.Data.Nat.Basic
import Mathlib.Order.Basic
import VmsLite.Async.Uses
import VmsLite.Users.Session

/-!
# Freshness of session checks

A revocation writes to the database and then invalidates the cache. A check that starts after that
never rests on data read before the write (`sessionsFresh`), although an older check may still be
waiting for its answer. Three facts carry the proof, and `Evolves` keeps them between any two steps:
a revocation that has returned is among the writes so far, every entry in the cache has seen the
returned revocations of its user, and while the generation of a user stays the same, no revocation
of the user returns.
-/

set_option autoImplicit false

namespace VmsLite.Users

open VmsLite.Async Program

/-! ### The claim -/

/-- A session check that reports what it decided. -/
def checkSession (payload : UserTokenPayload) (returnedBefore : List Revocation) : Async Unit := do
  let decision ← isSessionValid payload
  call (.report { payload, returnedBefore, decision })

/-- The operations that revoke tokens. -/
inductive RevokesTokens : Async Unit → Prop
  | revokeSessions (userId : UserId) :
      RevokesTokens ((revokeSessions userId).bind fun _ ↦ done ())
  | updateRole (userId : UserId) (role : Role) (actorId : UserId) :
      RevokesTokens ((updateRole userId role actorId).bind fun _ ↦ done ())
  | deleteUser (userId actorId : UserId) :
      RevokesTokens ((deleteUser userId actorId).bind fun _ ↦ done ())
  | resetPassword (userId : UserId) (newPassword : String) :
      RevokesTokens ((resetPassword userId newPassword).bind fun _ ↦ done ())
  | changeOwnPassword (userId : UserId) (currentPassword newPassword : String) :
      RevokesTokens ((changeOwnPassword userId currentPassword newPassword).bind fun _ ↦ done ())

/-- The moves of a process: checks start, with the revocations that have returned, and revocations
start; any call has any outcome. -/
def sessionRuns (system : System Call Reply Failure World Unit) :
    Move Call Reply Failure Outcome EnvironmentChange Unit → Prop
  | .start _ program =>
    (∃ payload, program = checkSession payload system.world.returned) ∨ RevokesTokens program
  | .advance .. => True
  | .crash => False
  | .environment _ => True

/-- An accepted token was accepted on data that had seen every revocation of its user's tokens that
had returned before the check started. -/
def Verdict.Fresh (verdict : Verdict) : Prop :=
  verdict.decision.accepted = true → ∃ entry, verdict.decision.entry = some entry ∧
    accepts verdict.payload entry = true ∧
      ∀ revocation ∈ verdict.returnedBefore, revocation.covers verdict.payload.id →
        revocation.committedAt ≤ entry.readAt

/-- A process that has just started, over any users at any time. -/
def startedProcess (users : List User) (revision : ℕ) (now : ℤ) :
    System Call Reply Failure World Unit where
  threads := []
  world := { users, revision, now }

/-- Every check that a process finishes is fresh, in every interleaving. -/
def SessionsFresh (users : List User) (revision : ℕ) (now : ℤ) : Prop :=
  ∀ system, Reaches machine.move sessionRuns (startedProcess users revision now) system →
    ∀ verdict ∈ system.world.verdicts, verdict.Fresh

/-! ### What every step keeps -/

/-- The data in the cache has seen every revocation that has returned. -/
structure Sound (world : World) : Prop where
  committed : ∀ revocation ∈ world.returned, revocation.committedAt ≤ world.revision
  cached : ∀ stored ∈ world.cache, ∀ revocation ∈ world.returned,
    revocation.covers stored.1 → revocation.committedAt ≤ stored.2.readAt
  fresh : ∀ verdict ∈ world.verdicts, verdict.Fresh

/-- What any number of steps do: writes, generations and returned revocations only grow, and a
revocation of a user returns only with a new generation. -/
structure Evolves (before after : World) : Prop where
  revision_le : before.revision ≤ after.revision
  generationOf_le : ∀ userId, before.generationOf userId ≤ after.generationOf userId
  returned_of_same : ∀ userId, after.generationOf userId = before.generationOf userId →
    ∀ revocation ∈ after.returned, revocation.covers userId → revocation ∈ before.returned
  returned_subset : ∀ revocation ∈ before.returned, revocation ∈ after.returned
  sound : Sound before → Sound after

theorem Evolves.refl (world : World) : Evolves world world where
  revision_le := le_rfl
  generationOf_le := fun _ ↦ le_rfl
  returned_of_same := fun _ _ _ hrevocation _ ↦ hrevocation
  returned_subset := fun _ hrevocation ↦ hrevocation
  sound := id

theorem Evolves.trans {first second third : World} (hfirst : Evolves first second)
    (hsecond : Evolves second third) : Evolves first third where
  revision_le := hfirst.revision_le.trans hsecond.revision_le
  generationOf_le := fun userId ↦
    (hfirst.generationOf_le userId).trans (hsecond.generationOf_le userId)
  returned_of_same := by
    intro userId hsame revocation hrevocation hcovers
    -- The generation in the middle lies between two equal ones
    have hmiddle : second.generationOf userId = first.generationOf userId :=
      le_antisymm ((hsecond.generationOf_le userId).trans hsame.le) (hfirst.generationOf_le userId)
    exact hfirst.returned_of_same userId hmiddle revocation
      (hsecond.returned_of_same userId (hsame.trans hmiddle.symm) revocation hrevocation hcovers)
      hcovers
  returned_subset := fun revocation hrevocation ↦
    hsecond.returned_subset revocation (hfirst.returned_subset revocation hrevocation)
  sound := hsecond.sound ∘ hfirst.sound

/-- A step that leaves alone what sessions depend on. -/
theorem Evolves.of_same {before after : World} (hrevision : before.revision ≤ after.revision)
    (hcache : after.cache = before.cache) (hgenerations : after.generations = before.generations)
    (hglobal : after.globalGeneration = before.globalGeneration)
    (hreturned : after.returned = before.returned) (hverdicts : after.verdicts = before.verdicts) :
    Evolves before after where
  revision_le := hrevision
  generationOf_le := fun userId ↦ by
    rw [World.generationOf, World.generationOf, hgenerations, hglobal]
  returned_of_same := fun _ _ revocation hrevocation _ ↦ hreturned ▸ hrevocation
  returned_subset := fun revocation hrevocation ↦ hreturned.symm ▸ hrevocation
  sound := fun hsound ↦
    { committed := fun revocation hrevocation ↦
        (hsound.committed revocation (hreturned ▸ hrevocation)).trans hrevision
      cached := fun stored hstored revocation hrevocation ↦
        hsound.cached stored (hcache ▸ hstored) revocation (hreturned ▸ hrevocation)
      fresh := fun verdict hverdict ↦ hsound.fresh verdict (hverdicts ▸ hverdict) }

theorem Evolves.write (world : World) (users : List User) : Evolves world (world.write users) :=
  Evolves.of_same (Nat.le_succ _) rfl rfl rfl rfl rfl

theorem Evolves.report (world : World) {verdict : Verdict} (hfresh : verdict.Fresh) :
    Evolves world { world with verdicts := world.verdicts ++ [verdict] } where
  revision_le := le_rfl
  generationOf_le := fun _ ↦ le_rfl
  returned_of_same := fun _ _ _ hrevocation _ ↦ hrevocation
  returned_subset := fun _ hrevocation ↦ hrevocation
  sound := fun hsound ↦
    { hsound with
      fresh := fun other hother ↦ (List.mem_append.mp hother).elim (hsound.fresh other)
        fun hnew ↦ List.mem_singleton.mp hnew ▸ hfresh }

/-- An entry of the cache after storing one was there before, or is the stored one. -/
theorem World.mem_remember {world : World} {userId : UserId} {entry : CacheEntry}
    {stored : UserId × CacheEntry} (hstored : stored ∈ (world.remember userId entry).cache) :
    stored ∈ world.cache ∨ stored = (userId, entry) := by
  have hset : stored ∈ (if (world.cache.lookup userId).isSome then
      world.cache.map fun other ↦ if other.1 = userId then (userId, entry) else other
    else world.cache ++ [(userId, entry)]) := by
    unfold World.remember at hstored
    dsimp only at hstored
    split_ifs at hstored ⊢ <;> first | exact List.mem_of_mem_tail hstored | exact hstored
  split_ifs at hset
  · obtain ⟨other, hother, rfl⟩ := List.mem_map.mp hset
    split_ifs
    · exact Or.inr rfl
    · exact Or.inl hother
  · rcases List.mem_append.mp hset with hold | hnew
    · exact Or.inl hold
    · exact Or.inr (List.mem_singleton.mp hnew)

theorem Evolves.remember {world : World} {userId : UserId} {entry : CacheEntry}
    (hentry : ∀ revocation ∈ world.returned, revocation.covers userId →
      revocation.committedAt ≤ entry.readAt) : Evolves world (world.remember userId entry) where
  revision_le := le_rfl
  generationOf_le := fun _ ↦ le_rfl
  returned_of_same := fun _ _ _ hrevocation _ ↦ hrevocation
  returned_subset := fun _ hrevocation ↦ hrevocation
  sound := fun hsound ↦
    { hsound with
      cached := fun stored hstored revocation hrevocation hcovers ↦ by
        rcases World.mem_remember hstored with hold | rfl
        · exact hsound.cached stored hold revocation hrevocation hcovers
        · exact hentry revocation hrevocation hcovers }

/-- The generations after a user's entry was invalidated. -/
theorem World.generationOf_invalidate_some (world : World) (userId other : UserId)
    (committedAt : ℕ) :
    (world.invalidate (some userId) committedAt).generationOf other =
      (world.globalGeneration,
        (world.generationOf other).2 + if other = userId then 1 else 0) := by
  simp only [World.generationOf, World.invalidate, List.lookup_cons]
  by_cases hsame : other = userId
  · simp [hsame]
  · have hne : (other == userId) = false := beq_false_of_ne hsame
    simp [hsame, hne]

theorem World.generationOf_invalidate_none (world : World) (other : UserId) (committedAt : ℕ) :
    (world.invalidate none committedAt).generationOf other =
      (world.globalGeneration + 1, (world.generationOf other).2) := rfl

theorem World.generationOf_le_invalidate (world : World) (userId : Option UserId)
    (committedAt : ℕ) (other : UserId) :
    world.generationOf other ≤ (world.invalidate userId committedAt).generationOf other := by
  cases userId with
  | none =>
    rw [World.generationOf_invalidate_none]
    exact ⟨Nat.le_succ _, le_rfl⟩
  | some userId =>
    rw [World.generationOf_invalidate_some]
    exact ⟨le_rfl, Nat.le_add_right _ _⟩

/-- Whoever a revocation covers has a new generation after it. -/
theorem World.generationOf_invalidate_ne {world : World} {userId : Option UserId}
    {committedAt : ℕ} {other : UserId}
    (hcovers : Revocation.covers { userId, committedAt } other) :
    (world.invalidate userId committedAt).generationOf other ≠ world.generationOf other := by
  rcases hcovers with hall | hone
  · dsimp only at hall
    subst hall
    rw [World.generationOf_invalidate_none]
    intro hsame
    exact absurd (congrArg Prod.fst hsame) (Nat.succ_ne_self _)
  · dsimp only at hone
    subst hone
    rw [World.generationOf_invalidate_some]
    intro hsame
    simpa using congrArg Prod.snd hsame

/-- Nothing is cached any more of whoever a revocation covers. -/
theorem World.not_covers_of_mem_invalidate {world : World} {userId : Option UserId}
    {committedAt : ℕ} {stored : UserId × CacheEntry}
    (hstored : stored ∈ (world.invalidate userId committedAt).cache) :
    stored ∈ world.cache ∧ ¬ Revocation.covers { userId, committedAt } stored.1 := by
  cases userId with
  | none => exact absurd hstored List.not_mem_nil
  | some userId =>
    obtain ⟨hold, hne⟩ := List.mem_filter.mp hstored
    refine ⟨hold, ?_⟩
    rintro (hall | hone)
    · cases hall
    · exact (by simpa using hne : stored.1 ≠ userId) (Option.some.inj hone).symm

theorem World.mem_returned_invalidate {world : World} {userId : Option UserId}
    {committedAt : ℕ} {revocation : Revocation} :
    revocation ∈ (world.invalidate userId committedAt).returned ↔
      revocation ∈ world.returned ∨ revocation = { userId, committedAt } := by
  cases userId <;> simp [World.invalidate]

theorem Evolves.invalidate {world : World} {userId : Option UserId} {committedAt : ℕ}
    (hcommitted : committedAt ≤ world.revision) :
    Evolves world (world.invalidate userId committedAt) where
  revision_le := by cases userId <;> exact le_rfl
  generationOf_le := World.generationOf_le_invalidate world userId committedAt
  returned_of_same := by
    intro other hsame revocation hrevocation hcovers
    rcases World.mem_returned_invalidate.mp hrevocation with hold | rfl
    · exact hold
    · exact absurd hsame (World.generationOf_invalidate_ne hcovers)
  returned_subset := fun revocation hrevocation ↦
    World.mem_returned_invalidate.mpr (Or.inl hrevocation)
  sound := fun hsound ↦
    { committed := by
        intro revocation hrevocation
        have hrevision : (world.invalidate userId committedAt).revision = world.revision := by
          cases userId <;> rfl
        rw [hrevision]
        rcases World.mem_returned_invalidate.mp hrevocation with hold | rfl
        · exact hsound.committed revocation hold
        · exact hcommitted
      cached := by
        intro stored hstored revocation hrevocation hcovers
        obtain ⟨hcached, hnot⟩ := World.not_covers_of_mem_invalidate hstored
        rcases World.mem_returned_invalidate.mp hrevocation with hold | rfl
        · exact hsound.cached stored hcached revocation hold hcovers
        · exact absurd hcovers hnot
      fresh := by
        cases userId <;> exact hsound.fresh }

/-! ### The programs -/

/-- The discipline of sessions: everything evolves. -/
def sessionDiscipline : Discipline machine where
  allowed := fun _ _ _ ↦ True
  rely := Evolves
  guarantee := Evolves
  rely_refl := Evolves.refl
  rely_trans := Evolves.trans
  rely_of_guarantee := id
  allowed_calm := fun _ ↦ trivial
  guarantee_synchronous := fun hsynchronous ↦ absurd hsynchronous Bool.false_ne_true

/-- A program that is safe among the steps of others, with what it returns. -/
def SafeSession {α : Type} (program : Async α) (post : α → World → Prop) (world : World) : Prop :=
  program.Safe sessionDiscipline post (fun _ _ ↦ True) world

/-- Calls that only ask, or write to the table of users. -/
def Call.isQuery : Call → Bool
  | .cacheSetIf .. | .invalidateSessionCache .. | .report _ => false
  | _ => true

theorem Evolves.answerUpdate (world : World) (userId : UserId) (change : User → User)
    (outcome : Outcome) : Evolves world (world.answerUpdate userId change outcome).2 ∧
      ∀ updated, (world.answerUpdate userId change outcome).1 = .ok updated →
        updated.revision ≤ (world.answerUpdate userId change outcome).2.revision := by
  unfold World.answerUpdate
  split
  · exact ⟨Evolves.refl world, nofun⟩
  · split
    · exact ⟨Evolves.refl world, nofun⟩
    · exact ⟨Evolves.write world _, fun updated hupdated ↦ by cases hupdated; exact le_rfl⟩

theorem Evolves.answerDelete (world : World) (userId : UserId) (outcome : Outcome) :
    Evolves world (world.answerDelete userId outcome).2 ∧
      ∀ deleted, (world.answerDelete userId outcome).1 = .ok deleted →
        deleted.revision ≤ (world.answerDelete userId outcome).2.revision := by
  unfold World.answerDelete
  split
  · exact ⟨Evolves.refl world, nofun⟩
  · split
    · exact ⟨Evolves.refl world, nofun⟩
    · exact ⟨Evolves.write world _, fun deleted hdeleted ↦ by cases hdeleted; exact le_rfl⟩

theorem Evolves.answer {call : Call} (hquery : call.isQuery = true) (outcome : Outcome)
    (world : World) : Evolves world (answer call outcome world).2 := by
  cases call with
  | updateUser userId role passwordHash tokenVersion =>
    exact (Evolves.answerUpdate world userId _ outcome).1
  | deleteUser userId => exact (Evolves.answerDelete world userId outcome).1
  | cacheSetIf userId generation entry => cases hquery
  | invalidateSessionCache userId committedAt => cases hquery
  | report verdict => cases hquery
  | _ => exact Evolves.refl world

section Programs

variable {world : World}

/-- A program that makes only queries. -/
theorem SafeSession.of_queries {α : Type} {program : Async α}
    (huses : program.Uses (Call.isQuery · = true)) (world : World) :
    SafeSession program (fun _ _ ↦ True) world :=
  Safe.of_uses huses (fun _ outcome world hquery _ ↦ Evolves.answer hquery outcome world) world

theorem SafeSession.bind {α β : Type} {program : Async α} {rest : α → Async β}
    {middle : α → World → Prop} {post : β → World → Prop}
    (hfirst : SafeSession program middle world)
    (hrest : ∀ value world, middle value world → SafeSession (rest value) post world) :
    SafeSession (program.bind rest) post world :=
  Safe.bind hfirst hrest

/-- One call, and a stable fact about its reply. -/
theorem SafeSession.request {request : Call} {post : Reply request → World → Prop}
    (hstable : ∀ reply first second, Evolves first second → post reply first → post reply second)
    (hstep : ∀ later, Evolves world later → ∀ outcome,
      Evolves later (answer request outcome later).2 ∧
        post (answer request outcome later).1 (answer request outcome later).2) :
    SafeSession (call request) post world :=
  Safe.request hstable fun later hlater outcome _ ↦ hstep later hlater outcome

/-- A query and the wait for its answer keep a stable fact about the answer. -/
theorem SafeSession.query {request : Call} {post : Reply request → World → Prop}
    (hquery : request.isQuery = true)
    (hstable : ∀ reply first second, Evolves first second → post reply first → post reply second)
    (hpost : ∀ later, Evolves world later → ∀ outcome,
      post (answer request outcome later).1 (answer request outcome later).2) :
    SafeSession (query request) post world := by
  refine SafeSession.bind (SafeSession.request hstable fun later hlater outcome ↦
    ⟨Evolves.answer hquery outcome later, hpost later hlater outcome⟩)
      fun reply asked hasked ↦ ?_
  have hresolved : SafeSession (call .resolved) (fun _ later ↦ post reply later) asked :=
    SafeSession.request (fun _ first second ↦ hstable reply first second)
      fun later hlater _ ↦ ⟨Evolves.refl later, hstable reply _ _ hlater hasked⟩
  exact SafeSession.bind hresolved fun _ resolved hpost later hlater ↦
    hstable reply _ _ hlater hpost

theorem SafeSession.orThrow {α : Type} {reply : Except Failure α} {post : α → World → Prop}
    (hpost : ∀ value, reply = .ok value → ∀ later, Evolves world later → post value later) :
    SafeSession (Program.orThrow reply) post world :=
  Safe.orThrow hpost fun _ _ _ _ ↦ trivial

/-- What a check knows once the database has answered: data that had seen `readAt` writes has seen
the revocations that had returned before, and, while the generation is the one that was read, all
revocations of the user that have returned. -/
structure Answered (userId : UserId) (returnedBefore : List Revocation) (generation : ℕ × ℕ)
    (readAt : ℕ) (world : World) : Prop where
  before : ∀ revocation ∈ returnedBefore, revocation.covers userId →
    revocation.committedAt ≤ readAt
  generation_le : generation ≤ world.generationOf userId
  returned : world.generationOf userId = generation → ∀ revocation ∈ world.returned,
    revocation.covers userId → revocation.committedAt ≤ readAt

theorem Answered.evolves {userId : UserId} {returnedBefore : List Revocation}
    {generation : ℕ × ℕ} {readAt : ℕ} {first second : World} (hevolves : Evolves first second)
    (hanswered : Answered userId returnedBefore generation readAt first) :
    Answered userId returnedBefore generation readAt second where
  before := hanswered.before
  generation_le := hanswered.generation_le.trans (hevolves.generationOf_le userId)
  returned := by
    intro hsame revocation hrevocation hcovers
    have hfirst : first.generationOf userId = generation :=
      le_antisymm ((hevolves.generationOf_le userId).trans hsame.le) hanswered.generation_le
    exact hanswered.returned hfirst revocation
      (hevolves.returned_of_same userId (hsame.trans hfirst.symm) revocation hrevocation hcovers)
      hcovers

/-- A fresh entry of the cache has seen the revocations that had returned. -/
theorem Sound.readAt_of_lookup {userId : UserId} {entry : CacheEntry} (hsound : Sound world)
    (hlookup : world.cache.lookup userId = some entry) {revocation : Revocation}
    (hrevocation : revocation ∈ world.returned) (hcovers : revocation.covers userId) :
    revocation.committedAt ≤ entry.readAt := by
  obtain ⟨first, second, hcache, -⟩ := List.lookup_eq_some_iff.mp hlookup
  exact hsound.cached (userId, entry) (hcache ▸ by simp) revocation hrevocation hcovers

/-- The entry a check looks at has seen every revocation that had returned when the check began. -/
theorem sessionEntry_safe (userId : UserId) {returnedBefore : List Revocation}
    (hsound : Sound world) (hbefore : ∀ revocation ∈ returnedBefore, revocation ∈ world.returned) :
    SafeSession (sessionEntry userId)
      (fun entry _ ↦ ∀ revocation ∈ returnedBefore, revocation.covers userId →
        revocation.committedAt ≤ entry.readAt) world := by
  have hget : SafeSession (call (.cacheGet userId))
      (fun cached later ↦ Evolves world later ∧ ∀ entry, cached = some entry →
        ∀ revocation ∈ returnedBefore, revocation.covers userId →
          revocation.committedAt ≤ entry.readAt) world := by
    refine SafeSession.request (fun _ _ _ hevolves hpost ↦
      ⟨hpost.1.trans hevolves, hpost.2⟩) fun later hlater _ ↦ ⟨Evolves.refl later, hlater, ?_⟩
    intro entry hentry revocation hrevocation hcovers
    exact (hlater.sound hsound).readAt_of_lookup hentry
      (hlater.returned_subset revocation (hbefore revocation hrevocation)) hcovers
  unfold sessionEntry
  refine SafeSession.bind hget fun cached got hgot ↦ ?_
  have hclock : SafeSession (call .dateNow) (fun _ later ↦ Evolves world later) got :=
    SafeSession.request (fun _ _ _ hevolves hpost ↦ hpost.trans hevolves)
      fun later hlater _ ↦ ⟨Evolves.refl later, hgot.1.trans hlater⟩
  refine SafeSession.bind hclock fun now clocked hclocked ↦ ?_
  dsimp only
  split
  · next entry hentry =>
    exact fun _ _ ↦ hgot.2 entry (Option.eq_some_of_filter_eq_some hentry)
  · have hgeneration : SafeSession (call (.generationOf userId))
        (fun generation later ↦ Evolves world later ∧ generation ≤ later.generationOf userId)
        clocked :=
      SafeSession.request (fun _ _ _ hevolves hpost ↦
        ⟨hpost.1.trans hevolves, hpost.2.trans (hevolves.generationOf_le userId)⟩)
          fun later hlater _ ↦ ⟨Evolves.refl later, hclocked.trans hlater, le_rfl⟩
    refine SafeSession.bind hgeneration fun generation counted hcounted ↦ ?_
    have hfind : SafeSession (query (.findUser userId))
        (fun reply later ↦ ∀ found, reply = .ok found →
          Answered userId returnedBefore generation found.revision later) counted := by
      refine SafeSession.query rfl (fun _ _ _ hevolves hpost found hfound ↦
        (hpost found hfound).evolves hevolves) fun later hlater outcome found hfound ↦ ?_
      have hcommitted := ((hcounted.1.trans hlater).sound hsound).committed
      have hrevision : found.revision = later.revision := by
        cases outcome <;> cases hfound <;> rfl
      exact
        { before := fun revocation hrevocation _ ↦ hrevision ▸ hcommitted revocation
            ((hcounted.1.trans hlater).returned_subset revocation (hbefore revocation hrevocation))
          generation_le := hcounted.2.trans (hlater.generationOf_le userId)
          returned := fun _ revocation hrevocation _ ↦
            hrevision ▸ hcommitted revocation hrevocation }
    refine SafeSession.bind hfind fun reply asked hasked ↦ ?_
    refine SafeSession.bind (SafeSession.orThrow fun found hfound later hlater ↦
      (hasked found hfound).evolves hlater) fun found answered hanswered ↦ ?_
    have hclock : SafeSession (call .dateNow)
        (fun _ later ↦ Answered userId returnedBefore generation found.revision later) answered :=
      SafeSession.request (fun _ _ _ hevolves hpost ↦ hpost.evolves hevolves)
        fun later hlater _ ↦ ⟨Evolves.refl later, hanswered.evolves hlater⟩
    refine SafeSession.bind hclock fun now clocked hclocked ↦ ?_
    refine SafeSession.bind (SafeSession.request (fun _ _ _ _ hpost ↦ hpost)
      fun later hlater outcome ↦ ⟨?_, hclocked.before⟩) fun _ stored hstored later _ ↦ hstored
    -- The entry is stored only under the generation that was read
    simp only [answer]
    split_ifs with hsame
    · exact Evolves.remember ((hclocked.evolves hlater).returned hsame)
    · exact Evolves.refl later

/-- A check reports a fresh verdict. -/
theorem checkSession_safe (payload : UserTokenPayload) (hsound : Sound world) :
    SafeSession (checkSession payload world.returned) (fun _ _ ↦ True) world := by
  have hreport : ∀ decision reached,
      Verdict.Fresh { payload, returnedBefore := world.returned, decision } →
        SafeSession (call (.report { payload, returnedBefore := world.returned, decision }))
          (fun _ _ ↦ True) reached :=
    fun decision reached hfresh ↦ SafeSession.request (fun _ _ _ _ _ ↦ trivial)
      fun later _ _ ↦ ⟨Evolves.report later hfresh, trivial⟩
  unfold checkSession isSessionValid
  split_ifs
  · exact hreport _ _ nofun
  · rw [bind_eq, bind_eq, bind_assoc]
    refine SafeSession.bind (sessionEntry_safe payload.id hsound fun _ ↦ id)
      fun entry decided hdecided ↦ hreport _ _ fun haccepted ↦ ?_
    exact ⟨entry, rfl, haccepted, hdecided⟩

/-- A write whose answer carries a number of writes that have happened. -/
def SafeWrite (write : Async (Except Failure (Stamped User))) : Prop :=
  ∀ world, SafeSession write
    (fun reply later ↦ ∀ updated, reply = .ok updated → updated.revision ≤ later.revision) world

theorem updateUser_safe (userId : UserId) (role : Option Role) (passwordHash : Option String)
    (tokenVersion : ℤ) : SafeWrite (query (.updateUser userId role passwordHash tokenVersion)) :=
  fun _ ↦ SafeSession.query rfl (fun _ _ _ hevolves hpost updated hupdated ↦
    (hpost updated hupdated).trans hevolves.revision_le)
      fun later _ outcome ↦ (Evolves.answerUpdate later userId _ outcome).2

theorem deleteUser_write_safe (userId : UserId) : SafeWrite (query (.deleteUser userId)) :=
  fun _ ↦ SafeSession.query rfl (fun _ _ _ hevolves hpost updated hupdated ↦
    (hpost updated hupdated).trans hevolves.revision_le)
      fun later _ outcome ↦ (Evolves.answerDelete later userId outcome).2

/-- A write and its invalidation. -/
theorem commit_safe (userId : UserId) {write : Async (Except Failure (Stamped User))}
    (hwrite : SafeWrite write) (world : World) :
    SafeSession (commit userId write) (fun _ _ ↦ True) world := by
  unfold commit
  refine SafeSession.bind (hwrite world) fun reply written hwritten ↦ ?_
  have hupdated : SafeSession (Program.orThrow reply)
      (fun updated later ↦ updated.revision ≤ later.revision) written :=
    SafeSession.orThrow fun updated hupdated later hlater ↦
      (hwritten updated hupdated).trans hlater.revision_le
  refine SafeSession.bind hupdated fun updated thrown hthrown ↦ ?_
  refine SafeSession.bind (SafeSession.request (fun _ _ _ _ hpost ↦ hpost)
    fun later hlater outcome ↦ ⟨?_, trivial⟩) fun _ _ (_ : True) _ _ ↦ trivial
  have hinvalidate : Evolves later (later.invalidate (some userId) updated.revision) :=
    Evolves.invalidate (hthrown.trans hlater.revision_le)
  exact hinvalidate

theorem requireUser_uses (userId : UserId) : (requireUser userId).Uses (Call.isQuery · = true) := by
  unfold requireUser
  refine Uses.bind (Uses.bind (Uses.request rfl) fun _ ↦ Uses.bind (Uses.request rfl) fun _ ↦ ?_)
    fun reply ↦ Uses.bind Uses.orThrow fun found ↦ ?_
  · trivial
  · cases found.value <;> trivial

theorem assertNotLastAdmin_uses (user : User) :
    (assertNotLastAdmin user).Uses (Call.isQuery · = true) := by
  unfold assertNotLastAdmin
  split_ifs
  · trivial
  · refine Uses.bind (Uses.bind (Uses.request rfl) fun _ ↦
      Uses.bind (Uses.request rfl) fun _ ↦ ?_) fun reply ↦ Uses.bind Uses.orThrow fun admins ↦ ?_
    · trivial
    · split_ifs <;> trivial

/-- The rest of an operation after it has looked its user up. -/
theorem SafeSession.requireUser (userId : UserId) {rest : User → Async User}
    (hrest : ∀ user reached, SafeSession (rest user) (fun _ _ ↦ True) reached) (world : World) :
    SafeSession ((requireUser userId).bind rest) (fun _ _ ↦ True) world :=
  SafeSession.bind (SafeSession.of_queries (requireUser_uses userId) world)
    fun user reached _ ↦ hrest user reached

theorem resetPassword_safe (userId : UserId) (newPassword : String) (world : World) :
    SafeSession (resetPassword userId newPassword) (fun _ _ ↦ True) world := by
  unfold resetPassword
  split_ifs
  · exact fun _ _ ↦ trivial
  · refine SafeSession.requireUser userId (fun user reached ↦ ?_) world
    refine SafeSession.bind (SafeSession.of_queries (Uses.request rfl) reached)
      fun passwordHash hashed _ ↦ ?_
    exact commit_safe userId (updateUser_safe userId _ _ _) hashed

/-- Every revocation is safe. -/
theorem RevokesTokens.safe {program : Async Unit} (hrevokes : RevokesTokens program)
    (world : World) : SafeSession program (fun _ _ ↦ True) world := by
  cases hrevokes with
  | revokeSessions userId =>
    refine SafeSession.bind (SafeSession.requireUser userId (fun user reached ↦ ?_) world)
      fun _ _ _ _ _ ↦ trivial
    exact commit_safe userId (updateUser_safe userId _ _ _) reached
  | updateRole userId role actorId =>
    refine SafeSession.bind (SafeSession.requireUser userId (fun user reached ↦ ?_) world)
      fun _ _ _ _ _ ↦ trivial
    split_ifs
    · exact fun _ _ ↦ trivial
    · exact fun _ _ ↦ trivial
    · refine SafeSession.bind (SafeSession.of_queries (assertNotLastAdmin_uses user) reached)
        fun _ checked _ ↦ ?_
      exact commit_safe userId (updateUser_safe userId _ _ _) checked
    · exact commit_safe userId (updateUser_safe userId _ _ _) reached
  | deleteUser userId actorId =>
    refine SafeSession.bind (SafeSession.requireUser userId (fun user reached ↦ ?_) world)
      fun _ _ _ _ _ ↦ trivial
    split_ifs
    · exact fun _ _ ↦ trivial
    · refine SafeSession.bind (SafeSession.of_queries (assertNotLastAdmin_uses user) reached)
        fun _ checked _ ↦ ?_
      exact SafeSession.bind (commit_safe userId (deleteUser_write_safe userId) checked)
        fun _ _ _ _ _ ↦ trivial
  | resetPassword userId newPassword =>
    exact SafeSession.bind (resetPassword_safe userId newPassword world) fun _ _ _ _ _ ↦ trivial
  | changeOwnPassword userId currentPassword newPassword =>
    refine SafeSession.bind (SafeSession.requireUser userId (fun user reached ↦ ?_) world)
      fun _ _ _ _ _ ↦ trivial
    refine SafeSession.bind (SafeSession.of_queries (Uses.request rfl) reached)
      fun verified checked _ ↦ ?_
    split_ifs
    · exact resetPassword_safe userId newPassword checked
    · exact fun _ _ ↦ trivial

end Programs

/-! ### Runs -/

theorem startedProcess_sound (users : List User) (revision : ℕ) (now : ℤ) :
    Sound (startedProcess users revision now).world where
  committed := fun _ hrevocation ↦ absurd hrevocation List.not_mem_nil
  cached := fun _ hstored ↦ absurd hstored List.not_mem_nil
  fresh := fun _ hverdict ↦ absurd hverdict List.not_mem_nil

theorem sessionRuns_respects (users : List User) (revision : ℕ) (now : ℤ) :
    Respects sessionDiscipline sessionRuns (startedProcess users revision now) where
  initial_safe := fun _ hthread ↦ absurd hthread List.not_mem_nil
  start_safe := by
    intro system tag program _ hevolves hlegal
    have hsound := hevolves.sound (startedProcess_sound users revision now)
    rcases hlegal with ⟨payload, rfl⟩ | hrevokes
    · exact checkSession_safe payload hsound
    · exact hrevokes.safe system.world
  advance_allowed := fun _ _ ↦ trivial
  crash_rely := False.elim
  environment_rely := by
    intro system event _
    cases event with
    | clockAdvances ms => exact Evolves.of_same le_rfl rfl rfl rfl rfl rfl
    | usersWritten users => exact Evolves.write system.world users

/-- A check that starts after a revocation has returned never accepts a token on data that was read
before the revocation was committed. -/
theorem sessionsFresh (users : List User) (revision : ℕ) (now : ℤ) :
    SessionsFresh users revision now := by
  intro system hreached
  have hevolves := (hreached.safe (sessionRuns_respects users revision now)).2
  exact (hevolves.sound (startedProcess_sound users revision now)).fresh

end VmsLite.Users
