import Mathlib.Data.List.Nodup
import VmsLite.Async.Stock
import VmsLite.Users.Session

/-!
# The last administrator

`assertNotLastAdmin` counts the administrators in one step, and the row is changed in another. In
between others may be demoted or deleted, so two requests that spare the last administrator can
remove it together. In every run in which nothing was taken away since the count, or fewer than it
found besides the last one, an administrator remains (`keepsAdmin`).
-/

set_option autoImplicit false

namespace VmsLite.Users

open VmsLite.Async Program

/-! ### The claim -/

/-- The requests that change or remove a role. -/
inductive AdminOperation : Async Unit → Prop
  | updateRole (userId : UserId) (role : Role) (actorId : UserId) :
      AdminOperation ((updateRole userId role actorId).bind fun _ ↦ done ())
  | deleteUser (userId actorId : UserId) :
      AdminOperation ((deleteUser userId actorId).bind fun _ ↦ done ())

/-- Nobody else writes to the table of users. -/
def onlyTimePasses : EnvironmentChange → Prop
  | .clockAdvances _ => True
  | .usersWritten _ => False

def isAdmin (user : User) : Bool := user.role = .admin

/-- How many administrators there are. -/
def World.admins (world : World) : ℕ := (world.users.filter isAdmin).length

/-- Whether a call has taken an administrator away. -/
def takesAdmin : (call : Call) → Reply call → World → Bool
  | .updateUser userId (some role) _ _, .ok _, world =>
    role ≠ .admin && (world.users.find? fun user ↦ user.id = userId).any isAdmin
  | .deleteUser userId, .ok _, world =>
    (world.users.find? fun user ↦ user.id = userId).any isAdmin
  | _, _, _ => false

/-- The administrators besides the last one, as a count finds them. -/
def spareAdmins : (call : Call) → Reply call → Option ℕ
  | .countAdmins, .ok admins => some (admins - 1)
  | _, _ => none

/-- The calls that may take an administrator away. -/
def Call.demotes : Call → Bool
  | .updateUser _ (some role) _ _ => role ≠ .admin
  | .deleteUser _ => true
  | _ => false

/-! ### What the calls do to the table -/

section Table

variable {users : List User} {userId : UserId}

/-- The row of a user, and the rows of the others. -/
theorem split_of_find {user : User} (hnodup : (users.map User.id).Nodup)
    (hfind : (users.find? fun user ↦ user.id = userId) = some user) :
    ∃ before after, users = before ++ user :: after ∧ user.id = userId ∧
      ∀ other ∈ before ++ after, other.id ≠ userId := by
  obtain ⟨hid, before, after, rfl, -⟩ := List.find?_eq_some_iff_append.mp hfind
  obtain rfl : user.id = userId := of_decide_eq_true hid
  refine ⟨before, after, rfl, rfl, fun other hother hsame ↦ ?_⟩
  rw [List.map_append, List.map_cons, List.nodup_middle, List.nodup_cons] at hnodup
  rw [← List.map_append] at hnodup
  exact hnodup.1 (hsame ▸ List.mem_map_of_mem hother)

/-- A change of one row keeps the other administrators. -/
theorem admins_le_map {user : User} (hnodup : (users.map User.id).Nodup)
    (hfind : (users.find? fun user ↦ user.id = userId) = some user) (change : User → User) :
    (users.filter isAdmin).length ≤
      ((users.map fun other ↦ if other.id = userId then change other else other).filter
        isAdmin).length + if isAdmin user && !isAdmin (change user) then 1 else 0 := by
  obtain ⟨before, after, rfl, hid, hothers⟩ := split_of_find hnodup hfind
  have hkept : ∀ rows : List User, (∀ other ∈ rows, other.id ≠ userId) →
      (rows.map fun other ↦ if other.id = userId then change other else other) = rows := by
    intro rows hrows
    refine (List.map_congr_left fun other hother ↦ ?_).trans (List.map_id rows)
    exact if_neg (hrows other hother)
  rw [List.map_append, List.map_cons, if_pos hid,
    hkept before fun other hother ↦ hothers other (List.mem_append_left _ hother),
    hkept after fun other hother ↦ hothers other (List.mem_append_right _ hother)]
  simp only [List.filter_append, List.filter_cons, List.length_append]
  cases isAdmin user <;> cases isAdmin (change user) <;> simp
  omega

/-- A deletion keeps the other administrators. -/
theorem admins_le_filter {user : User} (hnodup : (users.map User.id).Nodup)
    (hfind : (users.find? fun user ↦ user.id = userId) = some user) :
    (users.filter isAdmin).length ≤
      ((users.filter fun other ↦ other.id ≠ userId).filter isAdmin).length +
        if isAdmin user then 1 else 0 := by
  obtain ⟨before, after, rfl, hid, hothers⟩ := split_of_find hnodup hfind
  have hkept : ∀ rows : List User, (∀ other ∈ rows, other.id ≠ userId) →
      (rows.filter fun other ↦ other.id ≠ userId) = rows := by
    intro rows hrows
    exact List.filter_eq_self.mpr fun other hother ↦ decide_eq_true (hrows other hother)
  have hrest : ((before ++ user :: after).filter fun other ↦ other.id ≠ userId) =
      before ++ after := by
    rw [List.filter_append, List.filter_cons_of_neg (by simpa using hid),
      hkept before fun other hother ↦ hothers other (List.mem_append_left _ hother),
      hkept after fun other hother ↦ hothers other (List.mem_append_right _ hother)]
  rw [hrest]
  simp only [List.filter_append, List.filter_cons, List.length_append]
  cases isAdmin user <;> simp
  omega

end Table

section Answers

variable {world : World} (hnodup : (world.users.map User.id).Nodup) (outcome : Outcome)
include hnodup

/-- An update keeps the administrators, but for its own row. -/
theorem admins_answerUpdate (userId : UserId) {change : User → User}
    (hid : ∀ user, (change user).id = user.id) :
    ((world.answerUpdate userId change outcome).2.users.map User.id).Nodup ∧
      (world.answerUpdate userId change outcome =
        ((world.answerUpdate userId change outcome).1, world) ∨
        ∃ user, (world.users.find? fun user ↦ user.id = userId) = some user ∧
          (world.answerUpdate userId change outcome).1 =
            .ok { value := change user, revision := world.revision + 1 } ∧
          world.admins ≤ (world.answerUpdate userId change outcome).2.admins +
            if isAdmin user && !isAdmin (change user) then 1 else 0) := by
  unfold World.answerUpdate
  split
  · exact ⟨hnodup, Or.inl rfl⟩
  · cases hfind : world.users.find? fun user ↦ user.id = userId with
    | none => exact ⟨hnodup, Or.inl rfl⟩
    | some user =>
      refine ⟨?_, Or.inr ⟨user, rfl, rfl, admins_le_map hnodup hfind change⟩⟩
      have hids : (world.users.map fun other ↦
          if other.id = userId then change other else other).map User.id =
            world.users.map User.id := by
        rw [List.map_map]
        refine List.map_congr_left fun other _ ↦ ?_
        rw [Function.comp_apply]
        split_ifs
        · exact hid other
        · rfl
      dsimp only [World.write]
      rw [hids]
      exact hnodup

/-- A deletion keeps the administrators, but for its own row. -/
theorem admins_answerDelete (userId : UserId) :
    ((world.answerDelete userId outcome).2.users.map User.id).Nodup ∧
      (world.answerDelete userId outcome = ((world.answerDelete userId outcome).1, world) ∨
        ∃ user, (world.users.find? fun user ↦ user.id = userId) = some user ∧
          (world.answerDelete userId outcome).1 =
            .ok { value := user, revision := world.revision + 1 } ∧
          world.admins ≤ (world.answerDelete userId outcome).2.admins +
            if isAdmin user then 1 else 0) := by
  unfold World.answerDelete
  split
  · exact ⟨hnodup, Or.inl rfl⟩
  · cases hfind : world.users.find? fun user ↦ user.id = userId with
    | none => exact ⟨hnodup, Or.inl rfl⟩
    | some user =>
      refine ⟨?_, Or.inr ⟨user, rfl, rfl, admins_le_filter hnodup hfind⟩⟩
      exact hnodup.sublist (List.filter_sublist.map _)

/-- Every call keeps the administrators, but for one that it takes away. -/
theorem admins_answer (call : Call) :
    ((answer call outcome world).2.users.map User.id).Nodup ∧ world.admins ≤
      (answer call outcome world).2.admins +
        if takesAdmin call (answer call outcome world).1 world then 1 else 0 := by
  cases call with
  | updateUser userId role passwordHash tokenVersion =>
    let change : User → User := fun user ↦
      { user with
        role := role.getD user.role
        passwordHash := passwordHash.getD user.passwordHash
        tokenVersion }
    have hid : ∀ user, (change user).id = user.id := fun user ↦ rfl
    obtain ⟨hids, hcases⟩ := admins_answerUpdate hnodup outcome userId hid
    refine ⟨hids, ?_⟩
    show world.admins ≤ (world.answerUpdate userId change outcome).2.admins +
      if takesAdmin (.updateUser userId role passwordHash tokenVersion)
        (world.answerUpdate userId change outcome).1 world then 1 else 0
    rcases hcases with hsame | ⟨user, hfind, hreply, hle⟩
    · rw [hsame]
      exact Nat.le_add_right _ _
    · have htakes : takesAdmin (.updateUser userId role passwordHash tokenVersion)
          (.ok { value := change user, revision := world.revision + 1 }) world =
            (isAdmin user && !isAdmin (change user)) := by
        cases role with
        | none =>
          show false = (isAdmin user && !isAdmin user)
          rw [Bool.and_not_self]
        | some role =>
          show (decide (role ≠ .admin) && (world.users.find? fun user ↦ user.id =
            userId).any isAdmin) =
            (isAdmin user && !decide (role = .admin))
          rw [hfind, Bool.and_comm, decide_not]
          rfl
      rw [hreply, htakes]
      exact hle
  | deleteUser userId =>
    obtain ⟨hids, hcases⟩ := admins_answerDelete hnodup outcome userId
    refine ⟨hids, ?_⟩
    show world.admins ≤ (world.answerDelete userId outcome).2.admins +
      if takesAdmin (.deleteUser userId) (world.answerDelete userId outcome).1 world then 1 else 0
    rcases hcases with hsame | ⟨user, hfind, hreply, hle⟩
    · rw [hsame]
      exact Nat.le_add_right _ _
    · have htakes : takesAdmin (.deleteUser userId)
          (.ok { value := user, revision := world.revision + 1 }) world = isAdmin user := by
        show (world.users.find? fun user ↦ user.id = userId).any isAdmin = isAdmin user
        rw [hfind]
        rfl
      rw [hreply, htakes]
      exact hle
  | cacheSetIf userId generation entry =>
    have hsame : (answer (.cacheSetIf userId generation entry) outcome world).2.users =
        world.users := by
      simp only [answer]
      split_ifs <;> rfl
    refine ⟨hsame ▸ hnodup, ?_⟩
    unfold World.admins
    rw [hsame]
    exact Nat.le_add_right _ _
  | invalidateSessionCache userId committedAt =>
    cases userId <;> exact ⟨hnodup, Nat.le_add_right _ _⟩
  | _ => exact ⟨hnodup, Nat.le_add_right _ _⟩

end Answers

/-- The administrators besides the last one: what a demotion or a deletion may take. -/
def administrators : Stock Unit machine where
  left := fun _ world ↦ world.admins - 1
  measured := fun call reply _ ↦ spareAdmins call reply
  takes := fun call reply world _ ↦ takesAdmin call reply world
  mayTake := fun call _ ↦ call.demotes
  sound := fun world ↦ (world.users.map User.id).Nodup ∧ 1 ≤ world.admins
  mayTake_of_takes := by
    intro call reply world key htakes
    cases call with
    | updateUser userId role passwordHash tokenVersion =>
      cases role with
      | none => cases htakes
      | some role =>
        cases reply with
        | error error => cases htakes
        | ok updated => exact (Bool.and_eq_true _ _ ▸ htakes : _ ∧ _).1
    | deleteUser userId => rfl
    | _ => cases htakes
  measured_le := by
    intro call outcome world key count hsound hmeasured
    cases call with
    | countAdmins =>
      cases outcome with
      | fail error => cases hmeasured
      | _ =>
        obtain rfl := Option.some.inj hmeasured
        exact Nat.le_refl _
    | _ => cases hmeasured
  left_le := by
    intro call outcome world key hsound
    have hle := (admins_answer hsound.1 outcome call).2
    show world.admins - 1 ≤ (answer call outcome world).2.admins - 1 +
      if takesAdmin call (answer call outcome world).1 world then 1 else 0
    omega
  sound_answer := by
    intro call outcome world hsound htakes
    obtain ⟨hnodup, hle⟩ := admins_answer hsound.1 outcome call
    refine ⟨hnodup, ?_⟩
    have htaken : takesAdmin call (answer call outcome world).1 world = true →
      0 < world.admins - 1 := htakes ()
    show 1 ≤ (answer call outcome world).2.admins
    have hsome : 1 ≤ world.admins := hsound.2
    split_ifs at hle with htake
    · have hleft := htaken htake
      omega
    · omega

/-! ### The requests -/

section Requests

variable {known : Unit → Option ℕ}

/-- Calls that do not count the administrators. -/
abbrev Uncounted (call : Call) : Prop := administrators.Unmeasured call

theorem query_uncounted {request : Call} (hcall : Uncounted request) :
    (query request).Uses Uncounted :=
  Uses.bind (Uses.request hcall) fun _ ↦ Uses.bind (Uses.request fun _ _ ↦ rfl) fun _ ↦ trivial

theorem requireUser_uncounted (userId : UserId) : (requireUser userId).Uses Uncounted := by
  refine Uses.bind (query_uncounted fun _ _ ↦ rfl) fun reply ↦ Uses.bind Uses.orThrow fun found ↦ ?_
  cases found.value <;> trivial

theorem commit_uncounted (userId : UserId) {write : Async (Except Failure (Stamped User))}
    (hwrite : write.Uses Uncounted) : (commit userId write).Uses Uncounted :=
  Uses.bind hwrite fun _ ↦ Uses.bind Uses.orThrow fun _ ↦
    Uses.bind (Uses.request fun _ _ ↦ rfl) fun _ ↦ trivial

/-- The guard lets a request go on only if it counted an administrator to spare. -/
theorem assertNotLastAdmin_follows (user : User) (hfree : Stock.Free known) :
    (assertNotLastAdmin user).Follows administrators.checking (fun _ ↦ Stock.Free) (fun _ _ ↦ True)
      known := by
  unfold assertNotLastAdmin
  split_ifs
  · exact hfree
  · refine ⟨administrators.permits_of_free hfree _, fun reply _ ↦ ?_⟩
    cases reply with
    | error error => exact ⟨administrators.permits_of_free hfree _, fun _ _ ↦ trivial⟩
    | ok admins =>
      refine ⟨fun key _ ↦ rfl, fun _ _ ↦ ?_⟩
      show Program.Follows administrators.checking _ _ (if admins ≤ 1 then _ else _) _
      split_ifs with hlast
      · trivial
      · intro key hzero
        have hnone : admins - 1 = 0 := Option.some.inj hzero
        omega

theorem AdminOperation.careful {program : Async Unit} (hoperation : AdminOperation program) :
    administrators.Careful program := by
  have hend : ∀ {known : Unit → Option ℕ} {program : Async User}, Stock.Free known →
      program.Uses Uncounted →
      program.Follows administrators.checking (fun _ _ ↦ True) (fun _ _ ↦ True) known :=
    fun hfree huses ↦ (administrators.follows_of_unmeasured huses hfree).mono (fun _ _ _ ↦ trivial)
      fun _ _ ↦ id
  -- Both look their user up first, and drop their result in the end
  have hrequest : ∀ (userId : UserId) {rest : User → Async User},
      (∀ user {known : Unit → Option ℕ}, Stock.Free known →
        (rest user).Follows administrators.checking (fun _ _ ↦ True) (fun _ _ ↦ True) known) →
      administrators.Careful (((requireUser userId).bind rest).bind fun _ ↦ done ()) :=
    fun userId rest hrest ↦ Follows.bind
      (Follows.bind (administrators.follows_of_unmeasured (requireUser_uncounted userId) nofun)
        fun user known hfree ↦ hrest user hfree) fun _ _ _ ↦ trivial
  cases hoperation with
  | updateRole userId role actorId =>
    refine hrequest userId fun user known hfree ↦ ?_
    split_ifs
    · trivial
    · trivial
    · exact Follows.bind (assertNotLastAdmin_follows user hfree) fun _ known hfree ↦
        hend hfree (commit_uncounted userId (query_uncounted fun _ _ ↦ rfl))
    · exact hend hfree (commit_uncounted userId (query_uncounted fun _ _ ↦ rfl))
  | deleteUser userId actorId =>
    refine hrequest userId fun user known hfree ↦ ?_
    split_ifs
    · trivial
    · refine Follows.bind (assertNotLastAdmin_follows user hfree) fun _ known hfree ↦ ?_
      exact Follows.bind (hend hfree (commit_uncounted userId (query_uncounted fun _ _ ↦ rfl)))
        fun _ _ _ ↦ trivial

end Requests

/-! ### Every run -/

abbrev AdminTallies : Type := Stock.Tallies Unit

/-- A run of role changes and deletions, as far as it has come. -/
structure AdministrationRun
    (condition : ℕ × Call → Outcome → World × AdminTallies → Prop) where
  world : World
  system : System (ℕ × Call) (fun call ↦ Reply call.2) Failure (World × AdminTallies) Unit
  /-- Identifiers are unique. -/
  unique : (world.users.map User.id).Nodup
  some_admin : ∃ user ∈ world.users, user.role = .admin
  reached : Reaches (machine.watched administrators.observe).move
    (NumberedMove machine administrators.observe AdminOperation onlyTimePasses condition)
    { threads := [], world := (world, fun _ _ ↦ none) } system

theorem admins_pos_iff {world : World} :
    1 ≤ world.admins ↔ ∃ user ∈ world.users, user.role = .admin := by
  unfold World.admins
  rw [Nat.one_le_iff_ne_zero, Nat.ne_zero_iff_zero_lt, List.length_pos_iff_exists_mem]
  constructor
  · rintro ⟨user, huser⟩
    obtain ⟨hmem, hadmin⟩ := List.mem_filter.mp huser
    exact ⟨user, hmem, of_decide_eq_true hadmin⟩
  · rintro ⟨user, hmem, hadmin⟩
    exact ⟨user, List.mem_filter.mpr ⟨hmem, decide_eq_true hadmin⟩⟩

/-- An administrator remains in every run in which whoever takes one away has counted them, and
since then none was taken away or fewer than it found besides the last one. -/
theorem keepsAdmin (run : AdministrationRun administrators.TakesInTime) :
    ∃ user ∈ run.system.world.1.users, user.role = .admin := by
  have hsound : administrators.sound run.system.world.1 :=
    administrators.sound_of_reaches (fun _ ↦ AdminOperation.careful) (by
      rintro (ms | users) world htime hsound
      · exact ⟨hsound, fun _ ↦ Nat.le_refl _⟩
      · cases htime) ⟨run.unique, admins_pos_iff.mpr run.some_admin⟩ run.reached
  exact admins_pos_iff.mp hsound.2

/-! Two administrators who delete each other -/

def twoAdmins : World where
  users := [{ id := "ada", passwordHash := "hash-ada", role := .admin },
    { id := "bob", passwordHash := "hash-bob", role := .admin }]

/-- Both requests count two administrators before either deletes. -/
def mutualDeletion : List (Move (ℕ × Call) (fun call ↦ Reply call.2) Failure Outcome
    EnvironmentChange Unit) :=
  .start () (((deleteUser "ada" "bob").bind fun _ ↦ done ()).labelled 0) ::
    .start () (((deleteUser "bob" "ada").bind fun _ ↦ done ()).labelled 1) ::
      [0, 0, 0, 0, 1, 1, 1, 1, 0, 1].map (.advance · .ok)

def emptySystem : System (ℕ × Call) (fun call ↦ Reply call.2) Failure (World × AdminTallies) Unit :=
  runMoves (machine.watched administrators.observe).move
    { threads := [], world := (twoAdmins, fun _ _ ↦ none) } mutualDeletion

theorem reaches_emptySystem : Reaches (machine.watched administrators.observe).move
    (NumberedMove machine administrators.observe AdminOperation onlyTimePasses fun _ _ _ ↦ True)
    { threads := [], world := (twoAdmins, fun _ _ ↦ none) } emptySystem := by
  refine Reaches.refl.run
    ⟨.start _ (.deleteUser "ada" "bob") ?_, .start _ (.deleteUser "bob" "ada") ?_,
      LegalRun.of_forall (fun move hmove system ↦ ?_) _⟩
  · exact Machine.SettleCalls.of_synchronous _ (fun _ _ _ ↦ trivial) _ _
  · exact Machine.SettleCalls.of_synchronous _ (fun _ _ _ ↦ trivial) _ _
  · obtain ⟨thread, -, rfl⟩ := List.mem_map.mp hmove
    exact .advance _ _ fun program _ ↦
      Machine.ResumeCalls.of_awaited _ (fun _ _ _ ↦ trivial) fun _ _ _ ↦ trivial

theorem users_emptySystem : emptySystem.world.1.users = [] := rfl

/-- Nobody is left. -/
theorem not_keepsAdmin_mutualDeletion : ¬ ∀ run : AdministrationRun fun _ _ _ ↦ True,
    ∃ user ∈ run.system.world.1.users, user.role = .admin := by
  intro hkeeps
  let run : AdministrationRun fun _ _ _ ↦ True :=
    { world := twoAdmins
      system := emptySystem
      unique := by decide
      some_admin := ⟨_, List.mem_cons_self, rfl⟩
      reached := reaches_emptySystem }
  obtain ⟨user, huser, -⟩ := hkeeps run
  rw [show run.system = emptySystem from rfl, users_emptySystem] at huser
  exact absurd huser List.not_mem_nil

end VmsLite.Users
