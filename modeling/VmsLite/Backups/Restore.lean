import VmsLite.Data.AssociationList
import VmsLite.Users.Login
import VmsLite.Users.SequentialSessions

/-!
# Backups of the users

What `createBackup` takes of the table of users and `restoreBackup` writes back. A restore writes
all columns of a row, the token version among them, and leaves the cache of the sessions alone. Its
writes are one transaction: an error in one of them undoes all.
-/

set_option autoImplicit false

namespace VmsLite.Backups

open VmsLite.Users

/-- A row of `users` as a backup holds it. -/
structure BackupUser extends User where
  username : String
  deriving DecidableEq, Repr

/-- The users of a backup. -/
abbrev Backup := List BackupUser

inductive RestoreMode
  | skipExisting | overwrite
  deriving DecidableEq, Repr

def usernameOf (world : Login.World) (userId : UserId) : String :=
  ((world.usernames.find? fun entry ↦ entry.2 = userId).map Prod.fst).getD ""

def createBackup (world : Login.World) : Backup :=
  world.session.users.map fun user ↦ { toUser := user, username := usernameOf world user.id }

/-- The rows after one was written under its id. -/
def putUser (users : List User) (row : User) : List User :=
  if users.any fun user ↦ user.id = row.id then
    users.map fun user ↦ if user.id = row.id then row else user
  else users ++ [row]

/-- Write a row under its id. It fails on a name that another user has. -/
def upsertUser (world : Login.World) (row : BackupUser) : Option Login.World :=
  if (world.userByName row.username).any fun user ↦ user.id ≠ row.id then none
  else some
    { world with
      session := world.session.write (putUser world.session.users row.toUser)
      usernames := (row.username, row.id) ::
        world.usernames.filter fun entry ↦ entry.2 ≠ row.id }

/-- Whether a user with the id or the name of a row is there. -/
def isExisting (world : Login.World) (row : BackupUser) : Bool :=
  (world.session.stored row.id).isSome || (world.userByName row.username).isSome

def restoreUser (mode : RestoreMode) (world : Login.World) (row : BackupUser) :
    Option Login.World :=
  match mode with
  | .overwrite => upsertUser world row
  | .skipExisting => if isExisting world row then some world else upsertUser world row

/-- The transaction of `restoreBackup`; `succeeds` says that the other tables could be written. -/
def restoreBackup (mode : RestoreMode) (backup : Backup) (succeeds : Bool) (world : Login.World) :
    Login.World :=
  if succeeds then (backup.foldlM (restoreUser mode) world).getD world else world

/-- The rows that a restore writes. -/
def written (mode : RestoreMode) (world : Login.World) (backup : Backup) : Backup :=
  match mode with
  | .overwrite => backup
  | .skipExisting => backup.filter fun row ↦ !isExisting world row

/-! ### What a restore does -/

theorem find_putUser (users : List User) (row : User) (userId : UserId) :
    ((putUser users row).find? fun user ↦ user.id = userId) =
      if row.id = userId then some row else users.find? fun user ↦ user.id = userId := by
  unfold putUser
  split_ifs with hany hsame hsame
  · subst hsame
    induction users with
    | nil => cases hany
    | cons user rest ih =>
      rw [List.map_cons, List.find?_cons]
      by_cases hfound : user.id = row.id
      · simp [hfound]
      · have hrest : (rest.any fun other ↦ other.id = row.id) = true := by
          simpa [hfound] using hany
        simpa [hfound] using ih hrest
  · clear hany
    induction users with
    | nil => rfl
    | cons user rest ih =>
      rw [List.map_cons, List.find?_cons, List.find?_cons, ih]
      by_cases hfound : user.id = row.id
      · have hother : ¬ user.id = userId := fun hid ↦ hsame (hfound.symm.trans hid)
        simp [hfound, hsame]
      · simp [hfound]
  · subst hsame
    have hnone : (users.find? fun user ↦ user.id = row.id) = none := by
      rw [List.find?_eq_none]
      exact fun user huser hid ↦ hany (List.any_eq_true.mpr ⟨user, huser, hid⟩)
    rw [List.find?_append, hnone]
    simp
  · rw [List.find?_append]
    simp [hsame]

section Rows

variable {world after : Login.World} {row : BackupUser}

/-- A write of a row under its id. -/
structure Wrote (row : BackupUser) (before after : Login.World) : Prop where
  now : after.session.now = before.session.now
  cache : after.session.cache = before.session.cache
  signed : after.signed = before.signed
  stored : ∀ userId, after.session.stored userId =
    if row.id = userId then some row.toUser else before.session.stored userId
  usernames : after.usernames =
    (row.username, row.id) :: before.usernames.filter fun entry ↦ entry.2 ≠ row.id

theorem wrote_upsertUser (hupsert : upsertUser world row = some after) : Wrote row world after := by
  unfold upsertUser at hupsert
  split_ifs at hupsert
  obtain rfl := Option.some.inj hupsert
  exact ⟨rfl, rfl, rfl, fun userId ↦ find_putUser _ _ userId, rfl⟩

theorem isExisting_iff : isExisting world row = true ↔
    (world.session.stored row.id).isSome = true ∨ ∃ userId,
      world.usernames.lookup row.username = some userId ∧
        (world.session.stored userId).isSome = true := by
  unfold isExisting
  rw [Bool.or_eq_true]
  refine or_congr_right ?_
  unfold Login.World.userByName
  cases world.usernames.lookup row.username with
  | none => simp
  | some userId => simp [World.stored]

/-- A write takes no user away: whose id or name was there before, it is there after. -/
theorem Wrote.isExisting (hwrote : Wrote row world after) {other : BackupUser}
    (hnew : world.session.stored row.id = none) (hother : Backups.isExisting world other = true) :
    Backups.isExisting after other = true := by
  have hkept : ∀ userId, (world.session.stored userId).isSome = true →
      (after.session.stored userId).isSome = true := by
    intro userId hsome
    rw [hwrote.stored]
    split_ifs
    · rfl
    · exact hsome
  rw [isExisting_iff] at hother ⊢
  rcases hother with hid | ⟨userId, hname, hid⟩
  · exact Or.inl (hkept _ hid)
  · right
    rw [hwrote.usernames]
    by_cases hsame : other.username = row.username
    · refine ⟨row.id, ?_, ?_⟩
      · rw [hsame]
        exact List.lookup_cons_self
      · rw [hwrote.stored, if_pos rfl]
        rfl
    · refine ⟨userId, ?_, hkept _ hid⟩
      have hne : userId ≠ row.id := by
        rintro rfl
        rw [hnew] at hid
        cases hid
      rw [List.lookup_cons, beq_false_of_ne hsame]
      exact @Data.lookup_filter_of_lookup _ _ _ _ _ _ (fun value ↦ decide (value ≠ row.id)) hname
        (decide_eq_true hne)

/-- What the rows that a restore writes have become of the users. -/
structure Restored (rows : Backup) (before after : Login.World) : Prop where
  now : after.session.now = before.session.now
  cache : after.session.cache = before.session.cache
  signed : after.signed = before.signed
  stored : ∀ userId, after.session.stored userId = before.session.stored userId ∨
    ∃ row ∈ rows, row.id = userId ∧ after.session.stored userId = some row.toUser

theorem Restored.refl (rows : Backup) (world : Login.World) : Restored rows world world :=
  ⟨rfl, rfl, rfl, fun _ ↦ Or.inl rfl⟩

theorem Restored.wrote {rows : Backup} {reached : Login.World} (hrow : row ∈ rows)
    (hwrote : Wrote row world reached) (hrest : Restored rows reached after) :
    Restored rows world after where
  now := hrest.now.trans hwrote.now
  cache := hrest.cache.trans hwrote.cache
  signed := hrest.signed.trans hwrote.signed
  stored := by
    intro userId
    rcases hrest.stored userId with hsame | hfound
    · by_cases hid : row.id = userId
      · refine Or.inr ⟨row, hrow, hid, ?_⟩
        rw [hsame, hwrote.stored, if_pos hid]
      · refine Or.inl ?_
        rw [hsame, hwrote.stored, if_neg hid]
    · exact Or.inr hfound

/-- A restore puts rows of the backup in the place of users; unless it overwrites, rows whose id and
name were free before it. -/
theorem restored_restoreBackup (mode : RestoreMode) (backup : Backup) (succeeds : Bool)
    (world : Login.World) :
    Restored (written mode world backup) world (restoreBackup mode backup succeeds world) := by
  -- The induction is on the rows still to come; what was there at first is there all along
  have hrows : ∀ (rows : Backup) (reached : Login.World), (∀ row ∈ rows, row ∈ backup) →
      (mode = .skipExisting → ∀ row, isExisting world row = true → isExisting reached row = true) →
        ∀ after, rows.foldlM (restoreUser mode) reached = some after →
          Restored (written mode world backup) reached after := by
    intro rows
    induction rows with
    | nil =>
      intro reached _ _ after hafter
      obtain rfl := Option.some.inj hafter
      exact Restored.refl _ _
    | cons row rest ih =>
      intro reached hmem hkept after hafter
      obtain ⟨next, hnext, hrest⟩ := Option.bind_eq_some_iff.mp hafter
      have hlater := fun other hother ↦ hmem other (List.mem_cons_of_mem _ hother)
      cases mode with
      | overwrite =>
        exact Restored.wrote (hmem row List.mem_cons_self) (wrote_upsertUser hnext)
          (ih next hlater nofun after hrest)
      | skipExisting =>
        unfold restoreUser at hnext
        dsimp only at hnext
        split_ifs at hnext with hexisting
        · obtain rfl := Option.some.inj hnext
          exact ih reached hlater hkept after hrest
        · have hwrote := wrote_upsertUser hnext
          have hfree : ¬ isExisting world row = true := fun hold ↦ hexisting (hkept rfl row hold)
          have hnew : reached.session.stored row.id = none := by
            by_contra hsome
            exact hexisting (isExisting_iff.mpr (Or.inl (Option.isSome_iff_ne_none.mpr hsome)))
          have hwritten : row ∈ written .skipExisting world backup :=
            List.mem_filter.mpr ⟨hmem row List.mem_cons_self, by simpa using hfree⟩
          exact Restored.wrote hwritten hwrote (ih next hlater
            (fun _ other hother ↦ hwrote.isExisting hnew (hkept rfl other hother)) after hrest)
  unfold restoreBackup
  split_ifs
  · cases hafter : backup.foldlM (restoreUser mode) world with
    | none => exact Restored.refl _ _
    | some after => exact hrows backup world (fun _ ↦ id) (fun _ _ ↦ id) after hafter
  · exact Restored.refl _ _

end Rows

end VmsLite.Backups
