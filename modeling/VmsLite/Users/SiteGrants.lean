import Mathlib.Data.List.Nodup
import Mathlib.Logic.Function.Basic
import VmsLite.Async.Endings
import VmsLite.Data.AssociationList
import VmsLite.Users.CameraScope

/-!
# Replacing site grants

`setSitePermissions` of the user service: lookups, deletions and upserts without a transaction, any
of which may fail without an effect. What it leaves behind when it returns is what was asked for,
and it is atomic just when at most its last write changes something (`replacesAtomically_iff`).
-/

set_option autoImplicit false

namespace VmsLite.Users.SiteGrants

open VmsLite.Async Program

/-- A row of `site_permissions`, with its id. -/
structure SiteGrant extends SitePermission where
  id : ℕ

/-- The unique key of a row. -/
def SiteGrant.key (row : SiteGrant) : UserId × SiteId := (row.userId, row.siteId)

/-- The rows of `site_permissions`, with the keys of the schema. -/
structure GrantTable where
  rows : List SiteGrant := []
  nextId : ℕ := 0
  ids_nodup : (rows.map SiteGrant.id).Nodup := by decide
  keys_nodup : (rows.map SiteGrant.key).Nodup := by decide
  ids_lt : ∀ row ∈ rows, row.id < nextId := by decide

namespace GrantTable

variable (table : GrantTable)

/-- The row of a user and a site. -/
def find (key : UserId × SiteId) : Option SiteGrant := table.rows.find? fun row ↦ row.key = key

/-- Drop the rows that satisfy a condition. -/
def remove (condition : SiteGrant → Bool) : GrantTable where
  rows := table.rows.filter fun row ↦ !condition row
  nextId := table.nextId
  ids_nodup := table.ids_nodup.sublist (List.filter_sublist.map _)
  keys_nodup := table.keys_nodup.sublist (List.filter_sublist.map _)
  ids_lt := fun row hrow ↦ table.ids_lt row (List.mem_filter.mp hrow).1

/-- The flags of the row with a key are written anew. -/
def setRights (key : UserId × SiteId) (rights : Rights) (row : SiteGrant) : SiteGrant :=
  if row.key = key then { row with rights } else row

theorem setRights_id (key : UserId × SiteId) (rights : Rights) (row : SiteGrant) :
    (setRights key rights row).id = row.id := by
  unfold setRights
  split_ifs <;> rfl

theorem setRights_key (key : UserId × SiteId) (rights : Rights) (row : SiteGrant) :
    (setRights key rights row).key = row.key := by
  unfold setRights
  split_ifs <;> rfl

/-- `update` of the row of a user and a site. -/
def update (key : UserId × SiteId) (rights : Rights) : GrantTable where
  rows := table.rows.map (setRights key rights)
  nextId := table.nextId
  ids_nodup := by
    have hids : SiteGrant.id ∘ setRights key rights = SiteGrant.id :=
      funext (setRights_id key rights)
    rw [List.map_map, hids]
    exact table.ids_nodup
  keys_nodup := by
    have hkeys : SiteGrant.key ∘ setRights key rights = SiteGrant.key :=
      funext (setRights_key key rights)
    rw [List.map_map, hkeys]
    exact table.keys_nodup
  ids_lt := by
    intro row hrow
    obtain ⟨old, hold, rfl⟩ := List.mem_map.mp hrow
    rw [setRights_id]
    exact table.ids_lt old hold

/-- `create` of a row for a user and a site that have none. -/
def insert (key : UserId × SiteId) (rights : Rights) (hfree : ∀ row ∈ table.rows, row.key ≠ key) :
    GrantTable where
  rows := table.rows ++ [{ userId := key.1, siteId := key.2, rights, id := table.nextId }]
  nextId := table.nextId + 1
  ids_nodup := by
    rw [List.map_append, List.nodup_append]
    refine ⟨table.ids_nodup, List.nodup_singleton _, ?_⟩
    intro id hid other hother
    obtain ⟨row, hrow, rfl⟩ := List.mem_map.mp hid
    have hnew : other = table.nextId := by simpa using hother
    rw [hnew]
    exact Nat.ne_of_lt (table.ids_lt row hrow)
  keys_nodup := by
    rw [List.map_append, List.nodup_append]
    refine ⟨table.keys_nodup, List.nodup_singleton _, ?_⟩
    intro other hother new hnew
    obtain ⟨row, hrow, rfl⟩ := List.mem_map.mp hother
    have hkey : new = key := by simpa [SiteGrant.key] using hnew
    rw [hkey]
    exact hfree row hrow
  ids_lt := by
    intro row hrow
    rcases List.mem_append.mp hrow with hold | hnew
    · exact Nat.lt_succ_of_lt (table.ids_lt row hold)
    · rw [List.mem_singleton.mp hnew]
      exact Nat.lt_succ_self _

variable {table} {key : UserId × SiteId} {row : SiteGrant}

theorem find_eq_some_iff : table.find key = some row ↔ row ∈ table.rows ∧ row.key = key :=
  Data.find?_key_eq_some_iff table.keys_nodup

theorem find_eq_none_iff : table.find key = none ↔ ∀ row ∈ table.rows, row.key ≠ key := by
  simp [find]

/-- The flags that a user has for a site. -/
def rightsOf (table : GrantTable) (key : UserId × SiteId) : Option Rights :=
  (table.find key).map fun row ↦ row.rights

/-- Removing the row of a key takes its flags away. -/
theorem rightsOf_remove {condition : SiteGrant → Bool} {key : UserId × SiteId}
    (hcondition : ∀ row ∈ table.rows, condition row = true ↔ row.key = key) :
    (table.remove condition).rightsOf = Function.update table.rightsOf key none := by
  funext other
  have hrows : (table.remove condition).rows = table.rows.filter fun row ↦ row.key ≠ key := by
    refine List.filter_congr fun row hrow ↦ ?_
    have hiff := hcondition row hrow
    by_cases hkey : row.key = key
    · simp [hkey, hiff.mpr hkey]
    · simp [hkey, Bool.eq_false_iff.mpr fun hcond ↦ hkey (hiff.mp hcond)]
  rcases eq_or_ne other key with rfl | hne
  · rw [Function.update_self, rightsOf, Option.map_eq_none_iff, find_eq_none_iff, hrows]
    intro row hrow
    exact of_decide_eq_true (List.mem_filter.mp hrow).2
  · rw [Function.update_of_ne hne, rightsOf, rightsOf]
    congr 1
    ext row
    rw [find_eq_some_iff, find_eq_some_iff, hrows, List.mem_filter,
      decide_eq_true_eq]
    constructor
    · rintro ⟨⟨hrow, -⟩, hkey⟩
      exact ⟨hrow, hkey⟩
    · rintro ⟨hrow, hkey⟩
      exact ⟨⟨hrow, hkey ▸ hne⟩, hkey⟩

theorem rightsOf_update {rights : Rights} (hfound : (table.find key).isSome = true) :
    (table.update key rights).rightsOf = Function.update table.rightsOf key (some rights) := by
  funext other
  have hfind : ∀ row, table.find other = some row →
      (table.update key rights).find other = some (setRights key rights row) := by
    intro row hrow
    obtain ⟨hstored, rfl⟩ := find_eq_some_iff.mp hrow
    exact find_eq_some_iff.mpr ⟨List.mem_map_of_mem hstored, setRights_key key rights row⟩
  unfold rightsOf
  rcases eq_or_ne other key with rfl | hne
  · obtain ⟨row, hrow⟩ := Option.isSome_iff_exists.mp hfound
    rw [Function.update_self, hfind row hrow, Option.map_some, setRights,
      if_pos (find_eq_some_iff.mp hrow).2]
  · rw [Function.update_of_ne hne]
    cases hrow : table.find other with
    | some row =>
      rw [hfind row hrow, Option.map_some, Option.map_some, setRights,
        if_neg fun hkey ↦ hne ((find_eq_some_iff.mp hrow).2.symm.trans hkey)]
    | none =>
      have hnone : (table.update key rights).find other = none := by
        rw [find_eq_none_iff]
        intro row hstored
        obtain ⟨old, hold, rfl⟩ := List.mem_map.mp hstored
        rw [setRights_key]
        exact find_eq_none_iff.mp hrow old hold
      rw [hnone]

theorem rightsOf_insert {rights : Rights} (hfree : ∀ row ∈ table.rows, row.key ≠ key) :
    (table.insert key rights hfree).rightsOf =
        Function.update table.rightsOf key (some rights) := by
  funext other
  unfold rightsOf
  rcases eq_or_ne other key with rfl | hne
  · have hnew : (table.insert other rights hfree).find other =
        some { userId := other.1, siteId := other.2, rights, id := table.nextId } :=
      find_eq_some_iff.mpr ⟨List.mem_append_right _ (List.mem_singleton_self _), rfl⟩
    rw [Function.update_self, hnew, Option.map_some]
  · rw [Function.update_of_ne hne]
    congr 1
    ext row
    rw [find_eq_some_iff, find_eq_some_iff]
    constructor
    · rintro ⟨hrow, hkey⟩
      rcases List.mem_append.mp hrow with hold | hnew
      · exact ⟨hold, hkey⟩
      · rw [List.mem_singleton.mp hnew] at hkey
        exact absurd hkey.symm hne
    · rintro ⟨hrow, hkey⟩
      exact ⟨List.mem_append_left _ hrow, hkey⟩

end GrantTable

/-! ### The service -/

instance : Nonempty Failure := ⟨{ message := "" }⟩

structure World where
  users : List User
  sites : List SiteId
  grants : GrantTable

/-- The outcome the environment chooses for a call: a call that fails has no effect. -/
inductive Outcome
  | ok
  | fail (error : Failure)
  deriving DecidableEq, Repr

inductive Call
  | findUser (userId : UserId)
  | findSite (siteId : SiteId)
  | findGrants (userId : UserId)
  | deleteGrant (id : ℕ)
  | deleteGrants (key : UserId × SiteId)
  | upsertGrant (key : UserId × SiteId) (rights : Rights)

@[reducible] def Reply : Call → Type
  | .findUser _ => Except Failure (Option User)
  | .findSite _ => Except Failure (Option SiteId)
  | .findGrants _ => Except Failure (List SiteGrant)
  | .deleteGrant _ => Except Failure Unit
  | .deleteGrants _ => Except Failure Unit
  | .upsertGrant .. => Except Failure SiteGrant

namespace World

variable (world : World)

/-- `delete` of one row; it throws when there is no such row. -/
def answerDelete (id : ℕ) : Except Failure Unit × World :=
  if world.grants.rows.any fun row ↦ row.id = id then
    (.ok (), { world with grants := world.grants.remove fun row ↦ row.id = id })
  else (.error { message := "Record to delete does not exist." }, world)

/-- `upsert` of the row of a user and a site; a new row must refer to both. -/
def answerUpsert (key : UserId × SiteId) (rights : Rights) : Except Failure SiteGrant × World :=
  match world.grants.find key with
  | some row => (.ok { row with rights }, { world with grants := world.grants.update key rights })
  | none =>
    if (world.users.any fun user ↦ user.id = key.1) && decide (key.2 ∈ world.sites) then
      if hfree : ∀ row ∈ world.grants.rows, row.key ≠ key then
        (.ok { userId := key.1, siteId := key.2, rights, id := world.grants.nextId },
          { world with grants := world.grants.insert key rights hfree })
      else (.error { message := "Unique constraint failed" }, world)
    else (.error { message := "Foreign key constraint failed" }, world)

end World

/-- What the database answers to a call that does not fail. -/
def respond (call : Call) (world : World) : Reply call × World :=
  match call with
  | .findUser userId => (.ok (world.users.find? fun user ↦ user.id = userId), world)
  | .findSite siteId => (.ok (if siteId ∈ world.sites then some siteId else none), world)
  | .findGrants userId => (.ok (world.grants.rows.filter fun row ↦ row.userId = userId), world)
  | .deleteGrant id => world.answerDelete id
  | .deleteGrants key =>
    (.ok (), { world with grants := world.grants.remove fun row ↦ row.key = key })
  | .upsertGrant key rights => world.answerUpsert key rights

def refuse (call : Call) (error : Failure) : Reply call :=
  match call with
  | .findUser _ => .error error
  | .findSite _ => .error error
  | .findGrants _ => .error error
  | .deleteGrant _ => .error error
  | .deleteGrants _ => .error error
  | .upsertGrant .. => .error error

def answer (call : Call) (outcome : Outcome) (world : World) : Reply call × World :=
  match outcome with
  | .ok => respond call world
  | .fail error => (refuse call error, world)

abbrev Async (α : Type) : Type := Program Call Reply Failure α

abbrev call (request : Call) : Async (Reply request) := Program.request request

/-- An entry of the list that the UI sends; a flag may be absent. -/
structure SiteRequest where
  siteId : SiteId
  flags : CameraPermissionFlag → Option Bool

namespace SiteRequest

variable (request : SiteRequest)

/-- `Boolean` of the flags. -/
def rights : Rights := fun flag ↦ (request.flags flag).getD false

/-- Whether some flag is set. -/
def grantsSome : Bool := permissionFlags.any request.rights

end SiteRequest

def requireUser (userId : UserId) : Async User := do
  match ← orThrow (← call (.findUser userId)) with
  | some user => pure user
  | none =>
    failed { statusCode := some 404, message := "User with id '" ++ userId ++ "' not found" }

/-- Every requested site must exist. -/
def checkSites (permissions : List SiteRequest) : Async Unit :=
  permissions.foldlM
    (fun _ request ↦ do
      match ← orThrow (← call (.findSite request.siteId)) with
      | some _ => pure ()
      | none =>
        failed
          { statusCode := some 400
            message := "Site with id '" ++ request.siteId ++ "' not found" }) ()

/-- Deletes the grants for sites that the list leaves out. -/
def dropUnwanted (wanted : List SiteId) (existing : List SiteGrant) : Async Unit :=
  existing.foldlM
    (fun done grant ↦ if wanted.contains grant.siteId then pure done else do
      orThrow (← call (.deleteGrant grant.id))) ()

/-- One round of the loop over the requests. -/
def applyRequest (userId : UserId) (results : List SiteGrant) (request : SiteRequest) :
    Async (List SiteGrant) :=
  if !request.grantsSome then do
    let () ← orThrow (← call (.deleteGrants (userId, request.siteId)))
    pure results
  else do
    let grant ← orThrow (← call (.upsertGrant (userId, request.siteId) request.rights))
    pure (results ++ [grant])

/-- Replaces the user's site grants. -/
def setSitePermissions (userId : UserId) (permissions : List SiteRequest) :
    Async (List SiteGrant) := do
  let _ ← requireUser userId
  let () ← checkSites permissions
  let existing ← orThrow (← call (.findGrants userId))
  let () ← dropUnwanted (permissions.map SiteRequest.siteId) existing
  permissions.foldlM (applyRequest userId) []

/-! ### What is asked for -/

/-- The flags that a user has for each site. -/
def grantsOf (world : World) (userId : UserId) (siteId : SiteId) : Option Rights :=
  world.grants.rightsOf (userId, siteId)

/-- What a request asks for its site. -/
def SiteRequest.wanted (request : SiteRequest) : Option Rights :=
  if request.grantsSome then some request.rights else none

/-- What a list asks for a site: the last request for it, if some flag is set. -/
def requested (permissions : List SiteRequest) (siteId : SiteId) : Option Rights :=
  (permissions.reverse.find? fun request ↦ request.siteId = siteId).bind SiteRequest.wanted

/-- Whichever calls fail, the grants are replaced by what is asked for, or they are as before. -/
def ReplacesAtomically (world : World) (userId : UserId) (permissions : List SiteRequest) : Prop :=
  (setSitePermissions userId permissions).Ends answer
    (fun _ reached ↦ grantsOf reached userId = requested permissions)
    (fun _ reached ↦ grantsOf reached userId = grantsOf world userId) world

/-! ### The rounds of the loops -/

section Rounds

variable {α : Type} {world : World} {userId : UserId} {post : α → World → Prop}
  {thrown : Failure → World → Prop}

/-- A call is answered, or it fails without an effect. -/
theorem ends_call {request : Call} {next : Reply request → Async α} :
    (await request next).Ends answer post thrown world ↔
      (next (respond request world).1).Ends answer post thrown (respond request world).2 ∧
        ∀ error, (next (refuse request error)).Ends answer post thrown world := by
  constructor
  · intro hends
    exact ⟨hends .ok, fun error ↦ hends (.fail error)⟩
  · rintro ⟨hok, hfail⟩ outcome
    cases outcome with
    | ok => exact hok
    | fail error => exact hfail error

theorem ends_requireUser (kept : World → Prop) (hkept : kept world) {post : User → World → Prop} :
    (requireUser userId).Ends answer post (fun _ left ↦ kept left) world ↔
      ∀ user, (world.users.find? fun user ↦ user.id = userId) = some user → post user world := by
  unfold requireUser
  simp only [call, bind_eq, request_bind, ends_call, respond, refuse, orThrow_ok, orThrow_error,
    done_bind, failed_bind]
  cases hfind : world.users.find? fun user ↦ user.id = userId with
  | none => simp [Ends, hkept]
  | some user => simp [Ends, hkept]

theorem ends_checkSites (kept : World → Prop) (hkept : kept world) {post : World → Prop}
    (permissions : List SiteRequest) :
    (checkSites permissions).Ends answer (fun _ left ↦ post left) (fun _ left ↦ kept left) world ↔
      ((∀ request ∈ permissions, request.siteId ∈ world.sites) → post world) := by
  unfold checkSites
  induction permissions with
  | nil => simp [Ends]
  | cons request permissions ih =>
    rw [List.foldlM_cons, bind_eq, ends_bind]
    simp only [call, bind_eq, request_bind, ends_call, respond, refuse, orThrow_ok, orThrow_error,
      done_bind, failed_bind]
    rw [List.forall_mem_cons]
    by_cases hsite : request.siteId ∈ world.sites
    · simp only [if_pos hsite, pure_eq]
      refine ⟨fun hends ↦ ?_, fun hpost ↦
        ⟨ih.mpr fun hsites ↦ hpost ⟨hsite, hsites⟩, fun _ ↦ hkept⟩⟩
      exact fun hsites ↦ ih.mp hends.1 hsites.2
    · simp only [if_neg hsite]
      exact ⟨fun _ hsites ↦ absurd hsites.1 hsite, fun _ ↦ ⟨hkept, fun _ ↦ hkept⟩⟩

/-- The user and the requested sites are there. -/
structure Known (world : World) (userId : UserId) (permissions : List SiteRequest) : Prop where
  user : (world.users.any fun user ↦ user.id = userId) = true
  sites : ∀ request ∈ permissions, request.siteId ∈ world.sites

/-- The deletion of one grant takes the flags of its site away. -/
def dropSite (grants : SiteId → Option Rights) (grant : SiteGrant) : SiteId → Option Rights :=
  Function.update grants grant.siteId none

/-- A request sets what the user has for its site. -/
def grantSite (grants : SiteId → Option Rights) (request : SiteRequest) : SiteId → Option Rights :=
  Function.update grants request.siteId request.wanted

theorem grantsOf_of_update {world reached : World} {userId : UserId} {siteId : SiteId}
    {value : Option Rights}
    (hrights : reached.grants.rightsOf =
      Function.update world.grants.rightsOf (userId, siteId) value) :
    grantsOf reached userId = Function.update (grantsOf world userId) siteId value := by
  funext site
  simp only [grantsOf, hrights]
  by_cases hsite : site = siteId
  · rw [hsite, Function.update_self, Function.update_self]
  · rw [Function.update_of_ne hsite, Function.update_of_ne fun hkey ↦ hsite (Prod.mk.inj hkey).2]
    rfl

/-- Rows of the user that are still there, each once. -/
structure Droppable (start : World) (userId : UserId) (grants : List SiteGrant) (world : World) :
    Prop where
  users : world.users = start.users
  sites : world.sites = start.sites
  rows : ∀ grant ∈ grants, grant ∈ world.grants.rows ∧ grant.userId = userId
  nodup : (grants.map SiteGrant.id).Nodup

theorem drop_round {start : SiteId → Option Rights} {initial : World} (_ : Unit) (grant : SiteGrant)
    (rest : List SiteGrant) (world : World)
    (hready : Droppable initial userId (grant :: rest) world) :
    ∃ value reached, Droppable initial userId rest reached ∧
      grantsOf reached userId = dropSite (grantsOf world userId) grant ∧
      ∀ next : Unit → World → Prop,
        ((do orThrow (← call (.deleteGrant grant.id)) : Async Unit)).Ends answer next
            (fun _ left ↦ grantsOf left userId = start) world ↔
          grantsOf world userId = start ∧ next value reached := by
  obtain ⟨hstored, huser⟩ := hready.rows grant List.mem_cons_self
  have hdelete : world.answerDelete grant.id =
      (.ok (), { world with grants := world.grants.remove fun row ↦ row.id = grant.id }) :=
    if_pos (List.any_eq_true.mpr ⟨grant, hstored, decide_eq_true rfl⟩)
  have hnodup := List.nodup_cons.mp (List.map_cons ▸ hready.nodup)
  refine ⟨(), { world with grants := world.grants.remove fun row ↦ row.id = grant.id },
    ⟨hready.users, hready.sites, fun other hother ↦ ?_, hnodup.2⟩, ?_, fun next ↦ ?_⟩
  · obtain ⟨hkept, hmine⟩ := hready.rows other (List.mem_cons_of_mem _ hother)
    refine ⟨List.mem_filter.mpr ⟨hkept, ?_⟩, hmine⟩
    have hid : other.id ≠ grant.id := fun hid ↦ hnodup.1 (hid ▸ List.mem_map_of_mem hother)
    simpa using hid
  · refine grantsOf_of_update (GrantTable.rightsOf_remove fun row hrow ↦ ?_)
    rw [decide_eq_true_eq, ← huser]
    constructor
    · intro hid
      rw [List.inj_on_of_nodup_map world.grants.ids_nodup hrow hstored hid]
      rfl
    · intro hkey
      rw [List.inj_on_of_nodup_map world.grants.keys_nodup hrow hstored hkey]
  · simp only [call, bind_eq, request_bind, ends_call, respond, refuse, hdelete, orThrow_ok,
      orThrow_error]
    exact ⟨fun hends ↦ ⟨hends.2 { message := "" }, hends.1⟩, fun hends ↦ ⟨hends.2, fun _ ↦ hends.1⟩⟩

/-- An upsert for a user and a site that are there sets the flags. -/
theorem answerUpsert_eq {key : UserId × SiteId} {rights : Rights}
    (huser : (world.users.any fun user ↦ user.id = key.1) = true) (hsite : key.2 ∈ world.sites) :
    ∃ row table, world.answerUpsert key rights = (.ok row, { world with grants := table }) ∧
      table.rightsOf = Function.update world.grants.rightsOf key (some rights) := by
  unfold World.answerUpsert
  cases hfind : world.grants.find key with
  | some row => exact ⟨_, _, rfl, GrantTable.rightsOf_update (hfind ▸ rfl)⟩
  | none =>
    have hfree := GrantTable.find_eq_none_iff.mp hfind
    dsimp only
    rw [if_pos (by simp [huser, hsite]), dif_pos hfree]
    exact ⟨_, _, rfl, GrantTable.rightsOf_insert hfree⟩

theorem apply_round {start : SiteId → Option Rights} (total : List SiteGrant)
    (request : SiteRequest)
    (rest : List SiteRequest) (world : World) (hready : Known world userId (request :: rest)) :
    ∃ value reached, Known reached userId rest ∧
      grantsOf reached userId = grantSite (grantsOf world userId) request ∧
      ∀ next : List SiteGrant → World → Prop,
        (applyRequest userId total request).Ends answer next
            (fun _ left ↦ grantsOf left userId = start) world ↔
          grantsOf world userId = start ∧ next value reached := by
  have hothers : ∀ other ∈ rest, other.siteId ∈ world.sites :=
    fun other hother ↦ hready.sites other (List.mem_cons_of_mem _ hother)
  unfold applyRequest
  cases hsome : request.grantsSome with
  | true =>
    obtain ⟨row, table, hupsert, hrights⟩ := @answerUpsert_eq world (userId, request.siteId)
      request.rights hready.user (hready.sites request List.mem_cons_self)
    refine ⟨total ++ [row], { world with grants := table }, ⟨hready.user, hothers⟩, ?_,
      fun next ↦ ?_⟩
    · rw [grantSite, SiteRequest.wanted, if_pos hsome]
      exact grantsOf_of_update hrights
    · simp [call, ends_call, respond, refuse, hupsert, Ends, and_comm]
  | false =>
    refine ⟨total, { world with grants := world.grants.remove fun row ↦ row.key = (userId,
      request.siteId) }, ⟨hready.user, hothers⟩, ?_, fun next ↦ ?_⟩
    · rw [grantSite, SiteRequest.wanted, hsome]
      exact grantsOf_of_update (GrantTable.rightsOf_remove fun row _ ↦ decide_eq_true_iff)
    · simp [call, ends_call, respond, refuse, Ends, and_comm]

end Rounds

/-! ### Where the writes lead -/

theorem foldl_dropSite (grants : SiteId → Option Rights) (dropped : List SiteGrant)
    (siteId : SiteId) :
    dropped.foldl dropSite grants siteId =
      if siteId ∈ dropped.map (fun grant ↦ grant.siteId) then none else grants siteId := by
  induction dropped generalizing grants with
  | nil => rfl
  | cons grant dropped ih =>
    rw [List.foldl_cons, ih, dropSite, List.map_cons]
    rcases eq_or_ne siteId grant.siteId with rfl | hne
    · simp
    · simp [hne]

theorem foldl_grantSite (grants : SiteId → Option Rights) (permissions : List SiteRequest)
    (siteId : SiteId) :
    permissions.foldl grantSite grants siteId =
      if siteId ∈ permissions.map SiteRequest.siteId then requested permissions siteId
      else grants siteId := by
  induction permissions using List.reverseRecOn with
  | nil => rfl
  | append_singleton permissions request ih =>
    rw [List.foldl_append, List.foldl_cons, List.foldl_nil, grantSite, requested,
      List.reverse_append, List.reverse_singleton, List.singleton_append, List.find?_cons]
    rcases eq_or_ne siteId request.siteId with rfl | hne
    · simp
    · rw [Function.update_of_ne hne, ih]
      simp [hne, hne.symm, requested]

theorem requested_eq_none {permissions : List SiteRequest} {siteId : SiteId}
    (hsite : siteId ∉ permissions.map SiteRequest.siteId) :
        requested permissions siteId = none := by
  have hnone : (permissions.reverse.find? fun request ↦ request.siteId = siteId) = none := by
    rw [List.find?_eq_none]
    intro request hrequest hsame
    exact hsite (List.mem_map.mpr ⟨request, List.mem_reverse.mp hrequest, of_decide_eq_true hsame⟩)
  rw [requested, hnone]
  rfl

/-- The user's grants for sites that the list leaves out. -/
def unwantedGrants (world : World) (userId : UserId) (permissions : List SiteRequest) :
    List SiteGrant :=
  (world.grants.rows.filter fun row ↦ row.userId = userId).filter fun grant ↦
    !(permissions.map SiteRequest.siteId).contains grant.siteId

section Replacement

variable {world : World} {userId : UserId} {permissions : List SiteRequest}

theorem mem_unwantedGrants {grant : SiteGrant} :
    grant ∈ unwantedGrants world userId permissions ↔ (grant ∈ world.grants.rows ∧
      grant.userId = userId) ∧ grant.siteId ∉ permissions.map SiteRequest.siteId := by
  simp only [unwantedGrants, List.mem_filter, decide_eq_true_eq, Bool.not_eq_true',
    List.contains_eq_mem, decide_eq_false_iff_not]

theorem grantsOf_of_mem {grant : SiteGrant} (hgrant : grant ∈ world.grants.rows) :
    grantsOf world grant.userId grant.siteId = some grant.rights := by
  have hfind : world.grants.find (grant.userId, grant.siteId) = some grant :=
    GrantTable.find_eq_some_iff.mpr ⟨hgrant, rfl⟩
  rw [grantsOf, GrantTable.rightsOf, hfind, Option.map_some]

theorem mem_of_grantsOf {siteId : SiteId} {rights : Rights}
    (hrights : grantsOf world userId siteId = some rights) :
    ∃ grant ∈ world.grants.rows, grant.userId = userId ∧ grant.siteId = siteId := by
  obtain ⟨grant, hfind, -⟩ := Option.map_eq_some_iff.mp hrights
  obtain ⟨hgrant, hkey⟩ := GrantTable.find_eq_some_iff.mp hfind
  exact ⟨grant, hgrant, Prod.mk.inj hkey⟩

/-- When no write fails, the grants are what is asked for. -/
theorem foldl_eq_requested :
    permissions.foldl grantSite ((unwantedGrants world userId permissions).foldl dropSite
      (grantsOf world userId)) = requested permissions := by
  funext siteId
  rw [foldl_grantSite, foldl_dropSite]
  by_cases hsite : siteId ∈ permissions.map SiteRequest.siteId
  · rw [if_pos hsite]
  · rw [if_neg hsite, requested_eq_none hsite]
    cases hrights : grantsOf world userId siteId with
    | none => rw [ite_self]
    | some rights =>
      obtain ⟨grant, hgrant, huser, rfl⟩ := mem_of_grantsOf hrights
      exact if_pos (List.mem_map_of_mem (mem_unwantedGrants.mpr ⟨⟨hgrant, huser⟩, hsite⟩))

/-- Taking an existing grant away changes the grants. -/
theorem dropSite_ne {grant : SiteGrant} (hgrant : grant ∈ unwantedGrants world userId permissions) :
    dropSite (grantsOf world userId) grant ≠ grantsOf world userId := by
  obtain ⟨⟨hstored, rfl⟩, -⟩ := mem_unwantedGrants.mp hgrant
  intro hsame
  have hsite := congrFun hsame grant.siteId
  rw [dropSite, Function.update_self, grantsOf_of_mem hstored] at hsite
  cases hsite

/-- At most the last write changes something. -/
structure ChangesLast (world : World) (userId : UserId) (permissions : List SiteRequest) :
    Prop where
  dropped : (unwantedGrants world userId permissions).length ≤ 1
  granted : permissions ≠ [] → unwantedGrants world userId permissions = [] ∧
    ∀ request ∈ permissions.dropLast, grantsOf world userId request.siteId = request.wanted

/-- The writes may fail anywhere just when at most the last one changes something. -/
theorem forall_take_iff_changesLast :
    ((∀ count < (unwantedGrants world userId permissions).length,
        ((unwantedGrants world userId permissions).take count).foldl dropSite
          (grantsOf world userId) = grantsOf world userId) ∧
      ∀ count < permissions.length, (permissions.take count).foldl grantSite
        ((unwantedGrants world userId permissions).foldl dropSite (grantsOf world userId)) =
          grantsOf world userId) ↔ ChangesLast world userId permissions := by
  rw [forall_take_iff]
  constructor
  · rintro ⟨hdropped, hgranted⟩
    refine ⟨?_, fun hasked ↦ ?_⟩
    · by_contra hmany
      obtain ⟨grant, hgrant⟩ := List.exists_mem_of_length_pos
        (by rw [List.length_dropLast]; omega :
          0 < (unwantedGrants world userId permissions).dropLast.length)
      exact dropSite_ne ((List.dropLast_sublist _).subset hgrant) (hdropped grant hgrant)
    · have hkept := hgranted 0 (List.length_pos_iff.mpr hasked)
      rw [List.take_zero, List.foldl_nil] at hkept
      refine ⟨List.eq_nil_iff_forall_not_mem.mpr fun grant hgrant ↦ ?_, fun request hrequest ↦ ?_⟩
      · obtain ⟨⟨hstored, rfl⟩, -⟩ := mem_unwantedGrants.mp hgrant
        have hsite := congrFun hkept grant.siteId
        rw [foldl_dropSite, if_pos (List.mem_map_of_mem hgrant), grantsOf_of_mem hstored] at hsite
        cases hsite
      · rw [hkept, forall_take_iff] at hgranted
        exact (Function.update_eq_self_iff.mp (hgranted request hrequest)).symm
  · rintro ⟨hdropped, hgranted⟩
    constructor
    · intro grant hgrant
      have hpositive := List.length_pos_of_mem hgrant
      rw [List.length_dropLast] at hpositive
      omega
    · intro count hcount
      obtain ⟨hnone, hkept⟩ := hgranted (List.ne_nil_of_length_pos (Nat.zero_lt_of_lt hcount))
      rw [hnone, List.foldl_nil]
      refine (forall_take_iff permissions).mpr (fun request hrequest ↦ ?_) count hcount
      exact Function.update_eq_self_iff.mpr (hkept request hrequest).symm

/-- The writes, once the lookups have gone through. -/
theorem ends_writes (hknown : Known world userId permissions) :
    ((dropUnwanted (permissions.map SiteRequest.siteId)
        (world.grants.rows.filter fun row ↦ row.userId = userId)).bind fun _ ↦
      permissions.foldlM (applyRequest userId) []).Ends answer
        (fun _ left ↦ grantsOf left userId = requested permissions)
        (fun _ left ↦ grantsOf left userId = grantsOf world userId) world ↔
      ChangesLast world userId permissions := by
  have hdroppable : Droppable world userId (unwantedGrants world userId permissions) world := by
    refine ⟨rfl, rfl, fun grant hgrant ↦ (mem_unwantedGrants.mp hgrant).1, ?_⟩
    exact world.grants.ids_nodup.sublist ((List.filter_sublist.trans List.filter_sublist).map _)
  obtain ⟨dropped, hdone, hdropped, hdrops⟩ := ends_edits (Droppable world userId)
    (@drop_round userId (grantsOf world userId) world) hdroppable
  have hstill : Known dropped userId permissions :=
    ⟨hdone.users ▸ hknown.user, hdone.sites ▸ hknown.sites⟩
  obtain ⟨replaced, -, hreplaced, hgrants⟩ := ends_edits
    (fun rest left ↦ Known left userId rest) (@apply_round userId (grantsOf world userId)) hstill
  have hexact : grantsOf replaced userId = requested permissions := by
    rw [hreplaced, hdropped, foldl_eq_requested]
  unfold dropUnwanted
  rw [foldlM_filter, ends_bind]
  refine (hdrops _).trans ?_
  rw [hgrants, ← forall_take_iff_changesLast, hdropped, and_iff_left hexact]

end Replacement

/-- The grants are replaced atomically just when the user or a site is missing, or at most the last
write changes something. -/
theorem replacesAtomically_iff (world : World) (userId : UserId) (permissions : List SiteRequest) :
    ReplacesAtomically world userId permissions ↔
      (Known world userId permissions → ChangesLast world userId permissions) := by
  have hkept : grantsOf world userId = grantsOf world userId := rfl
  have hrequire := @ends_requireUser world userId
    (fun left ↦ grantsOf left userId = grantsOf world userId) hkept
  have hcheck := @ends_checkSites world (fun left ↦ grantsOf left userId = grantsOf world userId)
    hkept
  unfold ReplacesAtomically setSitePermissions
  rw [bind_eq, ends_bind, hrequire]
  constructor
  · intro hends hknown
    obtain ⟨user, hfind⟩ := Option.isSome_iff_exists.mp
      (List.find?_isSome.mpr (List.any_eq_true.mp hknown.user))
    have hchecked := hends user hfind
    rw [bind_eq, ends_bind, hcheck] at hchecked
    exact (ends_writes hknown).mp (hchecked hknown.sites .ok)
  · intro hlast user hfind
    rw [bind_eq, ends_bind, hcheck]
    intro hsites
    have hid := List.find?_some hfind
    have hknown : Known world userId permissions :=
      ⟨List.any_eq_true.mpr ⟨user, List.mem_of_find?_eq_some hfind, hid⟩, hsites⟩
    simp only [call, bind_eq, request_bind, ends_call, respond, refuse, orThrow_ok, orThrow_error,
      done_bind, failed_bind]
    exact ⟨(ends_writes hknown).mpr (hlast hknown), fun _ ↦ hkept⟩

/-! ### A grant moved to another site -/

/-- A grant for one of two sites. -/
def liveAtYard : World where
  users := [{ id := "ann", passwordHash := "" }]
  sites := ["yard", "gate"]
  grants :=
    { rows := [{ userId := "ann", siteId := "yard", rights := allRights, id := 0 }], nextId := 1 }

/-- All flags for the other site. -/
def gateInstead : List SiteRequest := [{ siteId := "gate", flags := fun _ ↦ some true }]

/-- When the upsert fails, the grant is gone. -/
theorem not_replacesAtomically_liveAtYard : ¬ ReplacesAtomically liveAtYard "ann" gateInstead := by
  intro hatomic
  have hgrants : grantsOf _ "ann" = grantsOf liveAtYard "ann" :=
    hatomic .ok .ok .ok .ok (.fail { message := "Connection terminated" })
  have hyard := congrArg Option.isSome (congrFun hgrants "yard")
  revert hyard
  decide

end VmsLite.Users.SiteGrants
