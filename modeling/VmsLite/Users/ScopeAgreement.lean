import Mathlib.Data.List.Nodup
import Mathlib.Data.Fintype.EquivFin
import Mathlib.Data.Fintype.List
import VmsLite.Users.CameraScope

/-!
# Camera scopes agree with the grants

The rights of an operator on a camera are those of the camera's own grant and of the grant on the
site it stands at. The merge of the two tables keeps one entry for each camera, and the entry has a
right exactly when some grant does (`has_applyGrant`); the three views of a scope all read that
entry, so they agree with each other and with the definition.
-/

set_option autoImplicit false

namespace VmsLite.Users

open Recordings (CameraId)

/-! ### The definition -/

/-- Grants as the database keeps them: one on each site and on each camera for a user, on cameras
that are there. -/
structure GrantRows extends GrantTables where
  sites_unique : sitePermissions.Pairwise fun first second ↦
    ¬ (first.userId = second.userId ∧ first.siteId = second.siteId)
  cameras_unique : cameraPermissions.Pairwise fun first second ↦
    ¬ (first.userId = second.userId ∧ first.cameraId = second.cameraId)
  cameras_known : ∀ grant ∈ cameraPermissions, ∃ camera ∈ cameras, camera.id = grant.cameraId

variable (rows : GrantRows)

/-- The camera's own grant, or the grant of the site the camera is at, carries the flag. -/
def Granted (userId : UserId) (cameraId : CameraId) (flag : CameraPermissionFlag) : Prop :=
  (∃ grant ∈ rows.cameraPermissions, grant.userId = userId ∧ grant.cameraId = cameraId ∧
    grant.rights flag = true) ∨
  ∃ camera ∈ rows.cameras, camera.id = cameraId ∧ ∃ grant ∈ rows.sitePermissions,
    grant.userId = userId ∧ camera.siteId = some grant.siteId ∧ grant.rights flag = true

/-- Whether a user has a flag on a camera. -/
def Permitted (user : UserTokenPayload) (cameraId : CameraId) (flag : CameraPermissionFlag) :
    Prop :=
  match user.role with
  | .admin => allRights flag = true
  | .viewer => viewOnly flag = true
  | .operator => Granted rows user.id cameraId flag

/-- Whether a user has a right on a camera: a flag, or live or playback. -/
def MayDo (user : UserTokenPayload) (cameraId : CameraId) : CameraRight → Prop
  | .flag flag => Permitted rows user cameraId flag
  | .view => Permitted rows user cameraId .canViewLive ∨
      Permitted rows user cameraId .canViewPlayback

/-- The same cameras, and every grant is still there with at least its flags. -/
structure Widens (before after : GrantRows) : Prop where
  cameras : after.cameras = before.cameras
  cameraPermissions : ∀ grant ∈ before.cameraPermissions, ∃ wider ∈ after.cameraPermissions,
    wider.userId = grant.userId ∧ wider.cameraId = grant.cameraId ∧
      ∀ flag, grant.rights flag = true → wider.rights flag = true
  sitePermissions : ∀ grant ∈ before.sitePermissions, ∃ wider ∈ after.sitePermissions,
    wider.userId = grant.userId ∧ wider.siteId = grant.siteId ∧
      ∀ flag, grant.rights flag = true → wider.rights flag = true

/-- The views of a scope agree with the definition and with each other. `permissions` is asked for
all cameras that there are. -/
structure ScopeAgrees (user : UserTokenPayload) (scope : CameraScope) : Prop where
  can_iff : ∀ cameraId right, scope.can cameraId right = true ↔ MayDo rows user cameraId right
  cameraIds_eq_none : ∀ right, scope.cameraIds right = none ↔
    ∀ cameraId, scope.can cameraId right = true
  mem_cameraIds : ∀ right ids, scope.cameraIds right = some ids → ∀ cameraId,
    cameraId ∈ ids ↔ scope.can cameraId right = true
  mem_permissions : ∀ allCameraIds, (∀ camera ∈ rows.cameras, camera.id ∈ allCameraIds) →
    ∀ cameraId, (∃ permission ∈ scope.permissions allCameraIds, permission.cameraId = cameraId) ↔
      cameraId ∈ allCameraIds ∧ ∃ flag, scope.can cameraId (.flag flag) = true
  permissions_nodup : ∀ allCameraIds : List CameraId, allCameraIds.Nodup →
    ((scope.permissions allCameraIds).map (·.cameraId)).Nodup
  rights_eq : ∀ allCameraIds, ∀ permission ∈ scope.permissions allCameraIds, ∀ flag,
    permission.rights flag = scope.can permission.cameraId (.flag flag)

/-! ### The merge -/

/-- Some entry of a camera has a flag. -/
def Has (merged : List EffectivePermission) (cameraId : CameraId) (flag : CameraPermissionFlag) :
    Prop :=
  ∃ entry ∈ merged, entry.cameraId = cameraId ∧ entry.rights flag = true

section Merge

variable {merged : List EffectivePermission} {cameraId : CameraId} {flag : CameraPermissionFlag}

theorem has_append {others : List EffectivePermission} :
    Has (merged ++ others) cameraId flag ↔ Has merged cameraId flag ∨ Has others cameraId flag := by
  unfold Has
  constructor
  · rintro ⟨entry, hentry, hhas⟩
    rcases List.mem_append.mp hentry with hfirst | hsecond
    · exact Or.inl ⟨entry, hfirst, hhas⟩
    · exact Or.inr ⟨entry, hsecond, hhas⟩
  · rintro (⟨entry, hentry, hhas⟩ | ⟨entry, hentry, hhas⟩)
    · exact ⟨entry, List.mem_append_left _ hentry, hhas⟩
    · exact ⟨entry, List.mem_append_right _ hentry, hhas⟩

/-- A grant adds its flags to its camera, and nothing else. -/
theorem has_applyGrant (granted : CameraId) (rights : Rights) (source : GrantSource) :
    Has (applyGrant merged granted rights source) cameraId flag ↔
      Has merged cameraId flag ∨ granted = cameraId ∧ rights flag = true := by
  unfold applyGrant
  split_ifs with hany
  · obtain ⟨known, hknown, hsame⟩ := List.any_eq_true.mp hany
    have hsame : known.cameraId = granted := of_decide_eq_true hsame
    constructor
    · rintro ⟨entry, hentry, hid, hflag⟩
      obtain ⟨old, hold, rfl⟩ := List.mem_map.mp hentry
      split_ifs at hid hflag with hgranted
      · rcases (Bool.or_eq_true ..).mp hflag with hbefore | hnew
        · exact Or.inl ⟨old, hold, hid, hbefore⟩
        · exact Or.inr ⟨hgranted.symm.trans hid, hnew⟩
      · exact Or.inl ⟨old, hold, hid, hflag⟩
    · rintro (⟨entry, hentry, hid, hflag⟩ | ⟨rfl, hflag⟩)
      · refine ⟨_, List.mem_map_of_mem hentry, ?_, ?_⟩
        · split_ifs
          · exact hid
          · exact hid
        · split_ifs
          · exact (Bool.or_eq_true ..).mpr (Or.inl hflag)
          · exact hflag
      · refine ⟨_, List.mem_map_of_mem hknown, ?_, ?_⟩
        · rw [if_pos hsame]
          exact hsame
        · rw [if_pos hsame]
          exact (Bool.or_eq_true ..).mpr (Or.inr hflag)
  · rw [has_append]
    refine or_congr_right ⟨?_, ?_⟩
    · rintro ⟨entry, hentry, hid, hflag⟩
      obtain rfl := List.mem_singleton.mp hentry
      exact ⟨hid, by simpa [EffectivePermission.grant, noPermission] using hflag⟩
    · rintro ⟨rfl, hflag⟩
      refine ⟨_, List.mem_singleton_self _, rfl, ?_⟩
      simpa [EffectivePermission.grant, noPermission] using hflag

theorem has_foldl_cameraPermissions (grants : List CameraPermission) :
    Has (grants.foldl (fun merged grant ↦ applyGrant merged grant.cameraId grant.rights .viaCamera)
      merged) cameraId flag ↔
        Has merged cameraId flag ∨
          ∃ grant ∈ grants, grant.cameraId = cameraId ∧ grant.rights flag = true := by
  induction grants generalizing merged with
  | nil => simp
  | cons grant grants ih =>
    rw [List.foldl_cons, ih, has_applyGrant, or_assoc, List.exists_mem_cons_iff]

/-- A step of the second loop: the grant on the site of a camera, if there is one. -/
structure AppliesSite (bySite : SiteId → Option SitePermission)
    (step : List EffectivePermission → SitedCamera → List EffectivePermission) : Prop where
  granted : ∀ merged camera grant, camera.siteId.bind bySite = some grant →
    step merged camera = applyGrant merged camera.id grant.rights .viaSite
  skipped : ∀ merged camera, camera.siteId.bind bySite = none → step merged camera = merged

theorem has_foldl_cameras (bySite : SiteId → Option SitePermission)
    {step : List EffectivePermission → SitedCamera → List EffectivePermission}
    (happlies : AppliesSite bySite step) (cameras : List SitedCamera) :
    Has (cameras.foldl step merged) cameraId flag ↔
      Has merged cameraId flag ∨ ∃ camera ∈ cameras, camera.id = cameraId ∧
        ∃ grant, camera.siteId.bind bySite = some grant ∧ grant.rights flag = true := by
  induction cameras generalizing merged with
  | nil => simp
  | cons camera cameras ih =>
    rw [List.foldl_cons, ih, List.exists_mem_cons_iff]
    cases hsite : camera.siteId.bind bySite with
    | none =>
      rw [happlies.skipped merged camera hsite]
      simp
    | some grant =>
      rw [happlies.granted merged camera grant hsite, has_applyGrant, or_assoc]
      simp

/-- The merge keeps one entry for each camera. -/
theorem nodup_applyGrant (hnodup : (merged.map (·.cameraId)).Nodup) (granted : CameraId)
    (rights : Rights) (source : GrantSource) :
    ((applyGrant merged granted rights source).map (·.cameraId)).Nodup := by
  unfold applyGrant
  split_ifs with hany
  · have hkeys : (merged.map fun entry ↦ if entry.cameraId = granted then entry.grant rights source
        else entry).map (·.cameraId) = merged.map (·.cameraId) := by
      rw [List.map_map]
      refine List.map_congr_left fun entry _ ↦ ?_
      rw [Function.comp_apply]
      split_ifs
      · rfl
      · rfl
    rw [hkeys]
    exact hnodup
  · rw [List.map_append]
    refine List.nodup_append.mpr ⟨hnodup, List.nodup_singleton _, ?_⟩
    rintro first hfirst second hsecond rfl
    obtain ⟨entry, hentry, rfl⟩ := List.mem_map.mp hfirst
    refine hany (List.any_eq_true.mpr ⟨entry, hentry, decide_eq_true ?_⟩)
    exact List.mem_singleton.mp hsecond

theorem nodup_foldl {Item : Type} {step : List EffectivePermission → Item →
    List EffectivePermission}
    (hstep : ∀ merged item, (merged.map (·.cameraId)).Nodup →
      ((step merged item).map (·.cameraId)).Nodup)
    (items : List Item) (hnodup : (merged.map (·.cameraId)).Nodup) :
    ((items.foldl step merged).map (·.cameraId)).Nodup := by
  induction items generalizing merged with
  | nil => exact hnodup
  | cons item items ih => exact ih (hstep merged item hnodup)

end Merge

/-! ### The grants of an operator -/

section Operator

variable (userId : UserId)

/-- A user's grant on a site is the one that a search from the back finds. -/
theorem find_reverse_sites_iff (siteId : SiteId) (grant : SitePermission) :
    (rows.sitePermissions.filter (·.userId = userId)).reverse.find? (·.siteId = siteId) =
      some grant ↔
      grant ∈ rows.sitePermissions ∧ grant.userId = userId ∧ grant.siteId = siteId := by
  have hmem : ∀ other, other ∈ (rows.sitePermissions.filter (·.userId = userId)).reverse ↔
      other ∈ rows.sitePermissions ∧ other.userId = userId := by
    intro other
    rw [List.mem_reverse, List.mem_filter, decide_eq_true_eq]
  constructor
  · intro hfind
    obtain ⟨hgrant, huser⟩ := (hmem grant).mp (List.mem_of_find?_eq_some hfind)
    exact ⟨hgrant, huser, by simpa using List.find?_some hfind⟩
  · rintro ⟨hgrant, huser, hsite⟩
    cases hfind : (rows.sitePermissions.filter (·.userId = userId)).reverse.find?
        (·.siteId = siteId) with
    | none =>
      have hnone := List.find?_eq_none.mp hfind grant ((hmem grant).mpr ⟨hgrant, huser⟩)
      exact absurd (decide_eq_true hsite) hnone
    | some found =>
      obtain ⟨hfound, huser'⟩ := (hmem found).mp (List.mem_of_find?_eq_some hfind)
      have hsite' : found.siteId = siteId := by simpa using List.find?_some hfind
      -- The database keeps one grant for the user on the site
      by_contra hne
      have hdistinct : found ≠ grant := fun hsame ↦ hne (congrArg some hsame)
      have hsymm : Std.Symm fun first second : SitePermission ↦
          ¬ (first.userId = second.userId ∧ first.siteId = second.siteId) :=
        ⟨fun _ _ hnot hboth ↦ hnot ⟨hboth.1.symm, hboth.2.symm⟩⟩
      exact rows.sites_unique.forall hfound hgrant hdistinct
        ⟨huser'.trans huser.symm, hsite'.trans hsite.symm⟩

theorem has_effectiveGrants (cameraId : CameraId) (flag : CameraPermissionFlag) :
    Has (effectiveGrants rows.toGrantTables userId) cameraId flag ↔
      Granted rows userId cameraId flag := by
  have hfilter : ∀ merged : List EffectivePermission,
      Has (merged.filter fun permission ↦ permissionFlags.any permission.rights) cameraId flag ↔
        Has merged cameraId flag := by
    intro merged
    constructor
    · rintro ⟨entry, hentry, hhas⟩
      exact ⟨entry, (List.mem_filter.mp hentry).1, hhas⟩
    · rintro ⟨entry, hentry, hid, hflag⟩
      refine ⟨entry, List.mem_filter.mpr ⟨hentry, List.any_eq_true.mpr ⟨flag, ?_, hflag⟩⟩, hid,
        hflag⟩
      cases flag <;> decide
  unfold effectiveGrants
  dsimp only
  let bySite : SiteId → Option SitePermission := fun siteId ↦
    (rows.sitePermissions.filter (·.userId = userId)).reverse.find? (·.siteId = siteId)
  rw [hfilter, has_foldl_cameras bySite ⟨fun merged camera grant hsite ↦ ?_,
    fun merged camera hsite ↦ ?_⟩, has_foldl_cameraPermissions]
  rotate_left
  · rw [hsite]
  · rw [hsite]
  have hnone : ¬ Has [] cameraId flag := by
    rintro ⟨entry, hentry, -⟩
    cases hentry
  rw [or_iff_right hnone]
  refine or_congr ?_ ?_
  · constructor
    · rintro ⟨grant, hgrant, hhas⟩
      obtain ⟨hmem, huser⟩ := List.mem_filter.mp hgrant
      exact ⟨grant, hmem, of_decide_eq_true huser, hhas⟩
    · rintro ⟨grant, hmem, huser, hhas⟩
      exact ⟨grant, List.mem_filter.mpr ⟨hmem, decide_eq_true huser⟩, hhas⟩
  · constructor
    · rintro ⟨camera, hcamera, hid, grant, hgrant, hflag⟩
      obtain ⟨siteId, hsite, hfind⟩ := Option.bind_eq_some_iff.mp hgrant
      obtain ⟨hmem, huser, rfl⟩ := (find_reverse_sites_iff rows userId siteId grant).mp hfind
      exact ⟨camera, hcamera, hid, grant, hmem, huser, hsite, hflag⟩
    · rintro ⟨camera, hcamera, hid, grant, hmem, huser, hsite, hflag⟩
      refine ⟨camera, hcamera, hid, grant, Option.bind_eq_some_iff.mpr ⟨_, hsite, ?_⟩, hflag⟩
      exact (find_reverse_sites_iff rows userId _ grant).mpr ⟨hmem, huser, rfl⟩

theorem nodup_effectiveGrants :
    ((effectiveGrants rows.toGrantTables userId).map (·.cameraId)).Nodup := by
  unfold effectiveGrants
  dsimp only
  have hnil : (([] : List EffectivePermission).map (·.cameraId)).Nodup := List.nodup_nil
  have hcameras := nodup_foldl (fun _ (grant : CameraPermission) hnodup ↦
    nodup_applyGrant hnodup grant.cameraId grant.rights .viaCamera)
      (rows.cameraPermissions.filter (·.userId = userId)) hnil
  refine (nodup_foldl (fun merged camera hnodup ↦ ?_) rows.cameras hcameras).sublist
    (List.filter_sublist.map _)
  split
  · exact nodup_applyGrant hnodup _ _ _
  · exact hnodup

/-- Every entry of an operator has a flag. -/
theorem exists_flag_of_mem_effectiveGrants {entry : EffectivePermission}
    (hentry : entry ∈ effectiveGrants rows.toGrantTables userId) :
    ∃ flag, entry.rights flag = true := by
  obtain ⟨flag, -, hflag⟩ := List.any_eq_true.mp (List.mem_filter.mp hentry).2
  exact ⟨flag, hflag⟩

end Operator

/-! ### The views of a scope -/

/-- A scope of every camera. -/
theorem can_everyCamera {scope : CameraScope} {rights : Rights}
    (hevery : scope.everyCamera = some rights) (cameraId : CameraId) (flag : CameraPermissionFlag) :
    scope.can cameraId (.flag flag) = rights flag := by
  unfold CameraScope.can
  rw [hevery]
  rfl

theorem can_view (scope : CameraScope) (cameraId : CameraId) :
    scope.can cameraId .view =
      (scope.can cameraId (.flag .canViewLive) || scope.can cameraId (.flag .canViewPlayback)) := by
  unfold CameraScope.can
  cases scope.everyCamera.or ((scope.perCamera.find? (·.cameraId = cameraId)).map (·.rights)) <;>
    rfl

/-- The test looks at the one entry of the camera. -/
theorem can_perCamera {scope : CameraScope} (hevery : scope.everyCamera = none)
    (hnodup : (scope.perCamera.map (·.cameraId)).Nodup) (cameraId : CameraId)
    (flag : CameraPermissionFlag) :
    scope.can cameraId (.flag flag) = true ↔ Has scope.perCamera cameraId flag := by
  unfold CameraScope.can
  rw [hevery, Option.none_or]
  cases hfind : scope.perCamera.find? (·.cameraId = cameraId) with
  | none =>
    refine ⟨nofun, ?_⟩
    rintro ⟨entry, hentry, hid, -⟩
    exact absurd (decide_eq_true hid) (List.find?_eq_none.mp hfind entry hentry)
  | some found =>
    have hfound := List.mem_of_find?_eq_some hfind
    have hid : found.cameraId = cameraId := by simpa using List.find?_some hfind
    constructor
    · exact fun hflag ↦ ⟨found, hfound, hid, hflag⟩
    · rintro ⟨entry, hentry, hid', hflag⟩
      rw [List.inj_on_of_nodup_map hnodup hentry hfound (hid'.trans hid.symm)] at hflag
      exact hflag

section Views

variable (user : UserTokenPayload)

theorem can_forUser_iff (cameraId : CameraId) (right : CameraRight) :
    (CameraScope.forUser rows.toGrantTables user).can cameraId right = true ↔
      MayDo rows user cameraId right := by
  have hflag : ∀ flag, (CameraScope.forUser rows.toGrantTables user).can cameraId (.flag flag) =
    true ↔
      Permitted rows user cameraId flag := by
    intro flag
    unfold CameraScope.forUser Permitted
    cases user.role with
    | admin => rw [can_everyCamera rfl]
    | viewer => rw [can_everyCamera rfl]
    | operator =>
      refine (can_perCamera rfl (nodup_effectiveGrants rows user.id) cameraId flag).trans ?_
      exact has_effectiveGrants rows user.id cameraId flag
  cases right with
  | flag flag => exact hflag flag
  | view => rw [can_view, Bool.or_eq_true, hflag, hflag, MayDo]

/-- There are more camera ids than any list of entries has. -/
theorem exists_not_mem_cameraIds (entries : List EffectivePermission) :
    ∃ cameraId : CameraId, ∀ entry ∈ entries, entry.cameraId ≠ cameraId := by
  obtain ⟨cameraId, hfresh⟩ := Infinite.exists_notMem_finset (entries.map (·.cameraId)).toFinset
  refine ⟨cameraId, fun entry hentry hid ↦ hfresh ?_⟩
  rw [List.mem_toFinset]
  exact List.mem_map.mpr ⟨entry, hentry, hid⟩

/-- Whatever entry a scope has for no camera, it denies. -/
theorem mem_perCamera_of_can {scope : CameraScope} (hevery : scope.everyCamera = none)
    {cameraId : CameraId} {right : CameraRight} (hcan : scope.can cameraId right = true) :
    cameraId ∈ scope.perCamera.map (·.cameraId) := by
  unfold CameraScope.can at hcan
  rw [hevery, Option.none_or] at hcan
  cases hfind : scope.perCamera.find? (·.cameraId = cameraId) with
  | none =>
    rw [hfind] at hcan
    cases hcan
  | some found =>
    exact List.mem_map.mpr ⟨found, List.mem_of_find?_eq_some hfind, by
      simpa using List.find?_some hfind⟩

/-- A right on every camera does not depend on the camera. -/
theorem can_everyCamera_congr {scope : CameraScope} (hevery : scope.everyCamera.isSome = true)
    (first second : CameraId) (right : CameraRight) :
    scope.can first right = scope.can second right := by
  obtain ⟨rights, hrights⟩ := Option.isSome_iff_exists.mp hevery
  unfold CameraScope.can
  rw [hrights]
  cases right <;> rfl

theorem cameraIds_eq_none_iff (scope : CameraScope) (right : CameraRight) :
    scope.cameraIds right = none ↔ ∀ cameraId, scope.can cameraId right = true := by
  unfold CameraScope.cameraIds
  split_ifs with hevery hcan
  · exact ⟨fun _ cameraId ↦ (can_everyCamera_congr hevery cameraId "*" right).trans hcan,
      fun _ ↦ rfl⟩
  · exact ⟨nofun, fun hall ↦ absurd (hall "*") hcan⟩
  · refine ⟨nofun, fun hall ↦ ?_⟩
    obtain ⟨cameraId, hfresh⟩ := exists_not_mem_cameraIds scope.perCamera
    rw [Bool.not_eq_true, Option.isSome_eq_false_iff, Option.isNone_iff_eq_none] at hevery
    obtain ⟨entry, hentry, hid⟩ := List.mem_map.mp (mem_perCamera_of_can hevery (hall cameraId))
    exact absurd hid (hfresh entry hentry)

theorem mem_cameraIds_iff {scope : CameraScope} {right : CameraRight} {ids : List CameraId}
    (hids : scope.cameraIds right = some ids) (cameraId : CameraId) :
    cameraId ∈ ids ↔ scope.can cameraId right = true := by
  unfold CameraScope.cameraIds at hids
  split_ifs at hids with hevery hcan
  · obtain rfl := Option.some.inj hids
    rw [can_everyCamera_congr hevery cameraId "*"]
    exact ⟨nofun, fun hsame ↦ absurd hsame hcan⟩
  · obtain rfl := Option.some.inj hids
    rw [Bool.not_eq_true, Option.isSome_eq_false_iff, Option.isNone_iff_eq_none] at hevery
    rw [List.mem_filter]
    exact ⟨And.right, fun hcan ↦ ⟨mem_perCamera_of_can hevery hcan, hcan⟩⟩

variable {rows} {user : UserTokenPayload}

/-- The cameras an operator has an entry for are there. -/
theorem known_of_granted {userId : UserId} {cameraId : CameraId} {flag : CameraPermissionFlag}
    (hgranted : Granted rows userId cameraId flag) :
        ∃ camera ∈ rows.cameras, camera.id = cameraId := by
  rcases hgranted with ⟨grant, hgrant, -, rfl, -⟩ | ⟨camera, hcamera, hid, -⟩
  · exact rows.cameras_known grant hgrant
  · exact ⟨camera, hcamera, hid⟩

theorem MayDo.widens {wider : GrantRows} (hwidens : Widens rows wider) {cameraId : CameraId}
    {right : CameraRight} (hmay : MayDo rows user cameraId right) :
    MayDo wider user cameraId right := by
  have hflag : ∀ flag, Permitted rows user cameraId flag → Permitted wider user cameraId flag := by
    intro flag
    unfold Permitted
    cases user.role with
    | admin => exact id
    | viewer => exact id
    | operator =>
      rintro (⟨grant, hgrant, huser, hcamera, hrights⟩ |
        ⟨camera, hcamera, hid, grant, hgrant, huser, hsite, hrights⟩)
      · obtain ⟨other, hother, huser', hcamera', hwider⟩ := hwidens.cameraPermissions grant hgrant
        exact Or.inl ⟨other, hother, huser'.trans huser, hcamera'.trans hcamera,
          hwider flag hrights⟩
      · obtain ⟨other, hother, huser', hsite', hwider⟩ := hwidens.sitePermissions grant hgrant
        refine Or.inr ⟨camera, hwidens.cameras ▸ hcamera, hid, other, hother,
          huser'.trans huser, ?_, hwider flag hrights⟩
        rw [hsite, hsite']
  cases right with
  | flag flag => exact hflag flag hmay
  | view => exact hmay.imp (hflag _) (hflag _)

theorem permissions_everyCamera {scope : CameraScope} {rights : Rights}
    (hevery : scope.everyCamera = some rights) (all : List CameraId) :
    scope.permissions all = all.map fun cameraId ↦
      { cameraId, rights, viaCamera := false, viaSite := false } := by
  unfold CameraScope.permissions
  rw [hevery]

/-- A scope of every camera lists all of them with its rights. -/
theorem agrees_everyCamera {scope : CameraScope} {rights : Rights}
    (hevery : scope.everyCamera = some rights) (hlive : rights .canViewLive = true)
    (hcan : ∀ cameraId right, scope.can cameraId right = true ↔ MayDo rows user cameraId right) :
    ScopeAgrees rows user scope where
  can_iff := hcan
  cameraIds_eq_none := fun right ↦ cameraIds_eq_none_iff scope right
  mem_cameraIds := fun _ _ hids cameraId ↦ mem_cameraIds_iff hids cameraId
  mem_permissions := by
    intro all _ cameraId
    rw [permissions_everyCamera hevery]
    constructor
    · rintro ⟨permission, hpermission, rfl⟩
      obtain ⟨cameraId, hcamera, rfl⟩ := List.mem_map.mp hpermission
      exact ⟨hcamera, .canViewLive, (can_everyCamera hevery _ _).trans hlive⟩
    · rintro ⟨hcamera, -⟩
      exact ⟨_, List.mem_map_of_mem hcamera, rfl⟩
  permissions_nodup := by
    intro all hnodup
    rw [permissions_everyCamera hevery, List.map_map]
    exact (List.map_id all).symm ▸ hnodup
  rights_eq := by
    intro all permission hpermission flag
    rw [permissions_everyCamera hevery] at hpermission
    obtain ⟨cameraId, -, rfl⟩ := List.mem_map.mp hpermission
    exact (can_everyCamera hevery _ _).symm

/-- The scope of an operator lists the entries that the merge has kept. -/
theorem agrees_perCamera {scope : CameraScope} (hevery : scope.everyCamera = none)
    (hperCamera : scope.perCamera = effectiveGrants rows.toGrantTables user.id)
    (hcan : ∀ cameraId right, scope.can cameraId right = true ↔ MayDo rows user cameraId right) :
    ScopeAgrees rows user scope := by
  have hpermissions : ∀ all, scope.permissions all = scope.perCamera := by
    intro all
    unfold CameraScope.permissions
    rw [hevery]
  have hnodup : (scope.perCamera.map (·.cameraId)).Nodup := by
    rw [hperCamera]
    exact nodup_effectiveGrants rows user.id
  refine
    { can_iff := hcan
      cameraIds_eq_none := fun right ↦ cameraIds_eq_none_iff scope right
      mem_cameraIds := fun _ _ hids cameraId ↦ mem_cameraIds_iff hids cameraId
      mem_permissions := fun all hall cameraId ↦ ?_
      permissions_nodup := fun all _ ↦ hpermissions all ▸ hnodup
      rights_eq := fun all permission hpermission flag ↦ ?_ }
  · rw [hpermissions]
    constructor
    · rintro ⟨entry, hentry, rfl⟩
      obtain ⟨flag, hflag⟩ := exists_flag_of_mem_effectiveGrants rows user.id (hperCamera ▸ hentry)
      have hhas : Has scope.perCamera entry.cameraId flag := ⟨entry, hentry, rfl, hflag⟩
      have hgranted := (has_effectiveGrants rows user.id entry.cameraId flag).mp (hperCamera ▸ hhas)
      obtain ⟨camera, hcamera, hid⟩ := known_of_granted hgranted
      exact ⟨hid ▸ hall camera hcamera, flag, (can_perCamera hevery hnodup _ flag).mpr hhas⟩
    · rintro ⟨-, flag, hflag⟩
      obtain ⟨entry, hentry, hid, -⟩ := (can_perCamera hevery hnodup cameraId flag).mp hflag
      exact ⟨entry, hentry, hid⟩
  · rw [hpermissions] at hpermission
    rw [Bool.eq_iff_iff, can_perCamera hevery hnodup]
    constructor
    · exact fun hflag ↦ ⟨permission, hpermission, rfl, hflag⟩
    · rintro ⟨entry, hentry, hid, hflag⟩
      rw [← List.inj_on_of_nodup_map hnodup hentry hpermission hid]
      exact hflag

end Views

end VmsLite.Users
