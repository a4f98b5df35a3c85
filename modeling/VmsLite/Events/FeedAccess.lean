import VmsLite.Async.Uses
import VmsLite.Events.LiveFeed

/-!
# The live feed and changes of access

A socket decides on the cameras that it was given at the upgrade or by a refresh, and refreshes are
asked for by events; the session of its user is not looked at again. What is sent follows the
changes of access in every run in which each event finds every open socket current
(`followsAccess`): its session is good, and its cameras were read at one moment of the last minute,
or have all been in the user's view at some moment of it.
-/

set_option autoImplicit false

namespace VmsLite.Events.FeedModel

open Users Async Async.Program
open Recordings (CameraId)

/-! ### The claim -/

/-- The grants that have been in force since a time, with those now first. -/
def inForceFrom (grants : GrantTables) (changes : List GrantChange) (since : ℤ) :
    List GrantTables :=
  grants :: (changes.filter fun change ↦ since ≤ change.changedAt).map (·.before)

/-- Under these grants the user may see the event. -/
def Shows (grants : GrantTables) (user : UserTokenPayload) (event : EventRecord) : Prop :=
  canSee ((CameraScope.forUser grants user).cameraIds .view) event = true

/-- The session of the user was good, and no change more than `ACCESS_REFRESH_MS` before had taken
the event out of view until then. -/
structure FollowsAccess (sent : Sent) : Prop where
  session : sent.sessionIsGood = true
  rights : ∀ change ∈ sent.changes, change.changedAt + accessRefreshMs < sent.sentAt →
    ∃ grants ∈ inForceFrom sent.grants sent.changes (change.changedAt + 1),
      Shows grants sent.user sent.event

/-- Everything that was sent followed the changes of access. -/
def World.FollowsAccess (world : World) : Prop := ∀ sent ∈ world.sent, FeedModel.FollowsAccess sent

/-- Sockets are asked for and refreshed, while everything around changes; events are emitted in
worlds that meet a condition. -/
def feedRuns (condition : World → Prop) (system : System Call Reply Failure World Unit) :
    Move Call Reply Failure Outcome EnvironmentChange Unit → Prop
  | .start _ program =>
    (∃ request cameraFirst, program = upgrade request cameraFirst) ∨
      ∃ index ∈ system.world.due, ∃ socket cameraFirst, system.world.sockets[index]? = some socket ∧
        program = refresh index socket.user cameraFirst
  | .advance .. => True
  | .crash => True
  | .environment (.emitted ..) => condition system.world
  | .environment _ => True

/-- A server that has just started, over any users and grants at any time. -/
def startedServer (users : List User) (grants : GrantTables) (now : ℤ) :
    System Call Reply Failure World Unit where
  threads := []
  world := { session := { users, now }, grants }

/-- A run, as far as it has come. -/
structure FeedRun (condition : World → Prop) where
  users : List User
  grants : GrantTables
  now : ℤ
  system : System Call Reply Failure World Unit
  reached : Reaches machine.move (feedRuns condition) (startedServer users grants now) system

/-- The cameras were read in the last `ACCESS_REFRESH_MS`, and all reads saw the same grants. -/
def IsRecent (visible : Visible) (now : ℤ) : Prop :=
  (∀ reading ∈ visible.readings, now - reading.readAt ≤ accessRefreshMs) ∧
    ∀ first ∈ visible.readings, ∀ second ∈ visible.readings, first.grants = second.grants

/-- The session of a socket is good, and its cameras are recent or have not been out of the user's
view for `ACCESS_REFRESH_MS`. -/
structure IsCurrent (world : World) (socket : Socket) : Prop where
  session : world.session.isGood socket.user = true
  rights : IsRecent socket.visible world.now ∨
    ∀ cameraIds, socket.visible.cameraIds = some cameraIds → ∀ cameraId ∈ cameraIds,
      ∃ grants ∈ inForceFrom world.grants world.changes (world.now - accessRefreshMs),
        (CameraScope.forUser grants socket.user).can cameraId .view = true

/-- Every open socket is current. -/
def AllCurrent (world : World) : Prop :=
  ∀ socket ∈ world.sockets, socket.isOpen = true → IsCurrent world socket

/-! ### Scopes and what they show -/

section Shows

variable {grants : GrantTables} {user : UserTokenPayload} {event : EventRecord}

theorem canSee_none : canSee none event = true := rfl

/-- An event that some cameras show is shown by every list with those of them that it is about. -/
theorem exists_shows {since : List GrantTables} (hnonempty : ∃ grants, grants ∈ since)
    {cameraIds : List CameraId} (hsees : canSee (some cameraIds) event = true)
    (hkept : ∀ cameraId ∈ cameraIds, ∃ grants ∈ since,
      (CameraScope.forUser grants user).can cameraId .view = true) :
    ∃ grants ∈ since, Shows grants user event := by
  have hshows : ∀ cameraId grants, (CameraScope.forUser grants user).can cameraId .view = true →
      (∀ ids, cameraId ∈ ids → canSee (some ids) event = true) → Shows grants user event := by
    intro cameraId grants hcan hlisted
    unfold Shows
    cases hids : (CameraScope.forUser grants user).cameraIds .view with
    | none => exact canSee_none
    | some ids => exact hlisted ids ((mem_cameraIds_iff hids cameraId).mpr hcan)
  cases hcamera : carried event.cameraId with
  | some cameraId =>
    have hmem : cameraId ∈ cameraIds := by
      unfold canSee at hsees
      simp only [hcamera] at hsees
      exact of_decide_eq_true hsees
    obtain ⟨grants, hgrants, hcan⟩ := hkept cameraId hmem
    refine ⟨grants, hgrants, hshows cameraId grants hcan fun ids hids ↦ ?_⟩
    unfold canSee
    simp only [hcamera]
    exact decide_eq_true hids
  | none =>
    cases hsite : carried event.siteId with
    | some siteId =>
      unfold canSee at hsees
      simp only [hcamera, hsite] at hsees
      obtain ⟨listed, hlisted, hany⟩ := Option.any_eq_true _ _ |>.mp hsees
      obtain ⟨cameraId, hin, hmem⟩ := List.any_eq_true.mp hany
      obtain ⟨grants, hgrants, hcan⟩ := hkept cameraId (of_decide_eq_true hmem)
      refine ⟨grants, hgrants, hshows cameraId grants hcan fun ids hids ↦ ?_⟩
      unfold canSee
      simp only [hcamera, hsite]
      rw [hlisted]
      exact List.any_eq_true.mpr ⟨cameraId, hin, decide_eq_true hids⟩
    | none =>
      obtain ⟨grants, hgrants⟩ := hnonempty
      refine ⟨grants, hgrants, ?_⟩
      unfold Shows
      cases (CameraScope.forUser grants user).cameraIds .view with
      | none => exact canSee_none
      | some ids =>
        unfold canSee
        simp only [hcamera, hsite]

/-! What the queries select of the grants -/

def selectCameraPermissions (userId : UserId) (grants : GrantTables) : List CameraPermission :=
  grants.cameraPermissions.filter (·.userId = userId)

def selectSitePermissions (userId : UserId) (grants : GrantTables) : List SitePermission :=
  grants.sitePermissions.filter (·.userId = userId)

def selectCameras (siteIds : List SiteId) (grants : GrantTables) : List SitedCamera :=
  grants.cameras.filter (·.siteId.any (· ∈ siteIds))

/-- What a query selects of the grants is what the scope of the user depends on. -/
theorem effectiveGrants_selected (userId : UserId) :
    effectiveGrants
      { cameraPermissions := selectCameraPermissions userId grants
        sitePermissions := selectSitePermissions userId grants
        cameras := selectCameras ((selectSitePermissions userId grants).map (·.siteId)) grants }
        userId =
      effectiveGrants grants userId := by
  unfold effectiveGrants selectCameraPermissions selectSitePermissions selectCameras
  simp only [List.filter_filter, Bool.and_self, List.foldl_filter]
  refine congrArg (List.filter _) ?_
  congr 1
  funext merged camera
  split_ifs with hsite
  · rfl
  · -- No grant of the user is on the site of such a camera
    have hnone : (camera.siteId.bind fun siteId ↦
      List.find? (fun grant ↦ decide (grant.siteId = siteId))
        (grants.sitePermissions.filter (·.userId = userId)).reverse) = none := by
      rw [Option.bind_eq_none_iff]
      intro siteId hstands
      rw [List.find?_eq_none]
      intro grant hgrant hon
      refine hsite ?_
      rw [hstands]
      refine decide_eq_true (List.mem_map.mpr ⟨grant, List.mem_reverse.mp hgrant, ?_⟩)
      exact of_decide_eq_true hon
    rw [hnone]

theorem effectiveGrants_of_selected {loaded : GrantTables} {userId : UserId}
    (hcamera : loaded.cameraPermissions = selectCameraPermissions userId grants)
    (hsite : loaded.sitePermissions = selectSitePermissions userId grants)
    (hcameras : loaded.cameras = selectCameras (loaded.sitePermissions.map (·.siteId)) grants) :
    effectiveGrants loaded userId = effectiveGrants grants userId := by
  obtain ⟨cameraPermissions, sitePermissions, cameras⟩ := loaded
  dsimp only at hcamera hsite hcameras
  subst hcamera hsite hcameras
  exact effectiveGrants_selected userId

end Shows

/-! ### What every step keeps -/

/-- The cameras of a socket are those of the grants that all reads saw. -/
structure LoadedFor (user : UserTokenPayload) (visible : Visible) : Prop where
  unrestricted : visible.cameraIds = none →
    ∀ grants, (CameraScope.forUser grants user).cameraIds .view = none
  unread : visible.readings = [] → ∀ cameraIds, visible.cameraIds = some cameraIds → cameraIds = []
  agree : ∀ grants, (∀ reading ∈ visible.readings, reading.grants = grants) →
    visible.readings ≠ [] → visible.cameraIds = (CameraScope.forUser grants user).cameraIds .view

/-- The grants of a reading were in force when it was made. -/
structure WasRead (world : World) (reading : Reading) : Prop where
  readAt_le : reading.readAt ≤ world.now
  inForce : reading.grants = world.grants ∨
    ∃ change ∈ world.changes, change.before = reading.grants ∧ reading.readAt ≤ change.changedAt

/-- What a socket shows was loaded for its user. -/
structure Loaded (world : World) (user : UserTokenPayload) (visible : Visible) : Prop where
  loadedFor : LoadedFor user visible
  wasRead : ∀ reading ∈ visible.readings, WasRead world reading

/-- Every socket shows what was loaded for it, and everything that was sent followed access. -/
structure Kept (world : World) : Prop where
  sockets : ∀ socket ∈ world.sockets, Loaded world socket.user socket.visible
  sent : world.FollowsAccess

/-- What any number of steps do: sockets keep their places and users, readings stay readings. -/
structure Follows (before after : World) : Prop where
  users : ∀ {index : ℕ} {socket : Socket}, before.sockets[index]? = some socket →
    ∃ later, after.sockets[index]? = some later ∧ later.user = socket.user
  wasRead : ∀ reading, WasRead before reading → WasRead after reading
  kept : Kept before → Kept after

variable {before after world : World}

theorem Follows.refl (world : World) : Follows world world :=
  ⟨fun hsocket ↦ ⟨_, hsocket, rfl⟩, fun _ ↦ id, id⟩

theorem Follows.trans {third : World} (hfirst : Follows before after)
    (hsecond : Follows after third) : Follows before third where
  users := by
    intro index socket hsocket
    obtain ⟨later, hlater, huser⟩ := hfirst.users hsocket
    obtain ⟨last, hlast, hsame⟩ := hsecond.users hlater
    exact ⟨last, hlast, hsame.trans huser⟩
  wasRead := fun reading hread ↦ hsecond.wasRead reading (hfirst.wasRead reading hread)
  kept := hsecond.kept ∘ hfirst.kept

theorem Loaded.follows {user : UserTokenPayload} {visible : Visible}
    (hloaded : Loaded before user visible) (hfollows : Follows before after) :
    Loaded after user visible :=
  ⟨hloaded.loadedFor, fun reading hreading ↦
    hfollows.wasRead reading (hloaded.wasRead reading hreading)⟩

/-- Grants that are in force now, and at later times, were in force at the same readings. -/
theorem WasRead.of_same {reading : Reading} (hread : WasRead before reading)
    (hnow : before.now ≤ after.now) (hgrants : after.grants = before.grants)
    (hchanges : after.changes = before.changes) : WasRead after reading where
  readAt_le := hread.readAt_le.trans hnow
  inForce := by
    rw [hgrants, hchanges]
    exact hread.inForce

/-- Steps that change no grants, send what follows access, and change sockets as they may. -/
theorem Follows.of_sockets (hnow : before.now ≤ after.now) (hgrants : after.grants = before.grants)
    (hchanges : after.changes = before.changes)
    (hsent : ∀ sent ∈ after.sent, sent ∈ before.sent ∨ (Kept before → FollowsAccess sent))
    (husers : ∀ {index : ℕ} {socket : Socket}, before.sockets[index]? = some socket →
      ∃ later, after.sockets[index]? = some later ∧ later.user = socket.user)
    (hloaded : ∀ socket ∈ after.sockets, Loaded before socket.user socket.visible ∨
      ∃ old ∈ before.sockets, old.user = socket.user ∧ old.visible = socket.visible) :
    Follows before after where
  users := husers
  wasRead := fun _ hread ↦ hread.of_same hnow hgrants hchanges
  kept := by
    intro hkept
    constructor
    · intro socket hsocket
      have hbefore : Loaded before socket.user socket.visible := by
        rcases hloaded socket hsocket with hnew | ⟨old, hold, huser, hvisible⟩
        · exact hnew
        · exact huser ▸ hvisible ▸ hkept.sockets old hold
      exact ⟨hbefore.loadedFor, fun reading hreading ↦
        (hbefore.wasRead reading hreading).of_same hnow hgrants hchanges⟩
    · intro sent hin
      rcases hsent sent hin with hold | hnew
      · exact hkept.sent sent hold
      · exact hnew hkept

/-- Steps that leave the sockets alone. -/
theorem Follows.of_same (hnow : before.now ≤ after.now) (hgrants : after.grants = before.grants)
    (hchanges : after.changes = before.changes) (hsent : after.sent = before.sent)
    (hsockets : after.sockets = before.sockets) : Follows before after :=
  Follows.of_sockets hnow hgrants hchanges (fun _ hin ↦ Or.inl (hsent ▸ hin))
    (fun hsocket ↦ ⟨_, hsockets ▸ hsocket, rfl⟩)
    fun socket hsocket ↦ Or.inr ⟨socket, hsockets ▸ hsocket, rfl, rfl⟩

/-- A socket in a list in which one was changed. -/
theorem getElem_modify {sockets : List Socket} {index place : ℕ} {change : Socket → Socket}
    {later : Socket} (hlater : (sockets.modify index change)[place]? = some later) :
    ∃ socket, sockets[place]? = some socket ∧
      later = if index = place then change socket else socket := by
  rw [List.getElem?_modify] at hlater
  obtain ⟨socket, hsocket, hsame⟩ := Option.map_eq_some_iff.mp hlater
  exact ⟨socket, hsocket, hsame.symm⟩

/-- A change of one socket keeps the users of all. -/
theorem user_modify {sockets : List Socket} (index : ℕ) {change : Socket → Socket}
    (huser : ∀ socket, (change socket).user = socket.user) {place : ℕ} {socket : Socket}
    (hsocket : sockets[place]? = some socket) :
    ∃ later, (sockets.modify index change)[place]? = some later ∧ later.user = socket.user := by
  rw [List.getElem?_modify, hsocket]
  refine ⟨_, rfl, ?_⟩
  dsimp only
  split_ifs
  · exact huser socket
  · rfl

/-- A socket changes, but neither its user nor what it shows. -/
theorem Follows.modify (index : ℕ) {change : Socket → Socket}
    (huser : ∀ socket, (change socket).user = socket.user)
    (hvisible : ∀ socket, (change socket).visible = socket.visible) :
    Follows world { world with sockets := world.sockets.modify index change } := by
  refine Follows.of_sockets (le_refl _) rfl rfl (fun _ ↦ Or.inl) (user_modify index huser)
    fun later hlater ↦ ?_
  obtain ⟨place, hplace⟩ := List.mem_iff_getElem?.mp hlater
  obtain ⟨socket, hsocket, rfl⟩ := getElem_modify hplace
  refine Or.inr ⟨socket, List.mem_of_getElem? hsocket, ?_⟩
  split_ifs
  · exact ⟨(huser socket).symm, (hvisible socket).symm⟩
  · exact ⟨rfl, rfl⟩

/-- All sockets change, but neither their users nor what they show. -/
theorem Follows.map {change : Socket → Socket} (hnow : before.now ≤ after.now)
    (hgrants : after.grants = before.grants) (hchanges : after.changes = before.changes)
    (hsent : ∀ sent ∈ after.sent, sent ∈ before.sent ∨ (Kept before → FollowsAccess sent))
    (hsockets : after.sockets = before.sockets.map change)
    (huser : ∀ socket, (change socket).user = socket.user)
    (hvisible : ∀ socket, (change socket).visible = socket.visible) : Follows before after := by
  refine Follows.of_sockets hnow hgrants hchanges hsent (fun {index socket} hsocket ↦ ?_)
    fun later hlater ↦ ?_
  · refine ⟨change socket, ?_, huser socket⟩
    rw [hsockets, List.getElem?_map, hsocket]
    rfl
  · rw [hsockets] at hlater
    obtain ⟨socket, hsocket, rfl⟩ := List.mem_map.mp hlater
    exact Or.inr ⟨socket, hsocket, (huser socket).symm, (hvisible socket).symm⟩

/-- A new socket shows what was loaded for its user. -/
theorem Follows.handleUpgrade {user : UserTokenPayload} {visible : Visible}
    (hloaded : Loaded world user visible) :
    Follows world (answer (.handleUpgrade user visible) .ok world).2 := by
  refine Follows.of_sockets (le_refl _) rfl rfl (fun _ ↦ Or.inl) (fun {index socket} hsocket ↦ ?_)
    fun later hlater ↦ ?_
  · refine ⟨socket, ?_, rfl⟩
    obtain ⟨hindex, -⟩ := List.getElem?_eq_some_iff.mp hsocket
    exact (List.getElem?_append_left hindex).trans hsocket
  · rcases List.mem_append.mp hlater with hold | hnew
    · exact Or.inr ⟨later, hold, rfl, rfl⟩
    · obtain rfl := List.mem_singleton.mp hnew
      exact Or.inl hloaded

/-- A socket is given what was loaded for its user. -/
theorem Follows.setVisible {index : ℕ} {user : UserTokenPayload} {visible : Visible}
    (hloaded : Loaded world user visible)
    (huser : ∃ socket, world.sockets[index]? = some socket ∧ socket.user = user) :
    Follows world (answer (.setVisible index visible) .ok world).2 := by
  have hkeep : ∀ socket : Socket, { socket with visible }.user = socket.user := fun _ ↦ rfl
  refine Follows.of_sockets (le_refl _) rfl rfl (fun _ ↦ Or.inl) (user_modify index hkeep)
    fun later hlater ↦ ?_
  obtain ⟨place, hplace⟩ := List.mem_iff_getElem?.mp hlater
  obtain ⟨socket, hsocket, rfl⟩ := getElem_modify hplace
  split_ifs with hsame
  · obtain ⟨other, hother, rfl⟩ := huser
    obtain rfl := hsame
    obtain rfl := Option.some.inj (hsocket.symm.trans hother)
    exact Or.inl hloaded
  · exact Or.inr ⟨socket, List.mem_of_getElem? hsocket, rfl, rfl⟩

/-- The grants change. -/
theorem Follows.grantsWritten (grants : GrantTables) :
    Follows world (react (.grantsWritten grants) world) := by
  have hread : ∀ reading, WasRead world reading →
      WasRead (react (.grantsWritten grants) world) reading := by
    intro reading hread
    refine ⟨hread.readAt_le, Or.inr ?_⟩
    rcases hread.inForce with hnow | ⟨change, hchange, hbefore, hlater⟩
    · exact ⟨_, List.mem_append_right _ (List.mem_singleton.mpr rfl), hnow.symm, hread.readAt_le⟩
    · exact ⟨change, List.mem_append_left _ hchange, hbefore, hlater⟩
  refine ⟨fun hsocket ↦ ⟨_, hsocket, rfl⟩, hread, fun hkept ↦ ⟨fun socket hsocket ↦ ?_, hkept.sent⟩⟩
  have hloaded := hkept.sockets socket hsocket
  exact ⟨hloaded.loadedFor, fun reading hreading ↦ hread reading (hloaded.wasRead reading hreading)⟩

/-! ### Broadcasts -/

/-- What was in force at a reading has been in force since. -/
theorem WasRead.mem_inForceFrom {reading : Reading} (hread : WasRead world reading) {since : ℤ}
    (hsince : since ≤ reading.readAt) :
    reading.grants ∈ inForceFrom world.grants world.changes since := by
  rcases hread.inForce with hnow | ⟨change, hchange, hbefore, hlater⟩
  · exact hnow ▸ List.mem_cons_self
  · refine List.mem_cons_of_mem _ (List.mem_map.mpr ⟨change, ?_, hbefore⟩)
    exact List.mem_filter.mpr ⟨hchange, decide_eq_true (hsince.trans hlater)⟩

/-- What has been in force since some time has been in force since an earlier one. -/
theorem inForceFrom_mono {grants : GrantTables} {changes : List GrantChange} {since earlier : ℤ}
    (hle : earlier ≤ since) {past : GrantTables} (hpast : past ∈ inForceFrom grants changes since) :
    past ∈ inForceFrom grants changes earlier := by
  rcases List.mem_cons.mp hpast with rfl | hreplaced
  · exact List.mem_cons_self
  · obtain ⟨change, hchange, rfl⟩ := List.mem_map.mp hreplaced
    obtain ⟨hin, hsince⟩ := List.mem_filter.mp hchange
    refine List.mem_cons_of_mem _ (List.mem_map.mpr ⟨change, List.mem_filter.mpr ⟨hin, ?_⟩, rfl⟩)
    exact decide_eq_true (hle.trans (of_decide_eq_true hsince))

/-- What a current socket sees is shown by some grants of the last minute. -/
theorem exists_shows_of_sees {socket : Socket} {event : EventRecord}
    (hloaded : Loaded world socket.user socket.visible) (hcurrent : IsCurrent world socket)
    (hsees : socket.sees event = true) :
    ∃ grants ∈ inForceFrom world.grants world.changes (world.now - accessRefreshMs),
      Shows grants socket.user event := by
  have hnow : ∃ grants, grants ∈
      inForceFrom world.grants world.changes (world.now - accessRefreshMs) :=
    ⟨world.grants, List.mem_cons_self⟩
  unfold Socket.sees at hsees
  cases hids : socket.visible.cameraIds with
  | none =>
    refine ⟨world.grants, List.mem_cons_self, ?_⟩
    unfold Shows
    rw [hloaded.loadedFor.unrestricted hids]
    exact canSee_none
  | some cameraIds =>
    rw [hids] at hsees
    rcases hcurrent.rights with ⟨hrecent, hsame⟩ | hkept
    · cases hreadings : socket.visible.readings with
      | nil =>
        obtain rfl := hloaded.loadedFor.unread hreadings cameraIds hids
        exact exists_shows hnow hsees fun _ hcamera ↦ absurd hcamera List.not_mem_nil
      | cons reading rest =>
        have hin : reading ∈ socket.visible.readings := hreadings ▸ List.mem_cons_self
        have hagree := hloaded.loadedFor.agree reading.grants
          (fun other hother ↦ hsame other hother reading hin) (List.ne_nil_of_mem hin)
        refine ⟨reading.grants, (hloaded.wasRead reading hin).mem_inForceFrom ?_, ?_⟩
        · have hage := hrecent reading hin
          omega
        · unfold Shows
          rw [← hagree, hids]
          exact hsees
    · exact exists_shows hnow hsees (hkept cameraIds hids)

/-- What is sent on a current socket follows the changes of access. -/
theorem followsAccess_sentTo {socket : Socket} {event : EventRecord}
    (hloaded : Loaded world socket.user socket.visible) (hcurrent : IsCurrent world socket)
    (hsees : socket.sees event = true) : FollowsAccess (world.sentTo event socket) where
  session := hcurrent.session
  rights := by
    intro change _ hlate
    obtain ⟨grants, hgrants, hshows⟩ := exists_shows_of_sees hloaded hcurrent hsees
    refine ⟨grants, inForceFrom_mono ?_ hgrants, hshows⟩
    have hsent : change.changedAt + accessRefreshMs < world.now := hlate
    omega

theorem Follows.broadcast (hcurrent : AllCurrent world) (event : EventRecord) (throwing : List ℕ) :
    Follows world (world.broadcast event throwing) := by
  unfold World.broadcast
  split_ifs
  · exact Follows.refl world
  refine Follows.map (le_refl _) rfl rfl (fun sent hsent ↦ ?_) rfl (fun _ ↦ rfl) fun _ ↦ rfl
  rcases List.mem_append.mp hsent with hold | hnew
  · exact Or.inl hold
  · obtain ⟨⟨socket, index⟩, hentry, rfl⟩ := List.mem_map.mp hnew
    obtain ⟨hin, hsends⟩ := List.mem_filter.mp hentry
    have hsocket : socket ∈ world.sockets := List.fst_mem_of_mem_zipIdx hin
    have hreceives : socket.receives event = true := (Bool.and_eq_true_iff.mp hsends).1
    obtain ⟨hseen, -⟩ := Bool.and_eq_true_iff.mp hreceives
    obtain ⟨hopen, hsees⟩ := Bool.and_eq_true_iff.mp hseen
    exact Or.inr fun hkept ↦
      followsAccess_sentTo (hkept.sockets socket hsocket) (hcurrent socket hsocket hopen) hsees

/-! ### Programs -/

def feedDiscipline : Discipline machine where
  allowed := fun _ _ _ ↦ True
  rely := Follows
  guarantee := Follows
  rely_refl := Follows.refl
  rely_trans := Follows.trans
  rely_of_guarantee := id
  allowed_calm := fun _ ↦ trivial
  guarantee_synchronous := fun hsynchronous ↦ nomatch hsynchronous

/-- A program that is safe among the steps of others, with what it returns. -/
def SafeFeed {α : Type} (program : Async α) (post : α → World → Prop) (world : World) : Prop :=
  program.Safe feedDiscipline post (fun _ _ ↦ True) world

section Programs

variable {user : UserTokenPayload}

theorem SafeFeed.bind {α β : Type} {program : Async α} {rest : α → Async β}
    {middle : α → World → Prop} {post : β → World → Prop} (hfirst : SafeFeed program middle world)
    (hrest : ∀ value world, middle value world → SafeFeed (rest value) post world) :
    SafeFeed (program.bind rest) post world :=
  Safe.bind hfirst hrest

/-- What the others keep stays true. -/
theorem SafeFeed.frame {α : Type} {program : Async α} {post : α → World → Prop}
    {fact : World → Prop}
    (hstable : ∀ first second, Follows first second → fact first → fact second)
    (hsafe : SafeFeed program post world) (hfact : fact world) :
    SafeFeed program (fun value later ↦ post value later ∧ fact later) world :=
  (Safe.frame fact hstable hsafe hfact).mono (fun _ _ ↦ id) fun _ _ _ ↦ trivial

theorem SafeFeed.request {request : Call} {post : Reply request → World → Prop}
    (hstable : ∀ reply first second, Follows first second → post reply first → post reply second)
    (hstep : ∀ later, Follows world later → ∀ outcome,
      Follows later (answer request outcome later).2 ∧
        post (answer request outcome later).1 (answer request outcome later).2) :
    SafeFeed (call request) post world :=
  Safe.request hstable fun later hlater outcome _ ↦ hstep later hlater outcome

/-- Programs that can throw, whatever they throw, and handlers. -/
theorem SafeFeed.catching {α : Type} {program : Async α} {handler : Failure → Async α}
    {post : α → World → Prop} (hbody : SafeFeed program post world)
    (hhandler : ∀ error world, SafeFeed (handler error) post world) :
    SafeFeed (program.catching handler) post world :=
  Safe.catching _ hbody fun error reached _ ↦ hhandler error reached

/-- Calls of sessions leave grants and sockets alone. -/
theorem Follows.session (call : Users.Call) (outcome : Outcome) :
    Follows world (answer (.session call) outcome world).2 :=
  Follows.of_same (le_of_eq (now_answer call outcome.toUsers world.session).symm) rfl rfl rfl rfl

/-- A call that nothing depends on, with what is known before it. -/
theorem SafeFeed.resolved {fact : World → Prop}
    (hstable : ∀ first second, Follows first second → fact first → fact second)
    (hfact : fact world) :
    SafeFeed (call (.session .resolved)) (fun _ later ↦ fact later) world :=
  SafeFeed.request (fun _ ↦ hstable) fun _ hlater outcome ↦
    ⟨Follows.session _ outcome, hstable _ _ (hlater.trans (Follows.session _ outcome)) hfact⟩

theorem SafeFeed.orThrow {α : Type} {reply : Except Failure α} {fact : World → Prop}
    (hstable : ∀ first second, Follows first second → fact first → fact second)
    (hfact : fact world) :
    SafeFeed (Program.orThrow reply) (fun value later ↦ reply = .ok value ∧ fact later) world :=
  Safe.orThrow (fun _ hvalue _ hlater ↦ ⟨hvalue, hstable _ _ hlater hfact⟩) fun _ _ _ _ ↦ trivial

/-- The answer of a query is what it selects of the grants at a reading. -/
def Selected {α : Type} (select : GrantTables → α) (reply : Except Failure (Read α))
    (world : World) :
    Prop :=
  ∀ found, reply = .ok found → found.value = select found.reading.grants ∧
    WasRead world found.reading

theorem Selected.follows {α : Type} {select : GrantTables → α} {reply : Except Failure (Read α)}
    (hselected : Selected select reply before) (hfollows : Follows before after) :
    Selected select reply after := by
  intro found hfound
  obtain ⟨hvalue, hread⟩ := hselected found hfound
  exact ⟨hvalue, hfollows.wasRead _ hread⟩

theorem selected_answerFind {α : Type} (select : GrantTables → α) (outcome : Outcome) :
    Selected select (world.answerFind outcome (select world.grants)) world := by
  intro found hfound
  unfold World.answerFind at hfound
  rcases orFail_cases outcome.toUsers
    ({ value := select world.grants, reading := { grants := world.grants, readAt := world.now } } :
      Read α) with ⟨error, herror⟩ | hok
  · cases herror.symm.trans hfound
  · obtain rfl := Except.ok.inj (hok.symm.trans hfound)
    exact ⟨rfl, le_refl _, Or.inl rfl⟩

/-- Both answers, in either order. -/
theorem findGrants_selected (userId : UserId) (cameraFirst : Bool) :
    SafeFeed (findGrants userId cameraFirst)
      (fun replies later ↦ Selected (selectCameraPermissions userId) replies.1 later ∧
        Selected (selectSitePermissions userId) replies.2 later) world := by
  have hcamera : ∀ {start : World}, SafeFeed (call (.findCameraPermissions userId))
      (fun reply later ↦ Selected (selectCameraPermissions userId) reply later) start := by
    intro start
    exact SafeFeed.request (fun _ _ _ hfollows hselected ↦ hselected.follows hfollows)
      fun later _ outcome ↦ ⟨Follows.refl later, selected_answerFind _ outcome⟩
  have hsite : ∀ {start : World}, SafeFeed (call (.findSitePermissions userId))
      (fun reply later ↦ Selected (selectSitePermissions userId) reply later) start := by
    intro start
    exact SafeFeed.request (fun _ _ _ hfollows hselected ↦ hselected.follows hfollows)
      fun later _ outcome ↦ ⟨Follows.refl later, selected_answerFind _ outcome⟩
  unfold findGrants
  split_ifs
  · refine SafeFeed.bind hcamera fun cameraReply first hfirst ↦ ?_
    refine SafeFeed.bind (SafeFeed.frame (fun _ _ hfollows hselected ↦
      Selected.follows hselected hfollows) hsite hfirst) fun siteReply second hsecond ↦ ?_
    exact fun later hlater ↦ ⟨hsecond.2.follows hlater, hsecond.1.follows hlater⟩
  · refine SafeFeed.bind hsite fun siteReply first hfirst ↦ ?_
    refine SafeFeed.bind (SafeFeed.frame (fun _ _ hfollows hselected ↦
      Selected.follows hselected hfollows) hcamera hfirst) fun cameraReply second hsecond ↦ ?_
    exact fun later hlater ↦ ⟨hsecond.1.follows hlater, hsecond.2.follows hlater⟩

/-- The grants that the scope depends on, as far as all reads saw the same ones. -/
def GrantsLoaded (userId : UserId) (loaded : GrantTables × List Reading) (world : World) : Prop :=
  loaded.2 ≠ [] ∧ (∀ reading ∈ loaded.2, WasRead world reading) ∧
    ∀ grants, (∀ reading ∈ loaded.2, reading.grants = grants) →
      effectiveGrants loaded.1 userId = effectiveGrants grants userId

theorem readGrants_loaded (userId : UserId) (cameraFirst : Bool) :
    SafeFeed (readGrants userId cameraFirst) (GrantsLoaded userId) world := by
  unfold readGrants
  rw [bind_eq]
  refine SafeFeed.bind (findGrants_selected userId cameraFirst) fun replies found hfound ↦ ?_
  obtain ⟨cameraReply, siteReply⟩ := replies
  have hstable : ∀ first second, Follows first second →
      Selected (selectCameraPermissions userId) cameraReply first ∧
          Selected (selectSitePermissions userId) siteReply first →
        Selected (selectCameraPermissions userId) cameraReply second ∧
          Selected (selectSitePermissions userId) siteReply second :=
    fun _ _ hfollows hselected ↦ ⟨hselected.1.follows hfollows, hselected.2.follows hfollows⟩
  refine SafeFeed.bind (SafeFeed.resolved hstable hfound) fun _ answered hanswered ↦ ?_
  refine SafeFeed.bind (SafeFeed.orThrow hstable hanswered) fun cameraGrants first hfirst ↦ ?_
  refine SafeFeed.bind (SafeFeed.orThrow hstable hfirst.2) fun siteGrants thrown hthrown ↦ ?_
  obtain ⟨hsiteReply, hcameras, hsites⟩ := hthrown
  obtain ⟨hcameraValue, hcameraRead⟩ := hcameras cameraGrants hfirst.1
  obtain ⟨hsiteValue, hsiteRead⟩ := hsites siteGrants hsiteReply
  split_ifs with hempty
  · intro later hlater
    refine ⟨List.cons_ne_nil _ _, fun reading hreading ↦ ?_, fun grants hsame ↦ ?_⟩
    · rcases List.mem_pair.mp hreading with rfl | rfl
      · exact hlater.wasRead _ hcameraRead
      · exact hlater.wasRead _ hsiteRead
    · have hcameraGrants := hsame cameraGrants.reading List.mem_cons_self
      have hsiteGrants := hsame siteGrants.reading (List.mem_cons_of_mem _ List.mem_cons_self)
      have hnone : selectSitePermissions userId grants = [] := by
        rw [← hsiteGrants, ← hsiteValue]
        exact List.isEmpty_iff.mp hempty
      refine effectiveGrants_of_selected (hcameraGrants ▸ hcameraValue) hnone.symm ?_
      simp [selectCameras]
  · have hread : ∀ first second, Follows first second →
        WasRead first cameraGrants.reading ∧ WasRead first siteGrants.reading →
          WasRead second cameraGrants.reading ∧ WasRead second siteGrants.reading :=
      fun _ _ hfollows hboth ↦ ⟨hfollows.wasRead _ hboth.1, hfollows.wasRead _ hboth.2⟩
    have hfind : SafeFeed (call (.findCameras (siteGrants.value.map (·.siteId))))
        (fun reply later ↦ Selected (selectCameras (siteGrants.value.map (·.siteId))) reply later)
        thrown :=
      SafeFeed.request (fun _ _ _ hfollows hselected ↦ hselected.follows hfollows)
        fun later _ outcome ↦ ⟨Follows.refl later, selected_answerFind _ outcome⟩
    refine SafeFeed.bind (SafeFeed.frame hread hfind ⟨hcameraRead, hsiteRead⟩)
      fun reply asked hasked ↦ ?_
    have hstable : ∀ first second, Follows first second →
        Selected (selectCameras (siteGrants.value.map (·.siteId))) reply first ∧
            WasRead first cameraGrants.reading ∧ WasRead first siteGrants.reading →
          Selected (selectCameras (siteGrants.value.map (·.siteId))) reply second ∧
            WasRead second cameraGrants.reading ∧ WasRead second siteGrants.reading :=
      fun first second hfollows hknown ↦
        ⟨hknown.1.follows hfollows, hread first second hfollows hknown.2⟩
    refine SafeFeed.bind (SafeFeed.resolved hstable hasked) fun _ answered hanswered ↦ ?_
    refine SafeFeed.bind (SafeFeed.orThrow hstable hanswered) fun cameras last hlast later hlater ↦
      ?_
    obtain ⟨hreply, hselected, hcameraRead, hsiteRead⟩ := hlast
    obtain ⟨hcamerasValue, hcamerasRead⟩ := hselected cameras hreply
    refine ⟨List.cons_ne_nil _ _, fun reading hreading ↦ ?_, fun grants hsame ↦ ?_⟩
    · simp only [List.mem_cons, List.not_mem_nil, or_false] at hreading
      rcases hreading with rfl | rfl | rfl
      · exact hlater.wasRead _ hcameraRead
      · exact hlater.wasRead _ hsiteRead
      · exact hlater.wasRead _ hcamerasRead
    · have hcameraGrants := hsame cameraGrants.reading (by simp)
      have hsiteGrants := hsame siteGrants.reading (by simp)
      have hcamerasGrants := hsame cameras.reading (by simp)
      exact effectiveGrants_of_selected (hcameraGrants ▸ hcameraValue) (hsiteGrants ▸ hsiteValue)
        (hcamerasGrants ▸ hcamerasValue)

/-- A role that every camera is shown to. -/
theorem loadedFor_everyCamera (hrole : user.role ≠ .operator) (grants : GrantTables) :
    LoadedFor user
      { cameraIds := (CameraScope.forUser grants user).cameraIds .view, readings := [] } := by
  have hall : ∀ grants, (CameraScope.forUser grants user).cameraIds .view = none := by
    intro grants
    unfold CameraScope.forUser
    cases hcase : user.role with
    | admin => rfl
    | viewer => rfl
    | operator => exact absurd hcase hrole
  exact ⟨fun _ ↦ hall, fun _ ids hids ↦ (nomatch (hall grants).symm.trans hids),
    fun _ _ hread ↦ absurd rfl hread⟩

theorem loadedFor_operator (hrole : user.role = .operator) {loaded : GrantTables × List Reading}
    (hread : loaded.2 ≠ []) (hagree : ∀ grants, (∀ reading ∈ loaded.2, reading.grants = grants) →
      effectiveGrants loaded.1 user.id = effectiveGrants grants user.id) :
    LoadedFor user
      { cameraIds := (CameraScope.forUser loaded.1
            user).cameraIds .view, readings := loaded.2 } := by
  have hscope : ∀ grants, CameraScope.forUser grants user =
      { everyCamera := none, perCamera := effectiveGrants grants user.id } := by
    intro grants
    unfold CameraScope.forUser
    rw [hrole]
  refine ⟨fun hnone ↦ ?_, fun hnil ↦ absurd hnil hread, fun grants hsame _ ↦ ?_⟩
  · rw [hscope] at hnone
    cases hnone
  · rw [hscope, hscope, hagree grants hsame]

/-- What the resolver returns was loaded for the user. -/
theorem accessResolver_loaded (user : UserTokenPayload) (cameraFirst : Bool) :
    SafeFeed (accessResolver user cameraFirst) (fun visible later ↦ Loaded later user visible)
      world := by
  unfold accessResolver
  refine SafeFeed.bind (@SafeFeed.resolved world (fun _ ↦ True) (fun _ _ _ ↦ id) trivial)
    fun _ started _ ↦ ?_
  have hgrants : SafeFeed (grantsFor user cameraFirst) (fun loaded later ↦ Loaded later user
      { cameraIds := (CameraScope.forUser loaded.1 user).cameraIds .view, readings := loaded.2 })
      started := by
    unfold grantsFor
    cases hrole : user.role with
    | admin => exact fun _ _ ↦ ⟨loadedFor_everyCamera (by simp [hrole]) _,
        fun _ hreading ↦ absurd hreading List.not_mem_nil⟩
    | viewer => exact fun _ _ ↦ ⟨loadedFor_everyCamera (by simp [hrole]) _,
        fun _ hreading ↦ absurd hreading List.not_mem_nil⟩
    | operator =>
      exact (readGrants_loaded user.id cameraFirst).mono (fun loaded _ hloaded ↦
        ⟨loadedFor_operator hrole hloaded.1 hloaded.2.2, hloaded.2.1⟩) fun _ _ ↦ id
  exact SafeFeed.bind hgrants fun loaded reached hloaded later hlater ↦ hloaded.follows hlater

/-- A program of the sessions leaves grants and sockets alone. -/
theorem onSession_safe {α : Type} (program : Users.Async α) :
    SafeFeed (onSession program) (fun _ _ ↦ True) world := by
  induction program generalizing world with
  | done value => exact fun _ _ ↦ trivial
  | failed error => exact fun _ _ ↦ trivial
  | await call next ih => exact fun _ _ outcome _ ↦ ⟨Follows.session call outcome, ih _⟩

theorem verifyToken_safe (token : String) :
    SafeFeed (verifyToken token) (fun _ _ ↦ True) world := by
  unfold verifyToken
  have hverify : SafeFeed (call (.jwtVerify token)) (fun _ _ ↦ True) world :=
    SafeFeed.request (fun _ _ _ _ ↦ id) fun later _ _ ↦ ⟨Follows.refl later, trivial⟩
  refine SafeFeed.bind hverify fun reply verified _ ↦ ?_
  refine SafeFeed.bind (@SafeFeed.orThrow verified _ reply (fun _ ↦ True) (fun _ _ _ ↦ id) trivial)
    fun payload thrown _ ↦ ?_
  refine SafeFeed.bind (onSession_safe (isSessionValid payload)) fun decision decided _ ↦ ?_
  split_ifs <;> exact fun _ _ ↦ trivial

theorem upgrade_safe (request : UpgradeRequest) (cameraFirst : Bool) :
    SafeFeed (upgrade request cameraFirst) (fun _ _ ↦ True) world := by
  unfold upgrade
  split_ifs
  · exact fun _ _ ↦ trivial
  split
  · exact fun _ _ ↦ trivial
  · next token _ =>
    have hverify : SafeFeed (((verifyToken token).bind fun user ↦ done (some user)).catching
        fun _ ↦ done none) (fun _ _ ↦ True) world :=
      SafeFeed.catching (SafeFeed.bind (verifyToken_safe token) fun _ _ _ _ _ ↦ trivial)
        fun _ _ _ _ ↦ trivial
    refine SafeFeed.bind hverify fun verified reached _ ↦ ?_
    cases verified with
    | none => exact fun _ _ ↦ trivial
    | some user =>
      have hvisible : SafeFeed ((accessResolver user cameraFirst).catching fun _ ↦
          done { cameraIds := some [], readings := [] })
          (fun visible later ↦ Loaded later user visible) reached := by
        refine SafeFeed.catching (accessResolver_loaded user cameraFirst) fun _ _ _ _ ↦ ?_
        exact ⟨⟨nofun, fun _ _ hids ↦ (Option.some.inj hids).symm, fun _ _ hread ↦
          absurd rfl hread⟩, fun _ hreading ↦ absurd hreading List.not_mem_nil⟩
      refine SafeFeed.bind hvisible fun visible loaded hloaded ↦ ?_
      exact SafeFeed.request (fun _ _ _ _ ↦ id) fun later hlater _ ↦
        ⟨Follows.handleUpgrade (hloaded.follows hlater), trivial⟩

/-- A socket is at its place. -/
def HasUser (index : ℕ) (user : UserTokenPayload) (world : World) : Prop :=
  ∃ socket, world.sockets[index]? = some socket ∧ socket.user = user

theorem HasUser.follows {index : ℕ} (huser : HasUser index user before)
    (hfollows : Follows before after) : HasUser index user after := by
  obtain ⟨socket, hsocket, rfl⟩ := huser
  exact hfollows.users hsocket

theorem refresh_safe {index : ℕ} (cameraFirst : Bool) (huser : HasUser index user world) :
    SafeFeed (refresh index user cameraFirst) (fun _ _ ↦ True) world := by
  unfold refresh
  have htake : SafeFeed (call (.takeDue index)) (fun _ later ↦ HasUser index user later) world := by
    refine SafeFeed.request (fun _ _ _ hfollows huser ↦ huser.follows hfollows)
      fun later hlater outcome ↦ ?_
    have htaken : Follows later (answer (.takeDue index) outcome later).2 :=
      Follows.of_same (le_refl _) rfl rfl rfl rfl
    exact ⟨htaken, huser.follows (hlater.trans htaken)⟩
  refine SafeFeed.bind htake fun _ taken htaken ↦ ?_
  refine SafeFeed.catching ?_ fun _ _ _ _ ↦ trivial
  refine SafeFeed.bind (SafeFeed.frame (fun _ _ hfollows huser ↦ HasUser.follows huser hfollows)
    (accessResolver_loaded user cameraFirst) htaken) fun visible loaded hloaded ↦ ?_
  exact SafeFeed.request (fun _ _ _ _ ↦ id) fun later hlater _ ↦
    ⟨Follows.setVisible (hloaded.1.follows hlater) (hloaded.2.follows hlater), trivial⟩

end Programs

/-! ### Runs -/

theorem startedServer_kept (users : List User) (grants : GrantTables) (now : ℤ) :
    Kept (startedServer users grants now).world where
  sockets := fun _ hsocket ↦ absurd hsocket List.not_mem_nil
  sent := fun _ hsent ↦ absurd hsent List.not_mem_nil

theorem feedRuns_respects (users : List User) (grants : GrantTables) (now : ℤ) :
    Respects feedDiscipline (feedRuns AllCurrent) (startedServer users grants now) where
  initial_safe := fun _ hthread ↦ absurd hthread List.not_mem_nil
  start_safe := by
    intro system tag program _ _ hlegal
    rcases hlegal with ⟨request, cameraFirst, rfl⟩ | ⟨index, _, socket, cameraFirst, hsocket, rfl⟩
    · exact upgrade_safe request cameraFirst
    · exact refresh_safe cameraFirst ⟨socket, hsocket, rfl⟩
  advance_allowed := fun _ _ ↦ trivial
  crash_rely := fun _ ↦ Follows.map (le_refl _) rfl rfl (fun _ ↦ Or.inl) rfl (fun _ ↦ rfl) fun _ ↦
    rfl
  environment_rely := by
    intro system event hlegal
    cases event with
    | session change =>
      refine Follows.of_same ?_ rfl rfl rfl rfl
      cases change with
      | clockAdvances ms => exact Int.le_add_of_nonneg_right (Int.natCast_nonneg ms)
      | usersWritten users => exact le_refl _
    | sessionsInvalidated userId committedAt =>
      refine Follows.of_same (le_of_eq ?_) rfl rfl rfl rfl
      cases userId <;> rfl
    | grantsWritten grants => exact Follows.grantsWritten grants
    | emitted event throwing => exact Follows.broadcast hlegal event throwing
    | buffered index amount => exact Follows.modify index (fun _ ↦ rfl) fun _ ↦ rfl
    | closed index => exact Follows.modify index (fun _ ↦ rfl) fun _ ↦ rfl

/-- Everything that is sent follows the changes of access, in every run whose events find every open
socket current. -/
theorem followsAccess (run : FeedRun AllCurrent) : run.system.world.FollowsAccess :=
  ((run.reached.safe (feedRuns_respects run.users run.grants run.now)).2.kept
    (startedServer_kept run.users run.grants run.now)).sent

/-! ### A grant that was withdrawn -/

def oliver : UserTokenPayload where
  id := "user-3"
  role := .operator

def doorGrant : GrantTables where
  cameraPermissions := [{ userId := "user-3", cameraId := "door", rights := viewOnly }]
  sitePermissions := []
  cameras := [{ id := "door", siteId := none }]

def noGrant : GrantTables := { doorGrant with cameraPermissions := [] }

def doorMotion : EventRecord where
  id := "event-7"
  cameraId := some "door"
  siteId := none
  timestamp := 70000
  type := .motionDetected
  listedCameraIds := none

/-- The operator connects, loses the grant, and a quiet minute passes. -/
def withdrawal : List (Move Call Reply Failure Outcome EnvironmentChange Unit) :=
  .start () (upgrade { pathname := feedPath, queryToken := some "token" } true) ::
    .advance 0 (.claims oliver) :: List.replicate 12 (.advance 0 .ok) ++
      [.environment (.grantsWritten noGrant), .environment (.session (.clockAdvances 70000)),
        .environment (.emitted doorMotion [])]

def withdrawn : System Call Reply Failure World Unit :=
  runMoves machine.move
    (startedServer [{ id := "user-3", passwordHash := "hash", role := .operator }] doorGrant 0)
    withdrawal

/-- The first event after it is sent. -/
def sentLate : Sent where
  user := oliver
  event := doorMotion
  sentAt := 70000
  sessionIsGood := true
  grants := noGrant
  changes := [{ changedAt := 0, before := doorGrant }]

theorem sent_withdrawn : withdrawn.world.sent = [sentLate] := rfl

theorem reaches_withdrawn : Reaches machine.move (feedRuns fun _ ↦ True)
    (startedServer [{ id := "user-3", passwordHash := "hash", role := .operator }] doorGrant 0)
    withdrawn := by
  refine Reaches.refl.run ⟨Or.inl ⟨_, _, rfl⟩, trivial, ?_⟩
  simp [LegalRun, feedRuns, List.replicate]

/-- It shows a camera that has been out of view for more than a minute. -/
theorem not_followsAccess_withdrawn :
    ¬ ∀ run : FeedRun fun _ ↦ True, run.system.world.FollowsAccess := by
  intro hfollows
  let run : FeedRun fun _ ↦ True :=
    { users := [{ id := "user-3", passwordHash := "hash", role := .operator }]
      grants := doorGrant
      now := 0
      system := withdrawn
      reached := reaches_withdrawn }
  have hsent : sentLate ∈ withdrawn.world.sent := by
    rw [sent_withdrawn]
    exact List.mem_cons_self
  obtain ⟨grants, hgrants, hshows⟩ := (hfollows run sentLate hsent).rights
    { changedAt := 0, before := doorGrant } List.mem_cons_self (by decide)
  -- No other grants have been in force since the change
  obtain rfl : grants = noGrant := List.mem_singleton.mp hgrants
  cases hshows

end VmsLite.Events.FeedModel
