import VmsLite.Users.Session
import VmsLite.Recordings.Types

/-!
# Camera scopes

What a user may do on which camera. An administrator may do everything and a viewer may watch every
camera, live and recorded; an operator has the rights granted on a camera or on the site it stands
at.
-/

set_option autoImplicit false

namespace VmsLite.Users

open Recordings (CameraId)

abbrev SiteId := String

inductive CameraPermissionFlag
  | canViewLive | canViewPlayback | canControlPtz | canExportClips
  deriving DecidableEq, Repr

/-- A permission flag, or live or playback. -/
inductive CameraRight
  | flag (flag : CameraPermissionFlag)
  | view
  deriving DecidableEq, Repr

abbrev Rights := CameraPermissionFlag → Bool

def allRights : Rights := fun _ ↦ true

def viewOnly : Rights
  | .canViewLive | .canViewPlayback => true
  | .canControlPtz | .canExportClips => false

def permissionFlags : List CameraPermissionFlag :=
  [.canViewLive, .canViewPlayback, .canControlPtz, .canExportClips]

structure EffectivePermission where
  cameraId : CameraId
  rights : Rights
  viaCamera : Bool
  viaSite : Bool

/-! ### Grants -/

/-- A row of `camera_permissions`. -/
structure CameraPermission where
  userId : UserId
  cameraId : CameraId
  rights : Rights

/-- A row of `site_permissions`. -/
structure SitePermission where
  userId : UserId
  siteId : SiteId
  rights : Rights

/-- What a scope reads of a camera. -/
structure SitedCamera where
  id : CameraId
  siteId : Option SiteId

structure GrantTables where
  cameraPermissions : List CameraPermission
  sitePermissions : List SitePermission
  cameras : List SitedCamera

inductive GrantSource
  | viaCamera | viaSite
  deriving DecidableEq

def noPermission (cameraId : CameraId) : EffectivePermission where
  cameraId := cameraId
  rights := fun _ ↦ false
  viaCamera := false
  viaSite := false

def EffectivePermission.grant (entry : EffectivePermission) (rights : Rights)
    (source : GrantSource) : EffectivePermission :=
  { entry with
    rights := fun flag ↦ entry.rights flag || rights flag
    viaCamera := entry.viaCamera || source = .viaCamera
    viaSite := entry.viaSite || source = .viaSite }

/-- Adds a grant to the entry of a camera, at its place in the order of insertion. -/
def applyGrant (merged : List EffectivePermission) (cameraId : CameraId) (rights : Rights)
    (source : GrantSource) : List EffectivePermission :=
  if merged.any (·.cameraId = cameraId) then
    merged.map fun entry ↦ if entry.cameraId = cameraId then entry.grant rights source else entry
  else merged ++ [(noPermission cameraId).grant rights source]

/-- Operator rights merged from camera and site grants. -/
def effectiveGrants (tables : GrantTables) (userId : UserId) : List EffectivePermission :=
  let cameraGrants := tables.cameraPermissions.filter (·.userId = userId)
  let siteGrants := tables.sitePermissions.filter (·.userId = userId)
  let fromCameras := cameraGrants.foldl
    (fun merged grant ↦ applyGrant merged grant.cameraId grant.rights .viaCamera) []
  -- The last grant on a site is the one the map by site keeps.
  let bySite := fun siteId ↦ siteGrants.reverse.find? (·.siteId = siteId)
  let merged := tables.cameras.foldl (fun merged camera ↦
    match camera.siteId.bind bySite with
    | some grant => applyGrant merged camera.id grant.rights .viaSite
    | none => merged) fromCameras
  merged.filter fun permission ↦ permissionFlags.any permission.rights

/-! ### Scopes -/

structure CameraScope where
  /-- Rights on every camera, or none when rights are per camera. -/
  everyCamera : Option Rights
  perCamera : List EffectivePermission

def CameraScope.forUser (tables : GrantTables) (user : UserTokenPayload) : CameraScope :=
  match user.role with
  | .admin => { everyCamera := some allRights, perCamera := [] }
  | .viewer => { everyCamera := some viewOnly, perCamera := [] }
  | .operator => { everyCamera := none, perCamera := effectiveGrants tables user.id }

def CameraScope.can (scope : CameraScope) (cameraId : CameraId) (right : CameraRight) : Bool :=
  let rights := scope.everyCamera.or
    ((scope.perCamera.find? (·.cameraId = cameraId)).map (·.rights))
  match rights, right with
  | none, _ => false
  | some rights, .view => rights .canViewLive || rights .canViewPlayback
  | some rights, .flag flag => rights flag

/-- Cameras with the right, or none when the user has it on every camera. -/
def CameraScope.cameraIds (scope : CameraScope) (right : CameraRight) : Option (List CameraId) :=
  if scope.everyCamera.isSome then
    if scope.can "*" right then none else some []
  else some ((scope.perCamera.map (·.cameraId)).filter fun cameraId ↦ scope.can cameraId right)

/-- Effective rights per camera, for clients; cameras without any right are omitted. -/
def CameraScope.permissions (scope : CameraScope) (allCameraIds : List CameraId) :
    List EffectivePermission :=
  match scope.everyCamera with
  | none => scope.perCamera
  | some rights => allCameraIds.map fun cameraId ↦
      { cameraId, rights, viaCamera := false, viaSite := false }

end VmsLite.Users
