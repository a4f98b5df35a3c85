import VmsLite.Media.MediaServer

/-!
# Camera media paths

The owner of how cameras map onto the paths of the media server. A camera's main path is always on
and recorded as its schedule asks; its sub path is there on demand and never recorded. `reconcile`
puts the paths of one camera back to that, `sweepOrphans` removes the paths that no camera owns, and
previews come and go beside them.
-/

set_option autoImplicit false

namespace VmsLite.Media

open VmsLite.Async Program
open Recordings (CameraId)

/-- A text that is neither missing nor empty. -/
def truthy (text : Option String) : Option String := text.filter (· ≠ "")

/-- The sub-stream path of a camera with a sub-stream. -/
def subPathOf (camera : CameraPaths) : Option String :=
  match truthy camera.subMediaMtxPath with
  | some path => some path
  | none => (truthy camera.subStreamUrl).map fun _ ↦ subPathName camera.mediaMtxPath

/-! ### One camera -/

def remove (camera : CameraPaths) : Async Unit := do
  match subPathOf camera with
  | some sub => ignoringErrors (removePath sub)
  | none => pure ()
  ignoringErrors (removePath camera.mediaMtxPath)

/-- The sub path of a camera and the source of it, if it has both. -/
def subStreamOf (camera : CameraPaths) : Option (String × String) :=
  match subPathOf camera, truthy camera.subStreamUrl with
  | some sub, some url => some (sub, url)
  | _, _ => none

/-- The `try` of `provision`. -/
def configurePaths (camera : CameraPaths) (rtspUrl : String) (record : Bool) : Async Unit := do
  addPath camera.mediaMtxPath rtspUrl false record
  match subStreamOf camera with
  | some (sub, url) => addPath sub url true false
  | none => pure ()

/-- Configures a new camera's paths; throws, after undoing them, if the media server refuses. -/
def provision (camera : CameraPaths) (rtspUrl : String) (record : Bool) : Async Unit :=
  (configurePaths camera rtspUrl record).catching fun error ↦ do
    remove camera
    failed error

/-- One path of `reconcile`: adds it if it is missing or has another source than the sanitised URL,
and otherwise does what the path asks for. -/
def reconcilePath (name url : String) (sourceOnDemand record : Bool)
    (otherwise : PathConfig → Async Unit) : Async Unit := do
  match ← getPath name with
  | none => addPath name url sourceOnDemand record
  | some conf => do
    let source ← sanitized url.toList
    if conf.source ≠ source then addPath name url sourceOnDemand record else otherwise conf

def followRecord (name : String) (record : Bool) (conf : PathConfig) : Async Unit :=
  if conf.record ≠ record then patchPath name record else pure ()

/-- Puts one camera's paths back to the desired state. -/
def reconcile (camera : CameraPaths) (record recordChanged : Bool) : Async Unit :=
  match truthy camera.rtspUrl with
  -- Source unknown (legacy callers): only drive the record flag on transitions
  | none => if recordChanged then patchPath camera.mediaMtxPath record else pure ()
  | some url => do
    reconcilePath camera.mediaMtxPath url false record (followRecord camera.mediaMtxPath record)
    match subStreamOf camera with
    | some (sub, url) => reconcilePath sub url true false fun _ ↦ pure ()
    | none => pure ()

/-! ### Orphans -/

/-- The paths that cameras own. -/
def ownedPaths (cameras : List CameraPaths) : List String :=
  cameras.flatMap fun camera ↦ (truthy camera.mediaMtxPath).toList ++ (subPathOf camera).toList

/-- `decodeURIComponent` of every listed name; `none` when one of them makes it throw. -/
def decodeNames (listed : List String) : Option (List String) :=
  listed.mapM fun name ↦ (decodeURIComponent name.toList).map String.ofList

/-- Removes an orphan if it was one on the previous sweep too. -/
def sweepOrphan (removed : List String) (name : String) : Async (List String) := do
  if name ∈ (← call .getOrphanCandidates) then do
    ignoringErrors (removePath name)
    pure (removed ++ [name])
  else pure removed

/-- Removes the paths that belong to no camera and are not a live preview, if they were orphans on
the previous sweep too. Returns their names. -/
def sweepOrphans (cameras : List CameraPaths) : Async (List String) := do
  let listed ← orThrow (← call .listConfigs)
  match decodeNames listed with
  | none => failed { message := "URI malformed" }
  | some names => do
    let live ← call .getLivePreviews
    let orphans := names.filter fun name ↦ name ∉ ownedPaths cameras && name ∉ live
    let removed ← orphans.foldlM sweepOrphan []
    call (.setOrphanCandidates (orphans.filter fun name ↦ name ∉ removed))
    pure removed

/-! ### Onboarding -/

/-- The media paths of a new camera; the bytes are the random ones of its path name. -/
def newPaths (name rtspUrl : String) (subStreamUrl : Option String) (byte0 byte1 byte2 : UInt8) :
    CameraPaths :=
  let mediaMtxPath := generatePathName name byte0 byte1 byte2
  { mediaMtxPath
    rtspUrl := some rtspUrl
    subMediaMtxPath := (truthy subStreamUrl).map fun _ ↦ subPathName mediaMtxPath
    subStreamUrl := truthy subStreamUrl }

/-- Configures the media paths of a camera, persists it, rolls the paths back if that fails, and
announces it. -/
def provisionCamera (id : CameraId) (name rtspUrl : String) (subStreamUrl : Option String)
    (byte0 byte1 byte2 : UInt8) : Async Unit := do
  let paths := newPaths name rtspUrl subStreamUrl byte0 byte1 byte2
  -- New cameras start in CONTINUOUS mode; the scheduler owns the record flag afterwards
  provision paths rtspUrl true
  let camera : Camera :=
    { toCameraPaths := paths, id, name, schedule := { mode := .continuous, windows := [] } }
  Program.catching (do orThrow (← call (.createCamera camera))) fun error ↦ do
    remove paths
    failed error
  call (.announce "camera.added" id)

/-- Removes a camera and tears down its streaming paths. -/
def removeCamera (id : CameraId) : Async Unit := do
  match ← orThrow (← call (.findCamera id)) with
  | none => pure ()
  | some camera => do
    orThrow (← call (.deleteCamera id))
    remove camera.toCameraPaths
    call (.announce "camera.deleted" id)

/-! ### Previews -/

/-- Opens a preview of an RTSP source; the bytes are the random ones. -/
def openPreview (bytes : List UInt8) (rtspUrl : String) : Async String := do
  let pathName := previewPrefix ++ String.ofList (toHex bytes)
  addPath pathName rtspUrl false false
  call (.addLivePreview pathName)
  pure pathName

def closePreview (pathName : String) : Async Unit :=
  if isPreviewPath pathName then do
    call (.deleteLivePreview pathName)
    ignoringErrors (removePath pathName)
  else pure ()

end VmsLite.Media
