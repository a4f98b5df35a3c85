import VmsLite.Async.Uses
import VmsLite.Media.RecordingScheduler

/-!
# Which calls the programs of the media plane make

Reconciling and provisioning send requests about paths and touch nothing else; only the orphan sweep
lists the paths and writes its memory.
-/

set_option autoImplicit false

namespace VmsLite.Media

open VmsLite.Async VmsLite.Schedule Program
open Recordings (CameraId RecordingMode)

/-- Reads and sets the configuration of a path. -/
def Call.configures : Call → Bool
  | .postAdd .. | .postReplace .. | .patchRecord .. | .getConfig _ | .getRuntime _ => true
  | _ => false

/-- The calls of the sweep that nothing else makes. -/
def Call.sweeps : Call → Bool
  | .listConfigs | .getOrphanCandidates | .setOrphanCandidates _ => true
  | _ => false

section Uses

variable {allowed : Call → Prop}

theorem sanitized_uses (url : Url.Text) : (sanitized url).Uses allowed := by
  unfold sanitized
  cases sanitizeRtspUrl url with
  | ok source => trivial
  | error message => trivial

theorem ignoringErrors_uses {program : Async Unit} (huses : program.Uses allowed) :
    (ignoringErrors program).Uses allowed :=
  huses.catching fun _ ↦ trivial

theorem addPath_uses (name rtspSource : String) (sourceOnDemand record : Bool) :
    (addPath name rtspSource sourceOnDemand record).Uses (Call.configures · = true) := by
  refine (sanitized_uses _).bind fun source ↦ Uses.bind (Uses.request rfl) fun reply ↦
    Uses.bind Uses.orThrow fun added ↦ ?_
  cases added with
  | created => trivial
  | alreadyExists => exact Uses.bind (Uses.request rfl) fun reply ↦ Uses.orThrow

theorem getPath_uses (name : String) : (getPath name).Uses (Call.configures · = true) := by
  refine Uses.bind (Uses.request rfl) fun reply ↦ Uses.bind Uses.orThrow fun conf ↦ ?_
  cases conf with
  | none => trivial
  | some config => exact Uses.bind (Uses.request rfl) fun _ ↦ trivial

theorem patchPath_uses (name : String) (record : Bool) :
    (patchPath name record).Uses (Call.configures · = true) :=
  Uses.bind (Uses.request rfl) fun _ ↦ Uses.orThrow

theorem reconcilePath_uses (name url : String) (sourceOnDemand record : Bool)
    {otherwise : PathConfig → Async Unit}
    (hotherwise : ∀ conf, (otherwise conf).Uses (Call.configures · = true)) :
    (reconcilePath name url sourceOnDemand record otherwise).Uses (Call.configures · = true) := by
  refine (getPath_uses name).bind fun conf ↦ ?_
  cases conf with
  | none => exact addPath_uses ..
  | some conf =>
    refine (sanitized_uses _).bind fun source ↦ ?_
    split_ifs
    · exact addPath_uses ..
    · exact hotherwise conf

theorem reconcile_uses (camera : CameraPaths) (record recordChanged : Bool) :
    (reconcile camera record recordChanged).Uses (Call.configures · = true) := by
  unfold reconcile
  cases truthy camera.rtspUrl with
  | none =>
    dsimp only
    split_ifs
    · exact patchPath_uses ..
    · trivial
  | some url =>
    refine (reconcilePath_uses _ _ _ _ fun conf ↦ ?_).bind fun _ ↦ ?_
    · unfold followRecord
      split_ifs
      · exact patchPath_uses ..
      · trivial
    · cases subStreamOf camera with
      | none => trivial
      | some stream => exact reconcilePath_uses _ _ _ _ fun _ ↦ trivial

theorem removePath_uses (hdelete : ∀ name, allowed (.deletePath name)) (name : String) :
    (removePath name).Uses allowed :=
  Uses.bind (Uses.request (hdelete _)) fun _ ↦ Uses.orThrow

theorem remove_uses (hdelete : ∀ name, allowed (.deletePath name)) (camera : CameraPaths) :
    (remove camera).Uses allowed := by
  unfold remove
  cases subPathOf camera with
  | none => exact ignoringErrors_uses (removePath_uses hdelete _)
  | some sub =>
    exact (ignoringErrors_uses (removePath_uses hdelete _)).bind fun _ ↦
      ignoringErrors_uses (removePath_uses hdelete _)

end Uses

/-- No call of the sweep. -/
abbrev OutsideSweeps (call : Call) : Prop := call.sweeps = false

theorem outsideSweeps_of_configures {call : Call} (hcall : call.configures = true) :
    OutsideSweeps call := by
  cases call <;> first | rfl | cases hcall

theorem configurePaths_uses (camera : CameraPaths) (rtspUrl : String) (record : Bool) :
    (configurePaths camera rtspUrl record).Uses (Call.configures · = true) := by
  refine (addPath_uses ..).bind fun _ ↦ ?_
  cases subStreamOf camera with
  | none => trivial
  | some stream => exact addPath_uses ..

theorem provision_uses (camera : CameraPaths) (rtspUrl : String) (record : Bool) :
    (provision camera rtspUrl record).Uses OutsideSweeps :=
  ((configurePaths_uses ..).mono fun _ ↦ outsideSweeps_of_configures).catching fun _ ↦
    (remove_uses (fun _ ↦ rfl) camera).bind fun _ ↦ trivial

theorem provisionCamera_uses (id : CameraId) (name rtspUrl : String) (subStreamUrl : Option String)
    (byte0 byte1 byte2 : UInt8) :
    (provisionCamera id name rtspUrl subStreamUrl byte0 byte1 byte2).Uses OutsideSweeps :=
  (provision_uses ..).bind fun _ ↦
    Uses.bind
      (Uses.catching (Uses.bind (Uses.request rfl) fun _ ↦ Uses.orThrow) fun _ ↦
        (remove_uses (fun _ ↦ rfl) _).bind fun _ ↦ trivial)
      fun _ ↦ Uses.request rfl

theorem removeCamera_uses (id : CameraId) : (removeCamera id).Uses OutsideSweeps := by
  refine Uses.bind (Uses.request rfl) fun reply ↦ Uses.bind Uses.orThrow fun camera ↦ ?_
  cases camera with
  | none => trivial
  | some camera =>
    exact Uses.bind (Uses.request rfl) fun _ ↦ Uses.bind Uses.orThrow fun _ ↦
      (remove_uses (fun _ ↦ rfl) _).bind fun _ ↦ Uses.request rfl

theorem openPreview_uses (bytes : List UInt8) (rtspUrl : String) :
    (openPreview bytes rtspUrl).Uses OutsideSweeps :=
  ((addPath_uses ..).mono fun _ ↦ outsideSweeps_of_configures).bind fun _ ↦
    Uses.bind (Uses.request rfl) fun _ ↦ trivial

theorem closePreview_uses (pathName : String) : (closePreview pathName).Uses OutsideSweeps := by
  unfold closePreview
  split_ifs
  · exact Uses.bind (Uses.request rfl) fun _ ↦
      ignoringErrors_uses (removePath_uses (fun _ ↦ rfl) _)
  · trivial

/-! ### Evaluations -/

/-- The calls of an evaluation. -/
def Call.evaluates : Call → Bool
  | .findRecordingMode _ | .findScheduleWindows _ | .getRecordingState _ | .setRecordingState ..
  | .emitEvent _ => true
  | call => call.configures

theorem evaluates_of_configures {call : Call} (hcall : call.configures = true) :
    call.evaluates = true := by
  cases call <;> first | rfl | exact hcall

theorem outsideSweeps_of_evaluates {call : Call} (hcall : call.evaluates = true) :
    OutsideSweeps call := by
  cases call <;> first | rfl | cases hcall

theorem getCameraSchedule_uses (cameraId : CameraId) :
    (getCameraSchedule cameraId).Uses (Call.evaluates · = true) :=
  Uses.bind (Uses.request rfl) fun _ ↦ Uses.bind Uses.orThrow fun _ ↦
    Uses.bind (Uses.request rfl) fun _ ↦ Uses.bind Uses.orThrow fun _ ↦ trivial

theorem reconcileCaught_uses (camera : CameraRecordSummary) (record recordChanged : Bool) :
    (reconcileCaught camera record recordChanged).Uses (Call.configures · = true) :=
  Uses.catching ((reconcile_uses ..).bind fun _ ↦ trivial) fun _ ↦ trivial

theorem evaluateCamera_uses (camera : CameraRecordSummary) (date : LocalTime) :
    (evaluateCamera camera date).Uses (Call.evaluates · = true) := by
  refine (getCameraSchedule_uses _).bind fun schedule ↦ Uses.bind (Uses.request rfl) fun previous ↦
    ((reconcileCaught_uses ..).mono fun _ ↦ evaluates_of_configures).bind fun failed ↦ ?_
  split_ifs
  · trivial
  · refine Uses.bind ?_ fun _ ↦ trivial
    unfold noteRecording
    split_ifs
    · exact Uses.bind (Uses.request rfl) fun _ ↦ Uses.request rfl
    · trivial

theorem setCameraSchedule_uses (cameraId : CameraId) (schedule : CameraScheduleConfig) :
    (setCameraSchedule cameraId schedule).Uses OutsideSweeps := by
  have hsave : (saveCameraSchedule cameraId schedule).Uses OutsideSweeps := by
    refine Uses.bind (Uses.request rfl) fun reply ↦ Uses.bind Uses.orThrow fun found ↦ ?_
    cases found with
    | none => trivial
    | some camera => exact Uses.bind (Uses.request rfl) fun _ ↦ Uses.orThrow
  refine hsave.bind fun _ ↦ Uses.bind (Uses.request rfl) fun date ↦ Uses.bind ?_ fun _ ↦ ?_
  · exact Uses.bind (Uses.request rfl) fun _ ↦ Uses.bind Uses.orThrow fun _ ↦
      (evaluateCamera_uses ..).mono fun _ ↦ outsideSweeps_of_evaluates
  · exact (getCameraSchedule_uses _).mono fun _ ↦ outsideSweeps_of_evaluates

end VmsLite.Media
