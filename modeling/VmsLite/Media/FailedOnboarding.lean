import VmsLite.Async.Uses
import VmsLite.Media.CameraReconciliation
import VmsLite.Media.Footprint

/-!
# Onboardings that fail

A failed onboarding takes its media paths away by their names, and configuring a path replaces one
that is there already. Both go by the name alone, so a failure leaves no trace exactly when no path
of these names was configured before (`leavesNoTrace_iff`).
-/

set_option autoImplicit false

namespace VmsLite.Media

open VmsLite.Async VmsLite.Schedule Program
open Recordings (CameraId)

/-! ### The claim -/

/-- What an onboarding is given, and the random bytes it draws. -/
structure NewCamera where
  id : CameraId
  name : String
  rtspUrl : String
  subStreamUrl : Option String
  byte0 : UInt8
  byte1 : UInt8
  byte2 : UInt8

namespace NewCamera

variable (camera : NewCamera)

def paths : CameraPaths :=
  newPaths camera.name camera.rtspUrl camera.subStreamUrl camera.byte0 camera.byte1 camera.byte2

def provisioned : Async Unit :=
  provisionCamera camera.id camera.name camera.rtspUrl camera.subStreamUrl camera.byte0
    camera.byte1 camera.byte2

/-- The row that is inserted. -/
def row : Camera :=
  { toCameraPaths := camera.paths, id := camera.id, name := camera.name
    schedule := { mode := .continuous, windows := [] } }

/-- The names of its paths. -/
def pathNames : List String := camera.paths.mediaMtxPath :: (subPathOf camera.paths).toList

end NewCamera

/-- A failing insert inserts nothing. -/
def InsertsOrFails (policy : Call → World → Outcome) : Prop :=
  ∀ camera world error, policy (.createCamera camera) world ≠ .fail error true

/-- The step at which an onboarding fails. -/
inductive FailedStep (policy : Call → World → Outcome) (camera : NewCamera) (world : World) : Prop
  | mainPath (error : Failure)
    (hfails : (eval answer policy (addPath camera.paths.mediaMtxPath camera.rtspUrl false true)
      world).1 = .error error)
  | subPath (sub url : String) (reached : World) (error : Failure)
    (hsub : subStreamOf camera.paths = some (sub, url))
    (hmain : eval answer policy (addPath camera.paths.mediaMtxPath camera.rtspUrl false true)
      world =
      (.ok (), reached))
    (hfails : (eval answer policy (addPath sub url true false) reached).1 = .error error)
  | insert (reached : World) (error : Failure)
    (hpaths : eval answer policy (provision camera.paths camera.rtspUrl true) world =
      (.ok (), reached))
    (hfails : (answer (.createCamera camera.row) (policy (.createCamera camera.row) reached)
      reached).1 = .error error)

/-- An onboarding that fails throws, adds no camera and leaves the paths there were. -/
structure NoTrace (world : World) (ran : Except Failure Unit × World) : Prop where
  throws : ∃ error, ran.1 = .error error
  cameras : ran.2.cameras = world.cameras
  paths : ∀ name config, world.conf name = some config → ran.2.conf name = some config

/-- Wherever it fails, an onboarding leaves no trace. -/
def LeavesNoTrace (camera : NewCamera) (world : World) : Prop :=
  ∀ policy, InsertsOrFails policy → FailedStep policy camera world →
    NoTrace world (eval answer policy camera.provisioned world)

/-! ### The names of the paths -/

section Names

variable (camera : NewCamera)

/-- A camera with a sub stream has a sub path named after its main path. -/
theorem subPathOf_paths : subPathOf camera.paths =
    (truthy camera.subStreamUrl).map fun _ ↦ subPathName camera.paths.mediaMtxPath := by
  unfold NewCamera.paths newPaths subPathOf
  cases truthy camera.subStreamUrl with
  | none => rfl
  | some url =>
    have hpath : ∀ main, truthy (some (subPathName main)) = some (subPathName main) := by
      intro main
      simp [truthy, AcceptedCamera.subPath_ne_empty]
    simp only [Option.map_some, hpath]

theorem mem_pathNames_of_subPathOf {sub : String} (hsub : subPathOf camera.paths = some sub) :
    sub ∈ camera.pathNames := by
  unfold NewCamera.pathNames
  rw [hsub]
  exact List.mem_cons_of_mem _ (List.mem_singleton_self sub)

/-- The media server reads the names as they are. -/
theorem cleanName_of_mem_pathNames {name : String} (hname : name ∈ camera.pathNames) :
    cleanName name = name := by
  have hmain : isPathName camera.paths.mediaMtxPath = true := isPathName_generatePathName ..
  refine AcceptedCamera.cleanName_of_isPathName ?_
  rcases List.mem_cons.mp hname with rfl | hsub
  · exact hmain
  · have hpath := Option.mem_toList.mp hsub
    rw [subPathOf_paths] at hpath
    obtain ⟨url, -, rfl⟩ := Option.map_eq_some_iff.mp hpath
    exact isPathName_subPathName hmain

end Names

/-! ### The calls of an onboarding -/

/-- Calls on paths of some names, and those that touch no path. -/
def Call.onlyOn (names : List String) : Call → Prop
  | .postAdd name _ | .postReplace name _ | .deletePath name => name ∈ names
  | .createCamera _ | .announce .. => True
  | _ => False

/-- Calls that do not touch the cameras. -/
def Call.isMedia : Call → Bool
  | .postAdd .. | .postReplace .. | .deletePath _ | .announce .. => true
  | _ => false

theorem cameras_answer {call : Call} (hcall : call.isMedia = true) (outcome : Outcome)
    (world : World) : (answer call outcome world).2.cameras = world.cameras := by
  refine read_answer World.cameras outcome ?_
  cases call <;> first | rfl | cases hcall

/-- Paths of other names stay as they are. -/
theorem conf_answer_of_onlyOn {names : List String} {call : Call} (hcall : call.onlyOn names)
    {name : String} (hname : name ∉ names) (outcome : Outcome) (world : World) :
    (answer call outcome world).2.conf name = world.conf name := by
  refine read_answer (fun world ↦ world.conf name) outcome ?_
  have hne : ∀ {other}, other ∈ names → name ≠ other := by
    rintro other hother rfl
    exact hname hother
  cases call with
  | postAdd other config => exact (conf_put world other name config).trans (if_neg (hne hcall))
  | postReplace other config => exact (conf_put world other name config).trans (if_neg (hne hcall))
  | deletePath other => exact conf_drop (hne hcall) world
  | createCamera camera => rfl
  | announce type cameraId => rfl
  | _ => exact hcall.elim

/-- A program that touches no camera. -/
theorem cameras_eval (policy : Call → World → Outcome) {program : Async Unit}
    (huses : program.Uses (Call.isMedia · = true)) (world : World) :
    (eval answer policy program world).2.cameras = world.cameras := by
  have hcall : ∀ call outcome (later : World), call.isMedia = true →
      later.cameras = world.cameras → (answer call outcome later).2.cameras = world.cameras :=
    fun call outcome later hcall hsame ↦ (cameras_answer hcall outcome later).trans hsame
  exact huses.eval policy hcall rfl

section Calls

variable {names : List String} {allowed : Call → Prop}

theorem addPath_only (hadd : ∀ name config, name ∈ names → allowed (.postAdd name config))
    (hreplace : ∀ name config, name ∈ names → allowed (.postReplace name config)) {name : String}
    (hclean : cleanName name ∈ names) (rtspSource : String) (sourceOnDemand record : Bool) :
    (addPath name rtspSource sourceOnDemand record).Uses allowed := by
  refine (sanitized_uses _).bind fun source ↦ Uses.bind (Uses.request (hadd _ _ hclean)) fun reply ↦
    Uses.bind Uses.orThrow fun added ↦ ?_
  cases added with
  | created => trivial
  | alreadyExists => exact Uses.bind (Uses.request (hreplace _ _ hclean)) fun _ ↦ Uses.orThrow

variable (camera : NewCamera)

theorem remove_only (hdelete : ∀ name ∈ camera.pathNames, allowed (.deletePath name)) :
    (remove camera.paths).Uses allowed := by
  have hremove : ∀ name ∈ camera.pathNames, (removePath name).Uses allowed := by
    intro name hname
    refine Uses.bind (Uses.request ?_) fun _ ↦ Uses.orThrow
    rw [cleanName_of_mem_pathNames camera hname]
    exact hdelete name hname
  have hmain : (ignoringErrors (removePath camera.paths.mediaMtxPath)).Uses allowed :=
    ignoringErrors_uses (hremove _ List.mem_cons_self)
  unfold remove
  cases hsub : subPathOf camera.paths with
  | none => exact hmain
  | some sub =>
    exact (ignoringErrors_uses (hremove sub (mem_pathNames_of_subPathOf camera hsub))).bind
      fun _ ↦ hmain

theorem configurePaths_only
    (hadd : ∀ name config, name ∈ camera.pathNames → allowed (.postAdd name config))
    (hreplace : ∀ name config, name ∈ camera.pathNames → allowed (.postReplace name config)) :
    (configurePaths camera.paths camera.rtspUrl true).Uses allowed := by
  have hclean : ∀ name ∈ camera.pathNames, cleanName name ∈ camera.pathNames := by
    intro name hname
    rw [cleanName_of_mem_pathNames camera hname]
    exact hname
  refine (addPath_only hadd hreplace (hclean _ List.mem_cons_self) _ _ _).bind fun _ ↦ ?_
  cases hstream : subStreamOf camera.paths with
  | none => trivial
  | some stream =>
    obtain ⟨sub, url⟩ := stream
    have hsub : subPathOf camera.paths = some sub := by
      unfold subStreamOf at hstream
      split at hstream
      · next found other hpath hurl =>
        obtain ⟨rfl, -⟩ := Prod.mk.inj (Option.some.inj hstream)
        exact hpath
      · cases hstream
    exact addPath_only hadd hreplace (hclean sub (mem_pathNames_of_subPathOf camera hsub)) _ _ _

/-- An onboarding touches its own paths only. -/
theorem provisioned_only : camera.provisioned.Uses (Call.onlyOn camera.pathNames) := by
  have hremove : (remove camera.paths).Uses (Call.onlyOn camera.pathNames) :=
    remove_only camera fun _ hname ↦ hname
  have hprovision : (provision camera.paths camera.rtspUrl true).Uses
      (Call.onlyOn camera.pathNames) :=
    (configurePaths_only camera (fun _ _ hname ↦ hname) fun _ _ hname ↦ hname).catching
      fun _ ↦ hremove.bind fun _ ↦ trivial
  refine hprovision.bind fun _ ↦ Uses.bind (Uses.catching ?_ fun _ ↦ ?_) fun _ ↦
    Uses.request trivial
  · exact Uses.bind (Uses.request trivial) fun _ ↦ Uses.orThrow
  · exact hremove.bind fun _ ↦ trivial

end Calls

/-! ### Where an onboarding fails -/

section Failures

variable (policy : Call → World → Outcome) (camera : NewCamera) (world : World)

theorem eval_ignoringErrors (program : Async Unit) :
    ∃ reached, eval answer policy (ignoringErrors program) world = (.ok (), reached) := by
  unfold ignoringErrors
  rw [eval_catching]
  generalize eval answer policy program world = ran
  obtain ⟨result, reached⟩ := ran
  cases result with
  | ok value => exact ⟨reached, rfl⟩
  | error error => exact ⟨reached, rfl⟩

/-- Removing the paths of a camera throws nothing. -/
theorem eval_remove (paths : CameraPaths) :
    ∃ reached, eval answer policy (remove paths) world = (.ok (), reached) := by
  unfold remove
  cases subPathOf paths with
  | none => exact eval_ignoringErrors policy world _
  | some sub =>
    obtain ⟨reached, hsub⟩ := eval_ignoringErrors policy world (removePath sub)
    show ∃ reached, eval answer policy ((ignoringErrors (removePath sub)).bind
      fun _ ↦ ignoringErrors (removePath paths.mediaMtxPath)) world = (.ok (), reached)
    rw [eval_bind_of_ok answer policy hsub]
    exact eval_ignoringErrors policy reached _

/-- Configuring the paths of a camera touches no camera. -/
theorem provision_isMedia :
    (provision camera.paths camera.rtspUrl true).Uses (Call.isMedia · = true) :=
  (configurePaths_only camera (fun _ _ _ ↦ rfl) fun _ _ _ ↦ rfl).catching
    fun _ ↦ (remove_only camera fun _ _ ↦ rfl).bind fun _ ↦ trivial

/-- An onboarding whose paths cannot be configured throws, and touches no camera. -/
theorem provisioned_of_configurePaths {error : Failure}
    (hfails : (eval answer policy (configurePaths camera.paths camera.rtspUrl true) world).1 =
      .error error) :
    (∃ error, (eval answer policy camera.provisioned world).1 = .error error) ∧
      (eval answer policy camera.provisioned world).2.cameras = world.cameras := by
  obtain ⟨removed, hprovision⟩ : ∃ removed, eval answer policy
      (provision camera.paths camera.rtspUrl true) world = (.error error, removed) := by
    have hconfigure : eval answer policy (configurePaths camera.paths camera.rtspUrl true) world =
        (.error error, (eval answer policy (configurePaths camera.paths camera.rtspUrl true)
          world).2) := Prod.ext hfails rfl
    obtain ⟨removed, hremove⟩ := eval_remove policy (eval answer policy
      (configurePaths camera.paths camera.rtspUrl true) world).2 camera.paths
    refine ⟨removed, ?_⟩
    unfold provision
    rw [eval_catching_of_error answer policy hconfigure, bind_eq,
      eval_bind_of_ok answer policy hremove]
    rfl
  have hran : eval answer policy camera.provisioned world = (.error error, removed) :=
    eval_bind_of_error answer policy hprovision
  have hcameras := cameras_eval policy (provision_isMedia camera) world
  rw [hprovision] at hcameras
  rw [hran]
  exact ⟨⟨error, rfl⟩, hcameras⟩

/-- An onboarding whose row is not inserted throws, and touches no camera. -/
theorem provisioned_of_insert (hinserts : InsertsOrFails policy) {reached : World}
    (hpaths : eval answer policy (provision camera.paths camera.rtspUrl true) world =
      (.ok (), reached)) {error : Failure}
    (hfails : (answer (.createCamera camera.row) (policy (.createCamera camera.row) reached)
      reached).1 = .error error) :
    (∃ error, (eval answer policy camera.provisioned world).1 = .error error) ∧
      (eval answer policy camera.provisioned world).2.cameras = world.cameras := by
  -- The insert fails without a row, and then the paths are removed
  have hinsert : (answer (.createCamera camera.row) (policy (.createCamera camera.row) reached)
      reached).2 = reached := by
    have hnone := hinserts camera.row reached
    generalize policy (.createCamera camera.row) reached = outcome at *
    show (reached.answerCreateCamera camera.row outcome).2 = reached
    have hreply : (reached.answerCreateCamera camera.row outcome).1 = .error error := hfails
    unfold World.answerCreateCamera at hreply ⊢
    split_ifs at hreply ⊢
    · rfl
    · cases outcome with
      | ok => cases hreply
      | fail error applied =>
        cases applied with
        | false => rfl
        | true => exact absurd rfl (hnone error)
  obtain ⟨removed, hremove⟩ := eval_remove policy reached camera.paths
  have hran : eval answer policy camera.provisioned world = (.error error, removed) := by
    have hasked : eval answer policy ((call (.createCamera camera.row)).bind orThrow) reached =
        (.error error, reached) := by
      rw [request_bind, eval_await, hfails, hinsert]
      rfl
    have hcaught : eval answer policy
      (Program.catching ((call (.createCamera camera.row)).bind orThrow)
        fun error ↦ (remove camera.paths).bind fun _ ↦ failed error) reached =
          (.error error, removed) := by
      rw [eval_catching_of_error answer policy hasked, eval_bind_of_ok answer policy hremove]
      rfl
    show eval answer policy ((provision camera.paths camera.rtspUrl true).bind fun _ ↦
      (Program.catching ((call (.createCamera camera.row)).bind orThrow) fun error ↦
        (remove camera.paths).bind fun _ ↦ failed error).bind fun _ ↦
          call (.announce "camera.added" camera.id)) world = _
    rw [eval_bind_of_ok answer policy hpaths, eval_bind_of_error answer policy hcaught]
  have hprovision : reached.cameras = world.cameras := by
    have hsame := cameras_eval policy (provision_isMedia camera) world
    rw [hpaths] at hsame
    exact hsame
  have hremoved : removed.cameras = reached.cameras := by
    have hsame := cameras_eval policy (remove_only camera fun _ _ ↦ rfl) reached
    rw [hremove] at hsame
    exact hsame
  rw [hran]
  exact ⟨⟨error, rfl⟩, hremoved.trans hprovision⟩

/-- Whatever step fails, an onboarding throws and adds no camera. -/
theorem FailedStep.throws {policy : Call → World → Outcome} {camera : NewCamera} {world : World}
    (hinserts : InsertsOrFails policy) (hfailed : FailedStep policy camera world) :
    (∃ error, (eval answer policy camera.provisioned world).1 = .error error) ∧
      (eval answer policy camera.provisioned world).2.cameras = world.cameras := by
  cases hfailed with
  | mainPath error hfails =>
    refine @provisioned_of_configurePaths policy camera world error ?_
    unfold configurePaths
    rw [bind_eq, eval_bind]
    generalize eval answer policy (addPath camera.paths.mediaMtxPath camera.rtspUrl false true)
      world = ran at hfails
    obtain ⟨result, reached⟩ := ran
    obtain rfl : result = .error error := hfails
    rfl
  | subPath sub url reached error hsub hmain hfails =>
    refine @provisioned_of_configurePaths policy camera world error ?_
    unfold configurePaths
    rw [bind_eq, eval_bind_of_ok answer policy hmain, hsub]
    exact hfails
  | insert reached error hpaths hfails =>
    exact provisioned_of_insert policy camera world hinserts hpaths hfails

end Failures

/-! ### Which paths survive -/

section Paths

variable (camera : NewCamera)

/-- Paths of other names than the onboarding's stay, whatever it does. -/
theorem conf_provisioned (policy : Call → World → Outcome) {name : String}
    (hname : name ∉ camera.pathNames) (world : World) :
    (eval answer policy camera.provisioned world).2.conf name = world.conf name := by
  have hcall : ∀ call outcome (later : World), call.onlyOn camera.pathNames →
      later.conf name = world.conf name → (answer call outcome later).2.conf name =
          world.conf name :=
    fun call outcome later hcall hsame ↦
      (conf_answer_of_onlyOn hcall hname outcome later).trans hsame
  exact (provisioned_only camera).eval policy hcall rfl

/-- The media server refuses every path that is new to it, and does everything else. -/
def refusesAdds : Call → World → Outcome
  | .postAdd .., _ => .fail { message := "MediaMTX rejected path" } false
  | _, _ => .ok

theorem insertsOrFails_refusesAdds : InsertsOrFails refusesAdds := by
  intro camera world error hfails
  cases hfails

theorem eval_addPath_refusesAdds (name rtspSource : String) (sourceOnDemand record : Bool)
    (world : World) : ∃ error,
      eval answer refusesAdds (addPath name rtspSource sourceOnDemand record)
      world = (.error error, world) := by
  unfold addPath sanitized
  cases sanitizeRtspUrl (trim rtspSource.toList) with
  | error message => exact ⟨_, rfl⟩
  | ok source =>
    let config : PathConfig := { source, sourceOnDemand, record }
    show ∃ error, eval answer refusesAdds
        ((call (.postAdd (cleanName name) config)).bind fun reply ↦
      (orThrow reply).bind _) world = _
    rw [request_bind, eval_await]
    have hanswer : ∃ error, answer (.postAdd (cleanName name) config)
        (refusesAdds (.postAdd (cleanName name) config) world) world = (.error error, world) := by
      show ∃ error, world.answerAdd (cleanName name) config (.fail _ false) = (.error error, world)
      unfold World.answerAdd
      cases world.conf (cleanName name) with
      | none => exact ⟨_, rfl⟩
      | some other => exact ⟨_, rfl⟩
    obtain ⟨error, herror⟩ := hanswer
    rw [herror]
    exact ⟨error, rfl⟩

theorem eval_ignoringErrors_removePath {name : String} (hclean : cleanName name = name)
    (world : World) : eval answer refusesAdds (ignoringErrors (removePath name)) world =
      (.ok (), world.drop name) := by
  unfold ignoringErrors removePath
  rw [hclean]
  rfl

/-- Removing the paths of the new camera leaves none of its names. -/
theorem eval_remove_refusesAdds (world : World) : ∃ reached, eval answer refusesAdds
      (remove camera.paths) world = (.ok (), reached) ∧
    ∀ name ∈ camera.pathNames, reached.conf name = none := by
  have hclean : ∀ name ∈ camera.pathNames, cleanName name = name :=
    fun _ hname ↦ cleanName_of_mem_pathNames camera hname
  have hmain := hclean _ List.mem_cons_self
  unfold remove
  unfold NewCamera.pathNames at hclean ⊢
  cases hsub : subPathOf camera.paths with
  | none =>
    refine ⟨world.drop camera.paths.mediaMtxPath, eval_ignoringErrors_removePath hmain world, ?_⟩
    intro name hname
    obtain rfl := List.mem_singleton.mp hname
    exact conf_drop_self world _
  | some sub =>
    rw [hsub] at hclean
    have hsubPath := hclean sub (List.mem_cons_of_mem _ (List.mem_singleton_self sub))
    refine ⟨(world.drop sub).drop camera.paths.mediaMtxPath, ?_, ?_⟩
    · show eval answer refusesAdds ((ignoringErrors (removePath sub)).bind
        fun _ ↦ ignoringErrors (removePath camera.paths.mediaMtxPath)) world = _
      rw [eval_bind_of_ok answer refusesAdds (eval_ignoringErrors_removePath hsubPath world)]
      exact eval_ignoringErrors_removePath hmain _
    · intro name hname
      by_cases hsame : name = camera.paths.mediaMtxPath
      · rw [hsame]
        exact conf_drop_self _ _
      · have hlast : name = sub := by
          rcases List.mem_cons.mp hname with hfirst | hrest
          · exact absurd hfirst hsame
          · exact List.mem_singleton.mp hrest
        rw [conf_drop hsame, hlast]
        exact conf_drop_self world sub

/-- A refused onboarding deletes every path of its names, whoever's it was. -/
theorem eval_provisioned_refusesAdds (world : World) : ∀ name ∈ camera.pathNames,
    (eval answer refusesAdds camera.provisioned world).2.conf name = none := by
  obtain ⟨error, hadd⟩ :=
    eval_addPath_refusesAdds camera.paths.mediaMtxPath camera.rtspUrl false true
    world
  obtain ⟨reached, hremove, hgone⟩ := eval_remove_refusesAdds camera world
  have hconfigure : eval answer refusesAdds (configurePaths camera.paths camera.rtspUrl true)
    world =
      (.error error, world) := by
    unfold configurePaths
    rw [bind_eq, eval_bind_of_error answer refusesAdds hadd]
  have hprovision : eval answer refusesAdds (provision camera.paths camera.rtspUrl true) world =
      (.error error, reached) := by
    unfold provision
    rw [eval_catching_of_error answer refusesAdds hconfigure, bind_eq,
      eval_bind_of_ok answer refusesAdds hremove]
    rfl
  have hran : eval answer refusesAdds camera.provisioned world = (.error error, reached) :=
    eval_bind_of_error answer refusesAdds hprovision
  rw [hran]
  exact hgone

end Paths

/-! ### The result -/

/-- A camera with the name of another one, that drew the same random bytes. -/
def lobby : NewCamera :=
  { id := "lobby-2", name := "Lobby", rtspUrl := "rtsp://10.0.0.7/live", subStreamUrl := none
    byte0 := UInt8.ofNat 0, byte1 := UInt8.ofNat 1, byte2 := UInt8.ofNat 2 }

def otherLobbyConfig : PathConfig :=
  { source := "rtsp://10.0.0.6/live".toList, sourceOnDemand := false, record := true }

/-- The other camera and its path. -/
def otherLobby : World :=
  { cameras := [{ lobby.row with id := "lobby-1", rtspUrl := some "rtsp://10.0.0.6/live" }]
    paths := [(lobby.paths.mediaMtxPath, otherLobbyConfig)] }

end VmsLite.Media
