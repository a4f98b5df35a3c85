import VmsLite.Media.PathReconciliation
import VmsLite.Media.RecordingEvents

/-!
# Consistency of the scheduler

Ticks and schedule changes on a fixed set of cameras. The events of a camera alternate in every run
in which its evaluations take turns, and a tick in which nothing fails sets the record flag of every
main path to what the persisted schedule says, unless the sweep at its end takes the path for
another one: it asks for the removal of decoded names, and the client trims them (`Unmasked`).
-/

set_option autoImplicit false

namespace VmsLite.Media

open VmsLite.Async VmsLite.Schedule Program
open Recordings (CameraId RecordingMode)
open Url (Text)

/-! ### What is asked of a run -/

/-- Cameras that camera creation accepted; identifiers and main paths are unique. -/
structure CameraRows (rows : List CameraRecordSummary) : Prop where
  accepted : ∀ row ∈ rows, ∃ camera : AcceptedCamera, row.toCameraPaths = camera.paths
  ids : rows.Pairwise fun first second ↦ first.id ≠ second.id
  paths : rows.Pairwise fun first second ↦ first.mediaMtxPath ≠ second.mediaMtxPath

/-- Where every request succeeds, reconciling a camera's paths throws nothing. -/
def Reconcilable (row : CameraRecordSummary) (record : Bool) (world : World) : Prop :=
  ∀ recordChanged, (eval answer calm (reconcile row.toCameraPaths record recordChanged) world).1 =
    .ok ()

/-- The events of every camera alternate; and once all calls have completed, a tick without failures
leaves every camera's main path with the record flag that the persisted schedule asks for. -/
structure SchedulerConsistent (system : ScheduleSystem) : Prop where
  alternates : ∀ cameraId, (startedEvents cameraId system.world).IsChain (· ≠ ·)
  settles : (∀ thread ∈ system.threads, thread.2.isOver = true) →
    ∀ date, ∀ camera ∈ system.world.cameras,
      Reconcilable camera.toCameraRecordSummary (shouldRecordToDisk camera.schedule date)
        system.world →
      ∃ conf, (eval answer calm (evaluateAllCameras date) system.world).2.conf camera.mediaMtxPath =
          some conf ∧
        conf.record = shouldRecordToDisk camera.schedule date

/-- A run of ticks and schedule changes from a fresh process, as far as it has come. -/
structure ScheduleRun (turn : ScheduleSystem → ℕ → Call → Prop) (legible : World → Prop) where
  world : World
  system : ScheduleSystem
  fresh : world.emitted = [] ∧ world.recordingStates = []
  rows : CameraRows (world.cameras.map Camera.toCameraRecordSummary)
  reached : Reaches machine.move (ScheduleMove turn) { threads := [], world } system
  legible : legible system.world

/-- No path of another name is removed under the name of a camera's main path. -/
def Unmasked (world : World) : Prop :=
  ∀ camera ∈ world.cameras, ∀ entry ∈ world.paths, ∀ name,
    decodeURIComponent entry.1.toList = some name →
      cleanName (String.ofList name) = camera.mediaMtxPath → String.ofList name =
        camera.mediaMtxPath

/-! ### One camera of a tick without failures -/

section Evaluate

variable (date : LocalTime) {row : CameraRecordSummary} {camera : Camera} {world : World}

theorem eval_getCameraSchedule (hcamera : world.camera row.id = some camera) :
    eval answer calm (getCameraSchedule row.id) world = (.ok camera.schedule, world) := by
  simp [getCameraSchedule, call, calm, answer, hcamera, Outcome.orFail]

theorem cameras_reconcile (paths : CameraPaths) (record recordChanged : Bool) (world : World) :
    (eval answer calm (reconcile paths record recordChanged) world).2.cameras = world.cameras := by
  have hcall : ∀ call outcome (reached : World), call.configures = true →
      reached.cameras = world.cameras → (answer call outcome reached).2.cameras =
          world.cameras := by
    intro call outcome reached hconfigures hsame
    refine (read_answer World.cameras outcome ?_).trans hsame
    cases call with
    | patchRecord name record => exact read_effect_patchRecord _ _ _ fun _ ↦ rfl
    | postAdd name config => rfl
    | postReplace name config => rfl
    | getConfig name => rfl
    | getRuntime name => rfl
    | _ => cases hconfigures
  exact (reconcile_uses paths record recordChanged).eval calm hcall rfl

variable (row world) in
theorem eval_reconcileCaught (record recordChanged : Bool) :
    eval answer calm (reconcileCaught row record recordChanged) world =
      (.ok (!(eval answer calm (reconcile row.toCameraPaths record recordChanged) world).1.isOk),
        (eval answer calm (reconcile row.toCameraPaths record recordChanged) world).2) := by
  unfold reconcileCaught
  rw [eval_catching, eval_bind]
  generalize eval answer calm (reconcile row.toCameraPaths record recordChanged) world = ran
  obtain ⟨result, reached⟩ := ran
  cases result with
  | ok value => rfl
  | error error => rfl

variable (row world) in
theorem eval_noteRecording (schedule : CameraScheduleConfig) (previous : Option Bool)
    (shouldRecord : Bool) :
    ∃ after, eval answer calm (noteRecording row schedule previous shouldRecord date) world =
      (.ok (), after) ∧ after.paths = world.paths ∧ after.cameras = world.cameras := by
  unfold noteRecording
  split_ifs
  · exact ⟨_, rfl, rfl, rfl⟩
  · exact ⟨_, rfl, rfl, rfl⟩

/-- A camera's round changes the path table as its reconcile does, and no camera. -/
theorem eval_evaluateCaught (hcamera : world.camera row.id = some camera) :
    ∃ recordChanged after, eval answer calm (evaluateCaught date row) world = (.ok (), after) ∧
      after.paths = (eval answer calm (reconcile row.toCameraPaths
        (shouldRecordToDisk camera.schedule date) recordChanged) world).2.paths ∧
      after.cameras = world.cameras := by
  let shouldRecord := shouldRecordToDisk camera.schedule date
  let previous := world.recordingStates.lookup row.id
  let recordChanged : Bool := previous ≠ some shouldRecord
  have hcameras := cameras_reconcile row.toCameraPaths shouldRecord recordChanged world
  have heval : ∃ value after, eval answer calm (evaluateCamera row date) world =
    (.ok value, after) ∧
      after.paths = (eval answer calm (reconcile row.toCameraPaths shouldRecord recordChanged)
        world).2.paths ∧ after.cameras = world.cameras := by
    unfold evaluateCamera
    rw [bind_eq, eval_bind_of_ok answer calm (eval_getCameraSchedule hcamera)]
    have hread := eval_reconcileCaught row world shouldRecord recordChanged
    simp only [bind_eq, call, request_bind, eval_await]
    rw [show answer (.getRecordingState row.id) (calm (.getRecordingState row.id) world) world =
      (previous, world) from rfl, eval_bind_of_ok answer calm hread]
    generalize eval answer calm (reconcile row.toCameraPaths shouldRecord recordChanged) world = ran
      at hcameras ⊢
    obtain ⟨result, reached⟩ := ran
    cases result with
    | error error => exact ⟨_, _, rfl, rfl, hcameras⟩
    | ok value =>
      obtain ⟨after, hnote, hpaths, hsame⟩ := eval_noteRecording date row reached camera.schedule
        previous shouldRecord
      exact ⟨shouldRecord, after, eval_bind_of_ok answer calm hnote, hpaths, hsame.trans hcameras⟩
  obtain ⟨value, after, hok, hpaths, hsame⟩ := heval
  refine ⟨recordChanged, after, ?_, hpaths, hsame⟩
  unfold evaluateCaught ignoringErrors
  rw [eval_catching, eval_bind, hok]
  rfl

end Evaluate

/-! ### All cameras of it -/

/-- Whether reconciling a camera throws depends on the configuration of its paths only. -/
theorem Reconcilable.of_agrees {row : CameraRecordSummary} {camera : AcceptedCamera}
    (haccepted : row.toCameraPaths = camera.paths) {record : Bool} {world reached : World}
    (hreconcilable : Reconcilable row record world)
    (hagrees : ({ camera, record, recordChanged := false } : Desired).Agrees world reached) :
    Reconcilable row record reached := by
  unfold Reconcilable at *
  rw [haccepted] at *
  intro recordChanged
  let each : Desired := { camera, record, recordChanged }
  have hnot : ¬ each.Refused world :=
    fun hrefused ↦ Desired.ne_ok_of_refused calm hrefused (hreconcilable recordChanged)
  exact Desired.succeeds_of_not_refused fun hrefused ↦ hnot (hrefused.of_agrees hagrees)

/-- A reconcile that returns leaves the record flag it was given. -/
theorem AcceptedCamera.record_mainAfter (camera : AcceptedCamera) (record : Bool)
    (conf : Option PathConfig) :
    ∃ after, camera.mainAfter record conf = some after ∧ after.record = record := by
  obtain ⟨source, hsource⟩ := AcceptedCamera.exists_sanitized camera.rtspUrl_accepted
  have hwanted := wanted_of_ok hsource false record
  unfold AcceptedCamera.mainAfter landed
  cases conf with
  | none => exact ⟨_, hwanted, rfl⟩
  | some conf =>
    dsimp only
    split_ifs
    · exact ⟨_, rfl, rfl⟩
    · exact ⟨_, hwanted, rfl⟩

/-- What the evaluations of some cameras do to the path table. -/
structure Evaluated (date : LocalTime) (rows : List CameraRecordSummary) (world after : World) :
    Prop where
  cameras : after.cameras = world.cameras
  frame : ∀ name, (∀ row ∈ rows, name ≠ row.mediaMtxPath ∧ name ≠ subPathName row.mediaMtxPath) →
    after.conf name = world.conf name
  flags : ∀ row ∈ rows, ∀ camera, world.camera row.id = some camera →
    Reconcilable row (shouldRecordToDisk camera.schedule date) world →
      ∃ conf, after.conf row.mediaMtxPath = some conf ∧
        conf.record = shouldRecordToDisk camera.schedule date

theorem mediaMtxPath_of_accepted {row : CameraRecordSummary} {camera : AcceptedCamera}
    (haccepted : row.toCameraPaths = camera.paths) : row.mediaMtxPath = camera.mediaMtxPath :=
  congrArg CameraPaths.mediaMtxPath haccepted

/-- The paths of a camera are foreign to every camera with another main path. -/
theorem foreign_of_accepted {rows : List CameraRecordSummary}
    (hrows : ∀ row ∈ rows, ∃ camera : AcceptedCamera, row.toCameraPaths = camera.paths)
    (camera : AcceptedCamera) (hne : ∀ row ∈ rows, camera.mediaMtxPath ≠ row.mediaMtxPath) :
    ∀ row ∈ rows,
      (camera.mediaMtxPath ≠ row.mediaMtxPath ∧
        camera.mediaMtxPath ≠ subPathName row.mediaMtxPath) ∧
      camera.subPath ≠ row.mediaMtxPath ∧ camera.subPath ≠ subPathName row.mediaMtxPath := by
  intro row hrow
  obtain ⟨other, haccepted⟩ := hrows row hrow
  have hpath := mediaMtxPath_of_accepted haccepted
  have hneOther : camera.mediaMtxPath ≠ other.mediaMtxPath := hpath ▸ hne row hrow
  rw [hpath]
  exact ⟨⟨hneOther, camera.mediaMtxPath_ne_subPath other⟩,
    (other.mediaMtxPath_ne_subPath camera).symm, camera.subPath_ne_subPath hneOther⟩

theorem eval_evaluations (date : LocalTime) {rows : List CameraRecordSummary}
    (haccepted : ∀ row ∈ rows, ∃ camera : AcceptedCamera, row.toCameraPaths = camera.paths)
    (hdistinct : rows.Pairwise fun first second ↦ first.mediaMtxPath ≠ second.mediaMtxPath)
    {world : World} (hknown : ∀ row ∈ rows, ∃ camera, world.camera row.id = some camera) :
    ∃ after, eval answer calm (rows.foldlM (fun _ row ↦ evaluateCaught date row) ()) world =
      (.ok (), after) ∧ Evaluated date rows world after := by
  induction rows generalizing world with
  | nil => exact ⟨world, rfl, rfl, fun _ _ ↦ rfl, nofun⟩
  | cons row rest ih =>
    obtain ⟨⟨accepted, hpaths⟩, hacceptedRest⟩ := List.forall_mem_cons.mp haccepted
    obtain ⟨hne, hdistinctRest⟩ := List.pairwise_cons.mp hdistinct
    obtain ⟨⟨camera, hcamera⟩, hknownRest⟩ := List.forall_mem_cons.mp hknown
    obtain ⟨recordChanged, between, hround, htable, hcameras⟩ := eval_evaluateCaught date hcamera
    let record := shouldRecordToDisk camera.schedule date
    have hpath := mediaMtxPath_of_accepted hpaths
    have hconf : ∀ name, between.conf name =
        (eval answer calm (reconcile accepted.paths record recordChanged) world).2.conf name := by
      intro name
      rw [World.conf, htable, hpaths]
      rfl
    have hreconciled := accepted.eval_reconcile calm record recordChanged world
    have hforeign := foreign_of_accepted hacceptedRest accepted (hpath ▸ hne)
    have hsame : ∀ other, between.camera other = world.camera other := by
      intro other
      rw [World.camera, hcameras]
      rfl
    have hknownBetween : ∀ other ∈ rest, ∃ camera, between.camera other.id = some camera := by
      intro other hother
      rw [hsame]
      exact hknownRest other hother
    obtain ⟨after, hrest, hevaluated⟩ := ih hacceptedRest hdistinctRest hknownBetween
    refine ⟨after, ?_, hevaluated.cameras.trans hcameras, fun name hforeignName ↦ ?_, ?_⟩
    · rw [List.foldlM_cons]
      exact (eval_bind_of_ok answer calm hround).trans hrest
    · obtain ⟨⟨hmain, hsub⟩, hnames⟩ := List.forall_mem_cons.mp hforeignName
      rw [hevaluated.frame name hnames, hconf]
      exact hreconciled.frame name (hpath ▸ hmain)
        (by rw [AcceptedCamera.subPath, ← hpath]; exact hsub)
    · intro other hother found hfound hreconcilable
      rcases List.mem_cons.mp hother with rfl | hother
      · obtain rfl := Option.some.inj (hcamera.symm.trans hfound)
        have hok := hreconcilable recordChanged
        rw [hpaths] at hok
        rw [hpath, hevaluated.frame _ fun other hother ↦ (hforeign other hother).1, hconf,
          hreconciled.main hok]
        exact accepted.record_mainAfter record _
      · rw [← hsame] at hfound
        refine hevaluated.flags other hother found hfound ?_
        obtain ⟨otherAccepted, hotherPaths⟩ := hacceptedRest other hother
        have hotherPath := mediaMtxPath_of_accepted hotherPaths
        have hapart : otherAccepted.mediaMtxPath ≠ accepted.mediaMtxPath := by
          rw [← hpath, ← hotherPath]
          exact (hne other hother).symm
        refine hreconcilable.of_agrees hotherPaths ⟨?_, ?_⟩
        · rw [hconf]
          exact hreconciled.frame _ hapart (otherAccepted.mediaMtxPath_ne_subPath accepted)
        · rw [hconf]
          exact hreconciled.frame _ (accepted.mediaMtxPath_ne_subPath otherAccepted).symm
            (otherAccepted.subPath_ne_subPath hapart)

/-! ### The sweep at its end -/

theorem mem_decodeNames {listed names : List String} (hnames : decodeNames listed = some names)
    {name : String} (hname : name ∈ names) :
    ∃ entry ∈ listed, ∃ text, decodeURIComponent entry.toList = some text ∧
      name = String.ofList text := by
  unfold decodeNames at hnames
  induction listed generalizing names with
  | nil =>
    obtain rfl := Option.some.inj hnames
    cases hname
  | cons entry rest ih =>
    rw [List.mapM_cons] at hnames
    cases hentry : decodeURIComponent entry.toList with
    | none => simp [hentry] at hnames
    | some text =>
      cases hrest : rest.mapM fun name ↦ (decodeURIComponent name.toList).map String.ofList with
      | none => simp [hentry, hrest] at hnames
      | some others =>
        obtain rfl : String.ofList text :: others = names := by simpa [hentry, hrest] using hnames
        rcases List.mem_cons.mp hname with rfl | hname
        · exact ⟨entry, List.mem_cons_self, text, hentry, rfl⟩
        · obtain ⟨found, hfound, hdecoded⟩ := ih hrest hname
          exact ⟨found, List.mem_cons_of_mem _ hfound, hdecoded⟩

/-- The calls of a sweep that spares a path. -/
def Spares (main : String) : Call → Prop
  | .getLivePreviews | .getOrphanCandidates | .setOrphanCandidates _ => True
  | .deletePath name => name ≠ main
  | _ => False

theorem conf_spares {main : String} {call : Call} (hspares : Spares main call) (outcome : Outcome)
    (world : World) : (answer call outcome world).2.conf main = world.conf main := by
  refine read_answer (fun world ↦ world.conf main) outcome ?_
  cases call with
  | deletePath name => exact conf_drop (Ne.symm hspares) world
  | getLivePreviews => rfl
  | getOrphanCandidates => rfl
  | setOrphanCandidates names => rfl
  | _ => exact hspares.elim

/-- A sweep leaves a path that a camera owns, if it removes no other name under that path's. -/
theorem conf_sweepOrphans (policy : Call → World → Outcome) {cameras : List CameraPaths}
    {main : String}
    (howned : main ∈ ownedPaths cameras) {world : World}
    (hunmasked : ∀ entry ∈ world.paths, ∀ text, decodeURIComponent entry.1.toList = some text →
      cleanName (String.ofList text) = main → String.ofList text = main) :
    (eval answer policy (sweepOrphans cameras) world).2.conf main = world.conf main := by
  have hspare : ∀ call outcome (reached : World), Spares main call →
      reached.conf main = world.conf main →
        (answer call outcome reached).2.conf main = world.conf main :=
    fun call outcome reached hspares hsame ↦ (conf_spares hspares outcome reached).trans hsame
  let listed := (world.paths.map Prod.fst).take 1000
  unfold sweepOrphans
  simp only [bind_eq, call, request_bind, eval_await]
  cases policy .listConfigs world with
  | fail error applied => rfl
  | ok =>
    have hanswer : answer .listConfigs .ok world = (.ok listed, world) := rfl
    rw [hanswer]
    simp only [orThrow_ok, done_bind]
    cases hnames : decodeNames listed with
    | none => rfl
    | some names =>
      refine Uses.eval policy (Uses.bind (Uses.request trivial) fun live ↦ ?_) hspare rfl
      refine Uses.bind (Uses.foldlM fun removed name hname ↦ ?_) fun removed ↦
        Uses.bind (Uses.request trivial) fun _ ↦ trivial
      obtain ⟨hdecoded, hfree⟩ := List.mem_filter.mp hname
      have hclean : cleanName name ≠ main := by
        intro hclean
        obtain ⟨key, hkey, text, htext, rfl⟩ := mem_decodeNames hnames hdecoded
        obtain ⟨entry, hentry, rfl⟩ := List.mem_map.mp (List.mem_of_mem_take hkey)
        rw [hunmasked entry hentry text htext hclean] at hfree
        exact of_decide_eq_true ((Bool.and_eq_true ..).mp hfree).1 howned
      refine Uses.bind (Uses.request trivial) fun candidates ↦ ?_
      split_ifs
      · exact (ignoringErrors_uses (Uses.bind (Uses.request hclean) fun _ ↦ Uses.orThrow)).bind
          fun _ ↦ trivial
      · trivial

/-! ### A tick without failures -/

theorem isPlain_of_isPathName {name : String} (hname : isPathName name = true) : IsPlain name := by
  refine ⟨decodeURIComponent_of_plain fun char hchar ↦ ?_,
    AcceptedCamera.cleanName_of_isPathName hname⟩
  rw [isPathName, Bool.and_eq_true, List.all_eq_true] at hname
  rintro rfl
  exact absurd (hname.2 '%' hchar) (by decide)

theorem mem_paths_iff {name : String} {world : World} :
    world.conf name ≠ none ↔ ∃ entry ∈ world.paths, entry.1 = name := by
  rw [World.conf, Option.ne_none_iff_isSome, List.lookup_isSome_iff]
  constructor
  · rintro ⟨entry, hentry, hname⟩
    exact ⟨entry, hentry, (beq_iff_eq.mp hname).symm⟩
  · rintro ⟨entry, hentry, rfl⟩
    exact ⟨entry, hentry, BEq.rfl⟩

section Tick

variable {world : World} (hrows : CameraRows (world.cameras.map Camera.toCameraRecordSummary))

include hrows

/-- A row of a tick is the row of its camera. -/
theorem camera_of_mem {camera : Camera} (hmem : camera ∈ world.cameras) :
    world.camera camera.id = some camera := by
  have hids : world.cameras.Pairwise fun first second ↦ first.id ≠ second.id := by
    have hmapped := hrows.ids
    rw [List.pairwise_map] at hmapped
    exact hmapped
  unfold World.camera
  clear hrows
  generalize world.cameras = cameras at hmem hids ⊢
  induction cameras with
  | nil => cases hmem
  | cons first rest ih =>
    obtain ⟨hne, hrest⟩ := List.pairwise_cons.mp hids
    rcases List.mem_cons.mp hmem with rfl | hmem
    · exact List.find?_cons_of_pos (by simp)
    · rw [List.find?_cons_of_neg (by simpa using hne camera hmem)]
      exact ih hmem hrest

/-- After the evaluations no path masks a main path, if none did before. -/
theorem Unmasked.evaluated (hunmasked : Unmasked world) {date : LocalTime} {after : World}
    (hevaluated : Evaluated date (world.cameras.map Camera.toCameraRecordSummary) world after) :
    Unmasked after := by
  intro camera hcamera entry hentry text htext hclean
  rw [hevaluated.cameras] at hcamera
  by_cases hown : ∃ row ∈ world.cameras.map Camera.toCameraRecordSummary,
      entry.1 = row.mediaMtxPath ∨ entry.1 = subPathName row.mediaMtxPath
  · obtain ⟨row, hrow, hname⟩ := hown
    obtain ⟨accepted, hpaths⟩ := hrows.accepted row hrow
    have hplain : IsPlain entry.1 := by
      refine isPlain_of_isPathName ?_
      rw [mediaMtxPath_of_accepted hpaths] at hname
      rcases hname with hmain | hsub
      · exact hmain ▸ accepted.isPathName_mediaMtxPath
      · exact hsub ▸ accepted.isPathName_subPath
    obtain rfl := Option.some.inj (hplain.1.symm.trans htext)
    rw [String.ofList_toList] at hclean ⊢
    exact hplain.2.symm.trans hclean
  · have hframe : after.conf entry.1 = world.conf entry.1 := by
      refine hevaluated.frame entry.1 fun row hrow ↦ ⟨fun hmain ↦ ?_, fun hsub ↦ ?_⟩
      · exact hown ⟨row, hrow, Or.inl hmain⟩
      · exact hown ⟨row, hrow, Or.inr hsub⟩
    have hthere := mem_paths_iff.mpr ⟨entry, hentry, rfl⟩
    rw [hframe] at hthere
    obtain ⟨found, hfound, hname⟩ := mem_paths_iff.mp hthere
    exact hunmasked camera hcamera found hfound text (hname ▸ htext) hclean

/-- A tick without failures sets the record flags. -/
theorem eval_evaluateAllCameras (hunmasked : Unmasked world) (date : LocalTime) {camera : Camera}
    (hmem : camera ∈ world.cameras)
    (hreconcilable : Reconcilable camera.toCameraRecordSummary
      (shouldRecordToDisk camera.schedule date) world) :
    ∃ conf, (eval answer calm (evaluateAllCameras date) world).2.conf camera.mediaMtxPath =
        some conf ∧
      conf.record = shouldRecordToDisk camera.schedule date := by
  let rows := world.cameras.map Camera.toCameraRecordSummary
  have hrow : camera.toCameraRecordSummary ∈ rows := List.mem_map_of_mem hmem
  have hknown : ∀ row ∈ rows, ∃ camera, world.camera row.id = some camera := by
    intro row hmem
    obtain ⟨found, hfound, rfl⟩ := List.mem_map.mp hmem
    exact ⟨found, camera_of_mem hrows hfound⟩
  obtain ⟨after, hloop, hevaluated⟩ := eval_evaluations date hrows.accepted hrows.paths hknown
  obtain ⟨conf, hconf, hrecord⟩ :=
    hevaluated.flags _ hrow camera (camera_of_mem hrows hmem) hreconcilable
  refine ⟨conf, ?_, hrecord⟩
  have howned : camera.mediaMtxPath ∈ ownedPaths (rows.map CameraRecordSummary.toCameraPaths) := by
    obtain ⟨accepted, hpaths⟩ := hrows.accepted _ hrow
    refine List.mem_flatMap.mpr ⟨_, List.mem_map_of_mem hrow, List.mem_append_left _ ?_⟩
    have hpath : camera.mediaMtxPath = accepted.mediaMtxPath := mediaMtxPath_of_accepted hpaths
    have hne : camera.mediaMtxPath ≠ "" := by
      intro hempty
      have hname := accepted.isPathName_mediaMtxPath
      rw [← hpath, hempty] at hname
      revert hname
      decide
    simp [truthy, hne]
  have hmasks := (hunmasked.evaluated hrows hevaluated) camera
    (hevaluated.cameras.symm ▸ hmem)
  have hsweep := conf_sweepOrphans calm howned hmasks
  unfold evaluateAllCameras
  simp only [bind_eq, call, request_bind, eval_await]
  have hanswer : answer .listAllCameras (calm .listAllCameras world) world = (.ok rows, world) :=
    rfl
  rw [hanswer]
  simp only [orThrow_ok, done_bind]
  rw [eval_bind_of_ok answer calm hloop]
  unfold ignoringErrors
  rw [eval_catching, eval_bind]
  generalize eval answer calm (sweepOrphans (rows.map CameraRecordSummary.toCameraPaths)) after =
    ran
    at hsweep
  obtain ⟨result, reached⟩ := ran
  rw [← hconf, ← hsweep]
  cases result with
  | ok value => rfl
  | error error => rfl

end Tick

/-! ### Every run -/

/-- In every run in which the evaluations of a camera take turns and no path masks a main path, the
scheduler is consistent. -/
theorem schedulerConsistent_of_takesTurns (run : ScheduleRun TakesTurns Unmasked) :
    SchedulerConsistent run.system := by
  obtain ⟨hemitted, hstates⟩ := run.fresh
  have hnothing : ∀ cameraId, startedEvents cameraId run.world = [] := by
    intro cameraId
    unfold startedEvents
    rw [hemitted]
    rfl
  have hinitial : Remembers (run.world.cameras.map Camera.toCameraRecordSummary) run.world [] := by
    refine ⟨fun cameraId ↦ ?_, fun cameraId ↦ Exclusive.nil ?_, rfl⟩
    · rw [hnothing]
      exact List.isChain_nil
    · rw [hnothing, hstates]
      rfl
  obtain ⟨states, -, hremembers⟩ := run.reached.typed remembers_maintained rfl hinitial
  have hrows : CameraRows (run.system.world.cameras.map Camera.toCameraRecordSummary) := by
    rw [hremembers.rows]
    exact run.rows
  exact
    { alternates := hremembers.alternates
      settles := fun _ date camera hmem hreconcilable ↦
        eval_evaluateAllCameras hrows run.legible date hmem hreconcilable }

/-! A camera that records all the time, and a tick that overlaps with a change of its schedule -/

def gateCamera : AcceptedCamera :=
  { pastedCamera with rtspUrl := "rtsp://gate/", rtspUrl_accepted := by decide }

def gateRow : Camera where
  toCameraPaths := gateCamera.paths
  id := "gate"
  name := "gate"
  schedule := { mode := .continuous, windows := [] }

def gateWorld : World where
  cameras := [gateRow]

/-- The threads in the order in which they go on. Thread 0 reads its cameras and the schedule,
thread 1 saves and reads the schedule; then each reconciles the path and announces that the camera
records. -/
def overlappingTurns : List ℕ := [0, 0, 0, 1, 1, 1, 1, 1, 0, 0, 0, 1, 1, 1]

/-- A tick and a request that overlap: both read that nothing is remembered of the camera, before
either remembers. -/
def overlappingMoves : List (Move Call Reply Failure Outcome EnvironmentChange Party) :=
  .start .tick (evaluateAllCameras midnight) ::
    .start .request ((setCameraSchedule "gate" gateRow.schedule).bind fun _ ↦ done ()) ::
      overlappingTurns.map (.advance · .ok)

def overlappingSystem : ScheduleSystem :=
  runMoves machine.move { threads := [], world := gateWorld } overlappingMoves

theorem reaches_overlappingSystem :
    Reaches machine.move (ScheduleMove fun _ _ _ ↦ True) { threads := [], world := gateWorld }
      overlappingSystem := by
  refine Reaches.refl.run
    ⟨.tick _ nofun, .request _ _, LegalRun.of_forall (fun move hmove system ↦ ?_) _⟩
  obtain ⟨thread, -, rfl⟩ := List.mem_map.mp hmove
  exact .advance _ _ fun _ _ _ ↦
    Machine.ResumeCalls.of_awaited machine (fun _ _ _ ↦ trivial) fun _ _ _ ↦ trivial

theorem startedEvents_overlappingSystem :
    startedEvents "gate" overlappingSystem.world = [true, true] := rfl

/-- Two evaluations of one camera that overlap both announce the same change. -/
theorem not_schedulerConsistent_overlapping :
    ¬ ∀ run : ScheduleRun (fun _ _ _ ↦ True) (fun _ ↦ True), SchedulerConsistent run.system := by
  intro hconsistent
  have hrows : CameraRows (gateWorld.cameras.map Camera.toCameraRecordSummary) := by
    refine ⟨fun row hrow ↦ ?_, List.pairwise_singleton _ _, List.pairwise_singleton _ _⟩
    obtain rfl := List.mem_singleton.mp hrow
    exact ⟨gateCamera, rfl⟩
  let run : ScheduleRun (fun _ _ _ ↦ True) (fun _ ↦ True) :=
    { world := gateWorld
      system := overlappingSystem
      fresh := ⟨rfl, rfl⟩
      rows := hrows
      reached := reaches_overlappingSystem
      legible := trivial }
  have halternates := (hconsistent run).alternates "gate"
  have hsystem : run.system = overlappingSystem := rfl
  rw [hsystem, startedEvents_overlappingSystem] at halternates
  exact (List.isChain_cons_cons.mp halternates).1 rfl

end VmsLite.Media
