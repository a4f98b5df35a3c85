import Mathlib.Tactic.NormNum
import VmsLite.Async.Stages
import VmsLite.Exports.ExportService

/-!
# Where an export and a prune run wait

The stages of the code of a job, from the directories to the terminal status, and of a prune run,
from the listing of the jobs to the last of them.
-/

set_option autoImplicit false

namespace VmsLite.Exports

open VmsLite.Async Program

/-- The call that a thread awaits, or how it ended. A stage of an execution carries the running
job. -/
inductive Stage
  | making (temp : Bool) (req : CreateExportRequest)
  | queuing (req : CreateExportRequest) (job : ExportJobDto)
  | finding (job : ExportJobDto)
  | checking (job : ExportJobDto) (segments : List SegmentInfo) (segment : SegmentInfo)
      (rest : List SegmentInfo)
  | refusing (job : ExportJobDto) (code message : String)
  | starting (job : ExportJobDto) (segments : List SegmentInfo)
  | manifesting (job : ExportJobDto) (segments : List SegmentInfo) (output : Path)
  | naming (job : ExportJobDto) (output : Path)
  | encoding (job : ExportJobDto) (cameraName : String) (output : Path)
  | cleaning (job : ExportJobDto) (output : Path)
  | hashing (job : ExportJobDto) (output : Path)
  | measuring (job : ExportJobDto) (output : Path) (sha256 : String)
  | completing (job : ExportJobDto) (output : Path) (sha256 : String) (size now : ℕ)
  | breaking (job : ExportJobDto) (output : Path) (failure : Failure)
  | measuringDisk
  | listing (now : ℕ) (emergency : Bool)
  | listingUnexpired
  | unlinking (path : Path) (id : JobId) (rest : List ExportJobDto) (emergency : Bool)
  | fetching (id : JobId) (rest : List ExportJobDto) (emergency : Bool)
  | expiring (job : ExportJobDto) (rest : List ExportJobDto) (emergency : Bool)
  | ended (result : Except Failure Unit)

namespace World

/-- An id is drawn. -/
def drawn (world : World) : World := { world with slots := world.slots ++ [none] }

def named (world : World) (id : JobId) (path : Path) : World :=
  { world with outputs := Function.update world.outputs id (some path) }

def withFile (world : World) (path : Path) (content : Option Content) : World :=
  { world with files := Function.update world.files path content }

end World

/-- The failures of an execution make its job fail. -/
def guarded (job : ExportJobDto) (program : Async Unit) : Async Unit :=
  program.catching fun failure ↦ persistJob (job.broken failure)

/-- What follows on the prune of the expired exports. -/
def thenEmergency (emergency : Bool) : Async Unit := if emergency then emergencyPrune else pure ()

namespace Stage

def program : Stage → Async Unit
  | .making false req => createExportJob req
  | .making true req => do
      orThrow (← call (.mkdir true))
      createIn req
  | .queuing req job => do
      persistJob job
      gather req job
  | .finding job => do
      let segments ← findSegments job
      admitJob job segments
  | .checking job segments segment rest => do
      let validation ← validateFrom job.id segments (segment :: rest)
      judge job segments validation
  | .refusing job code message => refuse job code message
  | .starting job segments => do
      persistJob job
      runExport job segments
  | .manifesting job segments output => guarded job (encode job segments output)
  | .naming job output => guarded job do
      let camera : Option String ← orThrow (← call (.getCamera job.id job.cameraId))
      transcode job (camera.getD "Camera") output
  | .encoding job cameraName output => guarded job (transcode job cameraName output)
  | .cleaning job output => guarded job do
      let _ ← call (.unlinkManifest job.id)
      finishExport job output
  | .hashing job output => guarded job (finishExport job output)
  | .measuring job output sha256 => guarded job do
      let size : ℕ ← orThrow (← call (.stat job.id output))
      let now : ℕ ← call .now
      persistJob (job.finished output sha256 size now)
  | .completing job output sha256 size now =>
    guarded job (persistJob (job.finished output sha256 size now))
  | .breaking job _ failure => persistJob (job.broken failure)
  | .measuringDisk => enforceStorageHierarchy none
  | .listing now emergency => do
      pruneExpiredExports now
      thenEmergency emergency
  | .listingUnexpired => emergencyPrune
  | .unlinking path id rest emergency => do
      (do
        unlinkFile (some path)
        updateJobStatus id
        pruneJobs rest)
      thenEmergency emergency
  | .fetching id rest emergency => do
      (do
        updateJobStatus id
        pruneJobs rest)
      thenEmergency emergency
  | .expiring job rest emergency => do
      (do
        persistJob { job with status := .expired }
        pruneJobs rest)
      thenEmergency emergency
  | .ended (.ok ()) => done ()
  | .ended (.error failure) => failed failure

/-! ### From stage to stage -/

/-- An execution starts. -/
def starts (job : ExportJobDto) (segments : List SegmentInfo) (world : World) : Stage :=
  .starting (job.started world.now) segments

def judged (job : ExportJobDto) (segments : List SegmentInfo) (world : World)
    (validation : ExportCompatibilityResult) : Stage :=
  if validation.compatible then starts job segments world
  else
    .refusing job ((validation.errorCode.filter (· ≠ "")).getD "INCOMPATIBLE_SEGMENTS")
      ((validation.message.filter (· ≠ "")).getD
        "Segments are incompatible for zero-transcode stream copy.")

/-- The gate, with the files of some segments still to check. -/
def checks (job : ExportJobDto) (segments : List SegmentInfo) (world : World) :
    List SegmentInfo → Stage
  | [] => judged job segments world (checkSegments segments)
  | segment :: rest => .checking job segments segment rest

def admits (job : ExportJobDto) (segments : List SegmentInfo) (world : World) : Stage :=
  if segments = [] then .refusing job "NO_RECORDINGS_FOUND" noRecordings
  else if job.exportMode = .streamCopy then checks job segments world segments
  else starts job segments world

def gathers (req : CreateExportRequest) (job : ExportJobDto) (world : World) : Stage :=
  if req.customSegments = [] then .finding job else admits job req.customSegments world

/-- The first step on a job that is pruned. -/
def pruning (id : JobId) (rest : List ExportJobDto) (emergency : Bool) : Option Path → Stage
  | some path => .unlinking path id rest emergency
  | none => .fetching id rest emergency

/-- A prune run with jobs left. -/
def prunes (emergency : Bool) : List ExportJobDto → Stage
  | [] => if emergency then .listingUnexpired else .ended (.ok ())
  | job :: rest => pruning job.id rest emergency (job.filePath.filter (· ≠ ""))

/-- The tiers of a usage ratio. -/
def tiers (usageRatio : ℚ) (world : World) : Stage :=
  if exportPruneThreshold ≤ usageRatio then .listing world.now (emergencyThreshold ≤ usageRatio)
  else .ended (.ok ())

variable (sha256 : Content → String)

def next (outcome : Outcome) (world : World) : Stage → Stage × World
  | .making false req =>
    match outcome.failure with
    | some failure => (.ended (.error failure), world)
    | none => (.making true req, world)
  | .making true req =>
    match outcome.failure with
    | some failure => (.ended (.error failure), world)
    | none => (.queuing req (req.initialJob world.slots.length world.now), world.drawn)
  | .queuing req job =>
    match outcome.persists job with
    | .error failure => (.ended (.error failure), world)
    | .ok () => (gathers req job (world.upsert job), world.upsert job)
  | .finding job =>
    match outcome.failure with
    | some failure => (.ended (.error failure), world)
    | none => (admits job outcome.segments world, world)
  | .checking job segments segment rest =>
    match outcome.failure with
    | some failure => (.ended (.error failure), world)
    | none =>
      if outcome.found then (checks job segments world rest, world)
      else
        (judged job segments world
          (incompatible s!"Recording segment file not found on disk: {segment.filePath}"), world)
  | .refusing job code message =>
    (.ended (.error { code := some code, message := message }),
      world.upsert (job.refused code message))
  | .starting job segments =>
    match outcome.persists job with
    | .error failure => (.ended (.error failure), world)
    | .ok () =>
      let output := outputFileName job.cameraId world.now
      (.manifesting job segments output, (world.upsert job).named job.id output)
  | .manifesting job _ output =>
    match outcome.failure with
    | some failure => (.breaking job output failure, world)
    | none =>
      if job.exportMode = .transcodedOsd then (.naming job output, world)
      else (.encoding job "Camera" output, world)
  | .naming job output =>
    match outcome.failure with
    | some failure => (.breaking job output failure, world)
    | none => (.encoding job (outcome.cameraName.getD "Camera") output, world)
  | .encoding job _ output =>
    match outcome.failure with
    | some failure => (.breaking job output failure, world.withFile output outcome.output)
    | none => (.cleaning job output, world.withFile output outcome.output)
  | .cleaning job output => (.hashing job output, world)
  | .hashing job output =>
    match outcome.ofFile sha256 (world.files output) with
    | .error failure => (.breaking job output failure, world)
    | .ok digest => (.measuring job output digest, world)
  | .measuring job output digest =>
    match outcome.ofFile List.length (world.files output) with
    | .error failure => (.breaking job output failure, world)
    | .ok size => (.completing job output digest size world.now, world)
  | .completing job output digest size now =>
    (.ended (.ok ()), world.upsert (job.finished output digest size now))
  | .breaking job _ failure => (.ended (.ok ()), world.upsert (job.broken failure))
  | .measuringDisk => (tiers outcome.usageRatio world, world)
  | .listing now emergency =>
    (prunes emergency (world.listJobs.filter fun job ↦ job.isExpired now), world)
  | .listingUnexpired => (prunes false (unexpired world.listJobs world.now), world)
  | .unlinking path id rest emergency =>
    match outcome.ofFile (fun _ ↦ ()) (world.files path) with
    | .ok () => (.fetching id rest emergency, world.withFile path none)
    | .error _ => (.fetching id rest emergency, world)
  | .fetching id rest emergency =>
    match world.job id with
    | some job => (.expiring (World.mapPrismaJob job) rest emergency, world)
    | none => (prunes emergency rest, world)
  | .expiring job rest emergency =>
    (prunes emergency rest, world.upsert { job with status := .expired })
  | .ended result => (.ended result, world)

end Stage

section Settle

variable {sha256 : Content → String} {world : World} {job : ExportJobDto}

theorem settle_judge (segments : List SegmentInfo) (validation : ExportCompatibilityResult) :
    (machine sha256).settle (judge job segments validation) world =
      ((Stage.judged job segments world validation).program, world) := by
  unfold judge Stage.judged
  split_ifs with hcompatible <;> rfl

theorem settle_validateFrom (segments rest : List SegmentInfo) :
    (machine sha256).settle ((validateFrom job.id segments rest).bind (judge job segments)) world =
      ((Stage.checks job segments world rest).program, world) := by
  cases rest with
  | nil => exact settle_judge segments _
  | cons segment rest => rfl

theorem settle_admitJob (segments : List SegmentInfo) :
    (machine sha256).settle (admitJob job segments) world =
      ((Stage.admits job segments world).program, world) := by
  unfold admitJob Stage.admits
  split_ifs
  · rfl
  · exact settle_validateFrom segments segments
  · rfl

theorem settle_gather (req : CreateExportRequest) :
    (machine sha256).settle (gather req job) world =
      ((Stage.gathers req job world).program, world) := by
  unfold gather Stage.gathers
  split_ifs
  · rfl
  · exact settle_admitJob req.customSegments

theorem settle_unlinkFile (emergency : Bool) (id : JobId) (rest : List ExportJobDto)
    (path : Option Path) :
    (machine sha256).settle
        (((unlinkFile path).bind fun _ ↦ (updateJobStatus id).bind fun _ ↦ pruneJobs rest).bind
          fun _ ↦ thenEmergency emergency) world =
      ((Stage.pruning id rest emergency path).program, world) := by
  cases path <;> rfl

theorem settle_pruneJobs (emergency : Bool) (jobs : List ExportJobDto) :
    (machine sha256).settle ((pruneJobs jobs).bind fun _ ↦ thenEmergency emergency) world =
      ((Stage.prunes emergency jobs).program, world) := by
  cases jobs with
  | nil => cases emergency <;> rfl
  | cons job rest => exact settle_unlinkFile emergency job.id rest _

theorem settle_enforceTiers (usageRatio : ℚ) :
    (machine sha256).settle (enforceTiers usageRatio) world =
      ((Stage.tiers usageRatio world).program, world) := by
  unfold Stage.tiers
  by_cases hprune : exportPruneThreshold ≤ usageRatio
  · have htiers : enforceTiers usageRatio = (call .now).bind fun now : ℕ ↦
        (pruneExpiredExports now).bind fun _ ↦ thenEmergency (emergencyThreshold ≤ usageRatio) := by
      unfold enforceTiers thenEmergency
      rw [if_pos hprune]
      simp only [decide_eq_true_eq]
      rfl
    rw [if_pos hprune, htiers]
    rfl
  · have hemergency : ¬ emergencyThreshold ≤ usageRatio := by
      intro hle
      refine hprune (le_trans ?_ hle)
      unfold exportPruneThreshold emergencyThreshold
      norm_num
    have htiers : enforceTiers usageRatio = done () := by
      unfold enforceTiers
      rw [if_neg hprune, if_neg hemergency]
      rfl
    rw [if_neg hprune, htiers]
    rfl

/-- A write with a terminal status does not fail. -/
theorem persists_of_isTerminal {outcome : Outcome} (hterminal : job.status.isTerminal = true) :
    outcome.persists job = .ok () := if_pos hterminal

theorem answer_persist_of_isTerminal {outcome : Outcome}
    (hterminal : job.status.isTerminal = true) :
    answer sha256 (.persist job) outcome world = (.ok (), world.upsert job) := by
  simp only [answer, persists_of_isTerminal hterminal]

end Settle

section Resume

variable {sha256 : Content → String} {world : World} {outcome : Outcome} {job : ExportJobDto}

theorem resume_making (req : CreateExportRequest) (temp : Bool) :
    (machine sha256).resume outcome (Stage.program (.making temp req)) world =
      (Stage.program (Stage.next sha256 outcome world (.making temp req)).1,
        (Stage.next sha256 outcome world (.making temp req)).2) := by
  obtain ⟨failure, segments, found, cameraName, output, usageRatio⟩ := outcome
  cases temp <;> cases failure <;> rfl

theorem resume_queuing (req : CreateExportRequest) :
    (machine sha256).resume outcome (Stage.program (.queuing req job)) world =
      (Stage.program (Stage.next sha256 outcome world (.queuing req job)).1,
        (Stage.next sha256 outcome world (.queuing req job)).2) := by
  have hresume : (machine sha256).resume outcome (Stage.program (.queuing req job)) world =
      (machine sha256).settle
        ((orThrow (answer sha256 (.persist job) outcome world).1).bind fun _ ↦ gather req job)
        (answer sha256 (.persist job) outcome world).2 := rfl
  rw [hresume]
  simp only [answer, Stage.next]
  cases outcome.persists job with
  | error failure => rfl
  | ok persisted => exact settle_gather req

theorem resume_starting (segments : List SegmentInfo) :
    (machine sha256).resume outcome (Stage.program (.starting job segments)) world =
      (Stage.program (Stage.next sha256 outcome world (.starting job segments)).1,
        (Stage.next sha256 outcome world (.starting job segments)).2) := by
  have hresume : (machine sha256).resume outcome (Stage.program (.starting job segments)) world =
      (machine sha256).settle
        ((orThrow (answer sha256 (.persist job) outcome world).1).bind fun _ ↦
          runExport job segments)
        (answer sha256 (.persist job) outcome world).2 := rfl
  rw [hresume]
  simp only [answer, Stage.next]
  cases outcome.persists job <;> rfl

theorem resume_finding :
    (machine sha256).resume outcome (Stage.program (.finding job)) world =
      (Stage.program (Stage.next sha256 outcome world (.finding job)).1,
        (Stage.next sha256 outcome world (.finding job)).2) := by
  obtain ⟨failure, segments, found, cameraName, output, usageRatio⟩ := outcome
  cases failure with
  | some failure => rfl
  | none => exact settle_admitJob segments

theorem resume_checking (segments : List SegmentInfo) (segment : SegmentInfo)
    (rest : List SegmentInfo) :
    (machine sha256).resume outcome (Stage.program (.checking job segments segment rest)) world =
      (Stage.program (Stage.next sha256 outcome world (.checking job segments segment rest)).1,
        (Stage.next sha256 outcome world (.checking job segments segment rest)).2) := by
  obtain ⟨failure, candidates, found, cameraName, output, usageRatio⟩ := outcome
  cases failure with
  | some failure => rfl
  | none =>
    cases found with
    | true => exact settle_validateFrom segments rest
    | false =>
      exact settle_judge segments
        (incompatible s!"Recording segment file not found on disk: {segment.filePath}")

theorem resume_manifesting (segments : List SegmentInfo) (output : Path) :
    (machine sha256).resume outcome (Stage.program (.manifesting job segments output)) world =
      (Stage.program (Stage.next sha256 outcome world (.manifesting job segments output)).1,
        (Stage.next sha256 outcome world (.manifesting job segments output)).2) := by
  obtain ⟨failure, candidates, found, cameraName, left, usageRatio⟩ := outcome
  cases failure with
  | some failure => rfl
  | none =>
    have hresume : (machine sha256).resume
          { segments := candidates, found, cameraName, output := left, usageRatio }
          (Stage.program (.manifesting job segments output)) world =
        (machine sha256).settle (guarded job
          (if job.exportMode = .transcodedOsd then
            (call (.getCamera job.id job.cameraId)).bind fun reply ↦ (orThrow reply).bind
              fun camera : Option String ↦ transcode job (camera.getD "Camera") output
          else transcode job "Camera" output)) world := rfl
    rw [hresume]
    unfold Stage.next
    dsimp only
    split_ifs <;> rfl

theorem resume_naming (output : Path) :
    (machine sha256).resume outcome (Stage.program (.naming job output)) world =
      (Stage.program (Stage.next sha256 outcome world (.naming job output)).1,
        (Stage.next sha256 outcome world (.naming job output)).2) := by
  obtain ⟨failure, segments, found, cameraName, left, usageRatio⟩ := outcome
  cases failure <;> rfl

theorem resume_encoding (cameraName : String) (output : Path) :
    (machine sha256).resume outcome (Stage.program (.encoding job cameraName output)) world =
      (Stage.program (Stage.next sha256 outcome world (.encoding job cameraName output)).1,
        (Stage.next sha256 outcome world (.encoding job cameraName output)).2) := by
  obtain ⟨failure, segments, found, name, left, usageRatio⟩ := outcome
  cases failure <;> rfl

theorem resume_hashing (output : Path) :
    (machine sha256).resume outcome (Stage.program (.hashing job output)) world =
      (Stage.program (Stage.next sha256 outcome world (.hashing job output)).1,
        (Stage.next sha256 outcome world (.hashing job output)).2) := by
  have hresume : (machine sha256).resume outcome (Stage.program (.hashing job output)) world =
      (machine sha256).settle (guarded job
        ((orThrow (outcome.ofFile sha256 (world.files output))).bind fun digest ↦
          (call (.stat job.id output)).bind fun reply ↦ (orThrow reply).bind fun size : ℕ ↦
            (call .now).bind fun now : ℕ ↦ persistJob (job.finished output digest size now)))
              world := rfl
  rw [hresume]
  simp only [Stage.next]
  cases outcome.ofFile sha256 (world.files output) <;> rfl

theorem resume_measuring (output : Path) (digest : String) :
    (machine sha256).resume outcome (Stage.program (.measuring job output digest)) world =
      (Stage.program (Stage.next sha256 outcome world (.measuring job output digest)).1,
        (Stage.next sha256 outcome world (.measuring job output digest)).2) := by
  have hresume : (machine sha256).resume outcome (Stage.program (.measuring job output digest))
    world =
      (machine sha256).settle (guarded job
        ((orThrow (outcome.ofFile List.length (world.files output))).bind fun size ↦
          (call .now).bind fun now : ℕ ↦ persistJob (job.finished output digest size now)))
            world := rfl
  rw [hresume]
  simp only [Stage.next]
  cases outcome.ofFile List.length (world.files output) <;> rfl

theorem resume_completing (output : Path) (digest : String) (size now : ℕ) :
    (machine sha256).resume outcome (Stage.program (.completing job output digest size now)) world =
      (done (), world.upsert (job.finished output digest size now)) := by
  have hresume :
      (machine sha256).resume outcome (Stage.program (.completing job output digest size now))
        world =
        (machine sha256).settle (guarded job (orThrow
          (answer sha256 (.persist (job.finished output digest size now)) outcome world).1))
          (answer sha256 (.persist (job.finished output digest size now)) outcome world).2 := rfl
  rw [hresume, answer_persist_of_isTerminal rfl]
  rfl

theorem resume_breaking (output : Path) (failure : Failure) :
    (machine sha256).resume outcome (Stage.program (.breaking job output failure)) world =
      (done (), world.upsert (job.broken failure)) := by
  have hresume : (machine sha256).resume outcome (Stage.program (.breaking job output failure))
    world =
      (machine sha256).settle (orThrow
        (answer sha256 (.persist (job.broken failure)) outcome world).1)
        (answer sha256 (.persist (job.broken failure)) outcome world).2 := rfl
  rw [hresume, answer_persist_of_isTerminal rfl]
  rfl

theorem resume_refusing (code message : String) :
    (machine sha256).resume outcome (Stage.program (.refusing job code message)) world =
      (failed { code := some code, message := message },
          world.upsert (job.refused code message)) := by
  have hresume : (machine sha256).resume outcome (Stage.program (.refusing job code message))
    world =
      (machine sha256).settle ((orThrow
        (answer sha256 (.persist (job.refused code message)) outcome world).1).bind fun _ ↦
          orThrow (.error { code := some code, message := message }))
        (answer sha256 (.persist (job.refused code message)) outcome world).2 := rfl
  rw [hresume, answer_persist_of_isTerminal rfl]
  rfl

theorem resume_listing (now : ℕ) (emergency : Bool) :
    (machine sha256).resume outcome (Stage.program (.listing now emergency)) world =
      (Stage.program (Stage.next sha256 outcome world (.listing now emergency)).1,
        (Stage.next sha256 outcome world (.listing now emergency)).2) :=
  settle_pruneJobs emergency _

theorem resume_listingUnexpired :
    (machine sha256).resume outcome (Stage.program .listingUnexpired) world =
      (Stage.program (Stage.next sha256 outcome world .listingUnexpired).1,
        (Stage.next sha256 outcome world .listingUnexpired).2) := by
  have hprune := @settle_pruneJobs sha256 world false (unexpired world.listJobs world.now)
  have hrest : ((pruneJobs (unexpired world.listJobs world.now)).bind fun _ ↦ thenEmergency false) =
      pruneJobs (unexpired world.listJobs world.now) := Program.bind_done _
  rw [hrest] at hprune
  exact hprune

theorem resume_unlinking (path : Path) (id : JobId) (rest : List ExportJobDto) (emergency : Bool) :
    (machine sha256).resume outcome (Stage.program (.unlinking path id rest emergency)) world =
      (Stage.program (Stage.next sha256 outcome world (.unlinking path id rest emergency)).1,
        (Stage.next sha256 outcome world (.unlinking path id rest emergency)).2) := by
  have hresume :
      (machine sha256).resume outcome (Stage.program (.unlinking path id rest emergency)) world =
        (Stage.program (.fetching id rest emergency),
          (answer sha256 (.unlink path) outcome world).2) := rfl
  rw [hresume]
  simp only [answer, Stage.next]
  cases outcome.ofFile (fun _ ↦ ()) (world.files path) <;> rfl

theorem resume_fetching (id : JobId) (rest : List ExportJobDto) (emergency : Bool) :
    (machine sha256).resume outcome (Stage.program (.fetching id rest emergency)) world =
      (Stage.program (Stage.next sha256 outcome world (.fetching id rest emergency)).1,
        (Stage.next sha256 outcome world (.fetching id rest emergency)).2) := by
  have hresume :
      (machine sha256).resume outcome (Stage.program (.fetching id rest emergency)) world =
        (machine sha256).settle
          (((markExpired ((world.job id).map World.mapPrismaJob)).bind fun _ ↦ pruneJobs rest).bind
            fun _ ↦ thenEmergency emergency) world := rfl
  rw [hresume]
  simp only [Stage.next]
  cases world.job id with
  | none => exact settle_pruneJobs emergency rest
  | some job => rfl

theorem resume_expiring (rest : List ExportJobDto) (emergency : Bool) :
    (machine sha256).resume outcome (Stage.program (.expiring job rest emergency)) world =
      (Stage.program (Stage.next sha256 outcome world (.expiring job rest emergency)).1,
        (Stage.next sha256 outcome world (.expiring job rest emergency)).2) := by
  have hresume : (machine sha256).resume outcome (Stage.program (.expiring job rest emergency))
    world =
      (machine sha256).settle (((orThrow
        (answer sha256 (.persist { job with status := .expired }) outcome world).1).bind fun _ ↦
          pruneJobs rest).bind fun _ ↦ thenEmergency emergency)
        (answer sha256 (.persist { job with status := .expired }) outcome world).2 := rfl
  rw [hresume, answer_persist_of_isTerminal rfl]
  exact settle_pruneJobs emergency rest

end Resume

def staging (sha256 : Content → String) : Staging (machine sha256) Failure Stage where
  program := Stage.program
  next := fun stage outcome world ↦ stage.next sha256 outcome world
  resume_program := by
    intro stage outcome world
    cases stage with
    | making temp req => exact resume_making req temp
    | queuing req job => exact resume_queuing req
    | finding job => exact resume_finding
    | checking job segments segment rest => exact resume_checking segments segment rest
    | refusing job code message => exact resume_refusing code message
    | starting job segments => exact resume_starting segments
    | manifesting job segments output => exact resume_manifesting segments output
    | naming job output => exact resume_naming output
    | encoding job cameraName output => exact resume_encoding cameraName output
    | cleaning job output => rfl
    | hashing job output => exact resume_hashing output
    | measuring job output digest => exact resume_measuring output digest
    | completing job output digest size now => exact resume_completing output digest size now
    | breaking job output failure => exact resume_breaking output failure
    | measuringDisk => exact settle_enforceTiers outcome.usageRatio
    | listing now emergency => exact resume_listing now emergency
    | listingUnexpired => exact resume_listingUnexpired
    | unlinking path id rest emergency => exact resume_unlinking path id rest emergency
    | fetching id rest emergency => exact resume_fetching id rest emergency
    | expiring job rest emergency => exact resume_expiring rest emergency
    | ended result => cases result <;> rfl

end VmsLite.Exports
