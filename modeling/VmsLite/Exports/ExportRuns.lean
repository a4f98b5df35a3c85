import VmsLite.Exports.JobStages

/-!
# Runs of exports and prunes

Exports and prune runs overlap at their awaits, for any cameras and at any instants.
-/

set_option autoImplicit false

namespace VmsLite.Exports

open VmsLite.Async Program

/-! ### Steps -/

inductive Origin
  | create | prune
  deriving DecidableEq, Repr

abbrev ExportSystem := System Call Reply Failure World Origin

/-- The hourly prune run. -/
def hourlyPrune : Async Unit := do
  let now : ℕ ← call .now
  pruneExpiredExports now

inductive ExportStep
  | create (req : CreateExportRequest)
  | prune
  | enforce (simulatedUsageRatio : Option ℚ)
  /-- The call that a thread awaits comes to an end. -/
  | resume (thread : ℕ) (outcome : Outcome)
  /-- The ffmpeg that a thread awaits writes to its output file. -/
  | encoded (thread : ℕ) (content : Content)
  | tick (now : ℕ)

/-- The output file of the ffmpeg that a program awaits. -/
def encodingOutput : Async Unit → Option Path
  | .await (.ffmpeg _ _ _ output) _ => some output
  | _ => none

variable (sha256 : Content → String)

def step (system : ExportSystem) : ExportStep → ExportSystem
  | .create req => (machine sha256).move system (.start .create (createExportJob req))
  | .prune => (machine sha256).move system (.start .prune hourlyPrune)
  | .enforce ratio => (machine sha256).move system (.start .prune (enforceStorageHierarchy ratio))
  | .resume thread outcome => (machine sha256).move system (.advance thread outcome)
  | .encoded thread content =>
    match (system.threads[thread]?).bind fun entry ↦ encodingOutput entry.2 with
    | some output => (machine sha256).move system (.environment (.encoded output content))
    | none => system
  | .tick now => (machine sha256).move system (.environment (.tick now))

/-- No export has been asked for yet. -/
def initial : ExportSystem := { threads := [], world := {} }

abbrev Stages := List (Origin × Stage)

namespace Stage

/-- The output file of the ffmpeg that a thread awaits. -/
def encodes : Stage → Option Path
  | .encoding _ _ output => some output
  | _ => none

theorem encodingOutput_program (stage : Stage) : encodingOutput stage.program = stage.encodes := by
  cases stage with
  | ended result => cases result <;> rfl
  | making temp req => cases temp <;> rfl
  | _ => rfl

/-- The stage that an enforcement of the storage hierarchy begins at. -/
def enforces (world : World) : Option ℚ → Stage
  | some usageRatio => tiers usageRatio world
  | none => .measuringDisk

end Stage

/-- What a step makes of the stages and the world. -/
def ExportStep.apply (stages : Stages) (world : World) : ExportStep → Stages × World
  | .create req => (stages ++ [(.create, .making false req)], world)
  | .prune => (stages ++ [(.prune, .listing world.now false)], world)
  | .enforce ratio => (stages ++ [(.prune, Stage.enforces world ratio)], world)
  | .resume thread outcome =>
    match stages[thread]? with
    | some (tag, stage) =>
      (stages.set thread (tag, (stage.next sha256 outcome world).1),
        (stage.next sha256 outcome world).2)
    | none => (stages, world)
  | .encoded thread content =>
    match (stages[thread]?).bind fun entry ↦ entry.2.encodes with
    | some output => (stages, world.withFile output (some content))
    | none => (stages, world)
  | .tick now => (stages, { world with now := now })

theorem settle_hourlyPrune {world : World} :
    (machine sha256).settle hourlyPrune world =
        (Stage.program (.listing world.now false), world) := by
  have hrest : ((pruneExpiredExports world.now).bind fun _ ↦ thenEmergency false) =
      pruneExpiredExports world.now := Program.bind_done _
  have hprogram : Stage.program (.listing world.now false) = pruneExpiredExports world.now := hrest
  rw [hprogram]
  rfl

theorem settle_enforceStorageHierarchy {world : World} (ratio : Option ℚ) :
    (machine sha256).settle (enforceStorageHierarchy ratio) world =
      ((Stage.enforces world ratio).program, world) := by
  cases ratio with
  | none => rfl
  | some usageRatio => exact settle_enforceTiers usageRatio

theorem step_system {stages : Stages} {world : World} (exportStep : ExportStep) :
    step sha256 ((staging sha256).system stages world) exportStep =
      (staging sha256).system (exportStep.apply sha256 stages world).1
        (exportStep.apply sha256 stages world).2 := by
  cases exportStep with
  | create req => exact Staging.move_start rfl
  | prune => exact Staging.move_start (settle_hourlyPrune sha256)
  | enforce ratio => exact Staging.move_start (settle_enforceStorageHierarchy sha256 ratio)
  | resume thread outcome =>
    unfold ExportStep.apply step
    dsimp only
    cases hstage : stages[thread]? with
    | none => exact Staging.move_advance_none hstage
    | some entry => exact Staging.move_advance hstage
  | encoded thread content =>
    have houtput : ((((staging sha256).system stages world).threads[thread]?).bind
        fun entry ↦ encodingOutput entry.2) = (stages[thread]?).bind fun entry ↦
            entry.2.encodes := by
      rw [Staging.getElem_threads, Option.bind_map]
      exact congrArg _ (funext fun entry ↦ entry.2.encodingOutput_program)
    unfold ExportStep.apply step
    dsimp only
    rw [houtput]
    cases (stages[thread]?).bind fun entry ↦ entry.2.encodes <;> rfl
  | tick now => rfl

end VmsLite.Exports
