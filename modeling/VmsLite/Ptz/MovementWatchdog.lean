import VmsLite.Async.Stages
import VmsLite.Ptz.PtzService

/-!
# The watchdog of a moving camera

Calls of `move` and `stop` for one camera and the callbacks of its watchdogs overlap at their
awaits. A run keeps the movement covered in every state it goes through just when every step of it
is careful (`coversMovement_iff`): no move is accepted while a watchdog is pending, no watchdog
callback ends while a newer watchdog is pending, and no call fails that leaves a moving camera
without a watchdog.
-/

set_option autoImplicit false

namespace VmsLite.Ptz

open VmsLite.Async Program

/-! ### Runs -/

/-- What a thread is: a call of `move` or of `stop`, or a watchdog that fired. -/
inductive Origin
  | move | stop | watchdog
  deriving DecidableEq, Repr

abbrev PtzSystem := System Call Reply PtzError World Origin

inductive PtzStep
  | move (velocity : PtzVelocity)
  | stop
  | fire (timer : TimerId)
  /-- The call that a thread awaits comes to an end. -/
  | resume (thread : ℕ) (outcome : Outcome)
  deriving DecidableEq, Repr

/-- A timer fires while it is pending. -/
def step (cameraId : CameraId) (system : PtzSystem) : PtzStep → PtzSystem
  | .move velocity => machine.move system (.start .move (ignoringResult (move cameraId velocity)))
  | .stop => machine.move system (.start .stop (ignoringResult (stop cameraId)))
  | .fire timer =>
    if timer ∈ system.world.pending then
      machine.move system (.start .watchdog (watchdogFires cameraId timer))
    else system
  | .resume thread outcome => machine.move system (.advance thread outcome)

/-- No call has been made yet. -/
def initial : PtzSystem := { threads := [], world := {} }

/-- The last command that the camera accepted is a move. -/
def World.isMoving (world : World) : Bool :=
  match world.lastCommand with
  | some (.move _) => true
  | _ => false

/-- A moving camera has a watchdog as soon as no call is in flight; and one watchdog at most is
pending, the one that `clearWatchdog` would cancel. -/
structure CoversMovement (system : PtzSystem) : Prop where
  covered : system.world.isMoving = true → (∀ thread ∈ system.threads, thread.2.isOver = true) →
    system.world.pending ≠ []
  single : system.world.pending.length ≤ 1
  known : ∀ timer ∈ system.world.pending, system.world.activeWatchdog = some timer

/-! ### The condition -/

/-- An awaited call ends in a way that makes the service throw. -/
def Fails (outcome : Outcome) : Call → Prop
  | .findCamera cameraId => outcome.error ≠ none ∨
      ∃ error, connectionParams cameraId outcome.row = .error error
  | _ => outcome.error ≠ none

/-- No move is accepted while a watchdog is pending, no callback of a watchdog ends while a watchdog
is pending, and no call that fails is the last one in flight while the camera moves and no watchdog
is pending. -/
structure IsCareful (system : PtzSystem) (thread : ℕ) (outcome : Outcome) : Prop where
  accepted : ∀ tag params moveParams profileToken next,
    system.threads[thread]? = some (tag, .await (.ptzMove params moveParams profileToken) next) →
      outcome.error = none → system.world.pending = []
  ended : ∀ call next, system.threads[thread]? = some (.watchdog, .await call next) →
    (Fails outcome call ∨ ∃ params profileToken, call = .ptzStop params profileToken) →
      system.world.pending = []
  failed : ∀ tag call next, system.threads[thread]? = some (tag, .await call next) →
    Fails outcome call → system.world.isMoving = true → system.world.pending ≠ [] ∨
      ∃ other ∈ system.threads.eraseIdx thread, other.2.isOver = false

/-- Only the end of an awaited call can be careless. -/
def PtzStep.IsCareful (system : PtzSystem) : PtzStep → Prop
  | .resume thread outcome => Ptz.IsCareful system thread outcome
  | _ => True

/-! ### Where a call waits -/

/-- The call that a thread awaits, or how it ended. -/
inductive Stage
  | findForMove (velocity : PtzVelocity)
  | moving (params : CameraConnectionParams) (velocity : PtzVelocity) (profileToken : Option String)
  | findForStop
  | stopping (params : CameraConnectionParams) (profileToken : Option String)
  | findForWatchdog
  | watchdogStopping (params : CameraConnectionParams) (profileToken : Option String)
  | ended (result : Except PtzError Unit)

/-- `setTimeout` of a watchdog. -/
def World.arm (world : World) : World :=
  { world with
    activeWatchdog := some world.nextTimer
    pending := world.pending ++ [world.nextTimer]
    nextTimer := world.nextTimer + 1 }

def World.clear (world : World) : World :=
  match world.activeWatchdog with
  | some existing =>
    { world with
      activeWatchdog := none
      pending := world.pending.filter (· ≠ existing) }
  | none => world

def World.delete (world : World) : World := { world with activeWatchdog := none }

namespace Stage

variable (cameraId : CameraId)

def program : Stage → Async Unit
  | .findForMove velocity => ignoringResult (move cameraId velocity)
  | .moving params velocity profileToken => ignoringResult do
      orThrow (← call (.ptzMove params (moveParams velocity) profileToken))
      let timer ← call .setTimeout
      call (.setWatchdog timer)
      return { success := true, moving := true }
  | .findForStop => ignoringResult do
      let (params, profileToken) ← getConnectionParams cameraId
      orThrow (← call (.ptzStop params profileToken))
      return { success := true, moving := false }
  | .stopping params profileToken => ignoringResult do
      orThrow (← call (.ptzStop params profileToken))
      return { success := true, moving := false }
  | .findForWatchdog => do
      (ignoringResult do
        let (params, profileToken) ← getConnectionParams cameraId
        orThrow (← call (.ptzStop params profileToken))
        return { success := true, moving := false }).catching fun _ ↦ pure ()
      call .deleteWatchdog
  | .watchdogStopping params profileToken => do
      (ignoringResult do
        orThrow (← call (.ptzStop params profileToken))
        return { success := true, moving := false }).catching fun _ ↦ pure ()
      call .deleteWatchdog
  | .ended (.ok ()) => done ()
  | .ended (.error error) => failed error

/-- A lookup and what the service makes of the row. -/
def lookup (outcome : Outcome) : Except PtzError (CameraConnectionParams × Option String) :=
  outcome.found.bind (connectionParams cameraId)

def next (outcome : Outcome) (world : World) : Stage → Stage × World
  | .findForMove velocity =>
    match lookup cameraId outcome with
    | .ok (params, profileToken) => (.moving params velocity profileToken, world.clear)
    | .error error => (.ended (.error error), world)
  | .moving _ velocity _ =>
    match outcome.error with
    | none => (.ended (.ok ()), (world.accept outcome (.move (moveParams velocity))).arm)
    | some error => (.ended (.error error), world)
  | .findForStop =>
    match lookup cameraId outcome with
    | .ok (params, profileToken) => (.stopping params profileToken, world)
    | .error error => (.ended (.error error), world)
  | .stopping _ _ =>
    match outcome.error with
    | none => (.ended (.ok ()), world.accept outcome .stop)
    | some error => (.ended (.error error), world)
  | .findForWatchdog =>
    match lookup cameraId outcome with
    | .ok (params, profileToken) => (.watchdogStopping params profileToken, world)
    | .error _ => (.ended (.ok ()), world.delete)
  | .watchdogStopping _ _ => (.ended (.ok ()), (world.accept outcome .stop).delete)
  | .ended result => (.ended result, world)

end Stage

theorem settle_clearWatchdog (world : World) :
    machine.settle clearWatchdog world = (done (), world.clear) := by
  unfold World.clear
  simp only [clearWatchdog, Machine.settle, machine, bind_eq, request_bind, Program.settle,
    Call.isAwaited, answer, Bool.not_false, if_true]
  cases world.activeWatchdog with
  | none => rfl
  | some existing => rfl

section Resume

variable (cameraId : CameraId) {α : Type}
  (rest : CameraConnectionParams × Option String → Async α) (outcome : Outcome) (world : World)

/-- A program goes on, or throws, when the lookup it begins with comes to its end. -/
theorem resume_getConnectionParams :
    machine.resume outcome ((getConnectionParams cameraId).bind rest) world =
      match Stage.lookup cameraId outcome with
      | .ok found => machine.settle (rest found) world
      | .error error => (failed error, world) := by
  obtain ⟨row, error⟩ := outcome
  cases error with
  | some error => rfl
  | none =>
    show machine.settle ((orThrow (connectionParams cameraId row)).bind rest) world =
      match connectionParams cameraId row with
      | .ok found => machine.settle (rest found) world
      | .error error => (failed error, world)
    cases connectionParams cameraId row <;> rfl

theorem resume_getConnectionParams_catching (handler : PtzError → Async α) (last : α → Async Unit) :
    machine.resume outcome
        ((((getConnectionParams cameraId).bind rest).catching handler).bind last) world =
      match Stage.lookup cameraId outcome with
      | .ok found => machine.settle (((rest found).catching handler).bind last) world
      | .error error => machine.settle ((handler error).bind last) world := by
  obtain ⟨row, error⟩ := outcome
  cases error with
  | some error => rfl
  | none =>
    show machine.settle
        ((((orThrow (connectionParams cameraId row)).bind rest).catching handler).bind last) world =
      match connectionParams cameraId row with
      | .ok found => machine.settle (((rest found).catching handler).bind last) world
      | .error error => machine.settle ((handler error).bind last) world
    cases connectionParams cameraId row <;> rfl

theorem resume_findForMove (velocity : PtzVelocity) :
    machine.resume outcome (Stage.program cameraId (.findForMove velocity)) world =
      (Stage.program cameraId (Stage.next cameraId outcome world (.findForMove velocity)).1,
        (Stage.next cameraId outcome world (.findForMove velocity)).2) := by
  have hprogram : Stage.program cameraId (.findForMove velocity) =
      (getConnectionParams cameraId).bind fun found ↦ clearWatchdog.bind fun _ ↦
        Stage.program cameraId (.moving found.1 velocity found.2) := by
    show ((getConnectionParams cameraId).bind _).bind _ = _
    rw [Program.bind_assoc]
    refine congrArg _ (funext fun found ↦ ?_)
    exact Program.bind_assoc _ _ _
  rw [hprogram, resume_getConnectionParams]
  unfold Stage.next
  cases Stage.lookup cameraId outcome with
  | error error => rfl
  | ok found =>
    exact Machine.settle_bind_of_done (settle_clearWatchdog world)

theorem resume_findForStop :
    machine.resume outcome (Stage.program cameraId .findForStop) world =
      (Stage.program cameraId (Stage.next cameraId outcome world .findForStop).1,
        (Stage.next cameraId outcome world .findForStop).2) := by
  have hprogram : Stage.program cameraId .findForStop =
      (getConnectionParams cameraId).bind fun found ↦
        Stage.program cameraId (.stopping found.1 found.2) :=
    Program.bind_assoc _ _ _
  rw [hprogram, resume_getConnectionParams]
  unfold Stage.next
  cases Stage.lookup cameraId outcome <;> rfl

theorem resume_findForWatchdog :
    machine.resume outcome (Stage.program cameraId .findForWatchdog) world =
      (Stage.program cameraId (Stage.next cameraId outcome world .findForWatchdog).1,
        (Stage.next cameraId outcome world .findForWatchdog).2) := by
  have hprogram : Stage.program cameraId .findForWatchdog =
      (((getConnectionParams cameraId).bind fun found ↦
        Stage.program cameraId (.stopping found.1 found.2)).catching fun _ ↦ done ()).bind fun _ ↦
          call .deleteWatchdog := by
    refine congrArg (fun program : Async Unit ↦
      (program.catching fun _ ↦ done ()).bind fun _ ↦ call .deleteWatchdog) ?_
    exact Program.bind_assoc _ _ _
  rw [hprogram]
  refine (resume_getConnectionParams_catching cameraId _ outcome world (fun _ ↦ done ())
    fun _ ↦ call .deleteWatchdog).trans ?_
  unfold Stage.next
  cases Stage.lookup cameraId outcome <;> rfl

end Resume

/-- The stages of the calls for a camera. -/
def staging (cameraId : CameraId) : Staging machine PtzError Stage where
  program := Stage.program cameraId
  next := fun stage outcome world ↦ stage.next cameraId outcome world
  resume_program := by
    intro stage outcome world
    cases stage with
    | findForMove velocity => exact resume_findForMove cameraId outcome world velocity
    | moving params velocity profileToken =>
      obtain ⟨row, error⟩ := outcome
      cases error <;> rfl
    | findForStop => exact resume_findForStop cameraId outcome world
    | stopping params profileToken =>
      obtain ⟨row, error⟩ := outcome
      cases error <;> rfl
    | findForWatchdog => exact resume_findForWatchdog cameraId outcome world
    | watchdogStopping params profileToken =>
      obtain ⟨row, error⟩ := outcome
      cases error <;> rfl
    | ended result => cases result <;> rfl

/-! ### What a step does to the stages -/

abbrev Stages := List (Origin × Stage)

namespace Stage

def isOver : Stage → Bool
  | .ended _ => true
  | _ => false

/-- The call that a thread awaits. -/
def awaited (cameraId : CameraId) : Stage → Option Call
  | .findForMove _ | .findForStop | .findForWatchdog => some (.findCamera cameraId)
  | .moving params velocity profileToken =>
    some (.ptzMove params (moveParams velocity) profileToken)
  | .stopping params profileToken | .watchdogStopping params profileToken =>
    some (.ptzStop params profileToken)
  | .ended _ => none

/-- Whether a stage is one of the callback of a watchdog. -/
def isWatchdog : Stage → Bool
  | .findForWatchdog | .watchdogStopping .. => true
  | _ => false

variable (cameraId : CameraId) (stage : Stage)

theorem isOver_program : (stage.program cameraId).isOver = stage.isOver := by
  cases stage with
  | ended result => cases result <;> rfl
  | _ => rfl

theorem awaits_iff {call : Call} :
    (∃ next, stage.program cameraId = .await call next) ↔ stage.awaited cameraId = some call := by
  constructor
  · rintro ⟨next, hprogram⟩
    cases stage with
    | ended result => cases result <;> cases hprogram
    | _ => exact congrArg some (Program.await.inj hprogram).1
  · intro hawaited
    cases stage with
    | ended result => cases hawaited
    | _ =>
      obtain rfl := Option.some.inj hawaited
      exact ⟨_, rfl⟩

/-- A lookup fails when the service makes no connection parameters of it. -/
theorem fails_findCamera {outcome : Outcome} : Fails outcome (.findCamera cameraId) ↔
    ∃ error, lookup cameraId outcome = .error error := by
  obtain ⟨row, error⟩ := outcome
  cases error with
  | some error => exact ⟨fun _ ↦ ⟨error, rfl⟩, fun _ ↦ Or.inl (Option.some_ne_none error)⟩
  | none => exact ⟨fun hfails ↦ hfails.resolve_left fun hne ↦ hne rfl, Or.inr⟩

end Stage

section Steps

variable (cameraId : CameraId) {stages : Stages} {world : World}

/-- What a step makes of the stages and the world. -/
def PtzStep.apply (stages : Stages) (world : World) : PtzStep → Stages × World
  | .move velocity => (stages ++ [(.move, .findForMove velocity)], world)
  | .stop => (stages ++ [(.stop, .findForStop)], world.clear)
  | .fire timer =>
    if timer ∈ world.pending then
      (stages ++ [(.watchdog, .findForWatchdog)],
        ({ world with pending := world.pending.filter (· ≠ timer) } : World).clear)
    else (stages, world)
  | .resume thread outcome =>
    match stages[thread]? with
    | some (tag, stage) =>
      (stages.set thread (tag, (stage.next cameraId outcome world).1),
        (stage.next cameraId outcome world).2)
    | none => (stages, world)

theorem step_system (ptzStep : PtzStep) :
    step cameraId ((staging cameraId).system stages world) ptzStep =
      (staging cameraId).system (ptzStep.apply cameraId stages world).1
        (ptzStep.apply cameraId stages world).2 := by
  cases ptzStep with
  | move velocity => exact Staging.move_start rfl
  | stop =>
    refine Staging.move_start ?_
    have hprogram : ignoringResult (stop cameraId) =
        clearWatchdog.bind fun _ ↦ Stage.program cameraId .findForStop := Program.bind_assoc _ _ _
    rw [hprogram]
    exact Machine.settle_bind_of_done (settle_clearWatchdog world)
  | fire timer =>
    unfold PtzStep.apply step
    dsimp only
    have hworld : ((staging cameraId).system stages world).world = world := rfl
    rw [hworld]
    split_ifs with hpending
    · refine Staging.move_start ?_
      have hprogram : ignoringResult (stop cameraId) =
          clearWatchdog.bind fun _ ↦ Stage.program cameraId .findForStop := Program.bind_assoc _ _ _
      have hexpire : machine.settle (watchdogFires cameraId timer) world =
          machine.settle (((ignoringResult (stop cameraId)).catching fun _ ↦ done ()).bind
            fun _ ↦ call .deleteWatchdog)
                { world with pending := world.pending.filter (· ≠ timer) } :=
        rfl
      rw [hexpire, hprogram]
      exact Machine.settle_catching_of_done (settle_clearWatchdog _)
    · rfl
  | resume thread outcome =>
    unfold PtzStep.apply step
    dsimp only
    cases hstage : stages[thread]? with
    | none => exact Staging.move_advance_none hstage
    | some entry => exact Staging.move_advance hstage

end Steps

/-! ### Which steps keep the movement covered -/

section Covered

variable {cameraId : CameraId} {stages : Stages} {world : World}

/-- `CoversMovement` of the stages and the world. -/
structure Covered (stages : Stages) (world : World) : Prop where
  covered : world.isMoving = true → Staging.waiting Stage.isOver stages = [] → world.pending ≠ []
  single : world.pending.length ≤ 1
  known : ∀ timer ∈ world.pending, world.activeWatchdog = some timer

/-- The movement is covered, and the callbacks of watchdogs are at the stages of such. -/
structure Guarded (stages : Stages) (world : World) : Prop extends Covered stages world where
  tagged : ∀ entry ∈ stages, entry.2.isOver = false →
    (entry.1 = .watchdog ↔ entry.2.isWatchdog = true)

theorem coversMovement_system :
    CoversMovement ((staging cameraId).system stages world) ↔ Covered stages world := by
  have hwaiting : (∀ thread ∈ ((staging cameraId).system stages world).threads,
      thread.2.isOver = true) ↔ Staging.waiting Stage.isOver stages = [] :=
    Staging.forall_thread_iff (Stage.isOver_program cameraId)
  constructor
  · intro hcovers
    exact ⟨fun hmoving hnone ↦ hcovers.covered hmoving (hwaiting.mpr hnone), hcovers.single,
      hcovers.known⟩
  · intro hcovered
    exact ⟨fun hmoving hover ↦ hcovered.covered hmoving (hwaiting.mp hover), hcovered.single,
      hcovered.known⟩

/-- Clearing the watchdog leaves none pending. -/
theorem pending_clear (hknown : ∀ timer ∈ world.pending, world.activeWatchdog = some timer) :
    world.clear.pending = [] := by
  unfold World.clear
  cases hactive : world.activeWatchdog with
  | none =>
    refine List.eq_nil_iff_forall_not_mem.mpr fun timer htimer ↦ ?_
    rw [hknown timer htimer] at hactive
    cases hactive
  | some existing =>
    refine List.filter_eq_nil_iff.mpr fun timer htimer ↦ ?_
    have hsame := hknown timer htimer
    rw [hactive] at hsame
    simp [Option.some.inj hsame]

variable {thread : ℕ} {tag : Origin} {stage : Stage} {outcome : Outcome}

theorem isCareful_iff (hstage : stages[thread]? = some (tag, stage)) :
    IsCareful ((staging cameraId).system stages world) thread outcome ↔
      ∀ call, stage.awaited cameraId = some call →
        ((∃ params moveParams profileToken, call = .ptzMove params moveParams profileToken) →
          outcome.error = none → world.pending = []) ∧
        (tag = .watchdog →
          (Fails outcome call ∨ ∃ params profileToken, call = .ptzStop params profileToken) →
            world.pending = []) ∧
        (Fails outcome call → world.isMoving = true → world.pending ≠ [] ∨
          Staging.waiting Stage.isOver (stages.eraseIdx thread) ≠ []) := by
  have hthread : ((staging cameraId).system stages world).threads[thread]? =
      some (tag, stage.program cameraId) := by
    rw [Staging.getElem_threads, hstage]
    rfl
  have hothers : (∃ other ∈ ((staging cameraId).system stages world).threads.eraseIdx thread,
      other.2.isOver = false) ↔ Staging.waiting Stage.isOver (stages.eraseIdx thread) ≠ [] := by
    rw [Staging.eraseIdx_threads]
    exact Staging.exists_thread_iff (Stage.isOver_program cameraId)
  constructor
  · intro hcareful call hawaited
    obtain ⟨next, hprogram⟩ := (stage.awaits_iff cameraId).mpr hawaited
    rw [hprogram] at hthread
    refine ⟨?_, ?_, fun hfails hmoving ↦ ?_⟩
    · rintro ⟨params, moveParams, profileToken, rfl⟩
      exact hcareful.accepted _ _ _ _ _ hthread
    · rintro rfl
      exact hcareful.ended _ _ hthread
    · exact (hcareful.failed _ _ _ hthread hfails hmoving).imp_right hothers.mp
  · intro hconditions
    have hcall : ∀ {found : Origin} {call : Call} {next : Reply call → Async Unit},
        ((staging cameraId).system stages world).threads[thread]? = some (found, .await call next) →
          tag = found ∧ stage.awaited cameraId = some call := by
      intro found call next hfound
      rw [hthread] at hfound
      obtain ⟨htag, hprogram⟩ := Prod.mk.inj (Option.some.inj hfound)
      exact ⟨htag, (stage.awaits_iff cameraId).mp ⟨next, hprogram⟩⟩
    refine ⟨fun found params moveParams profileToken next hfound ↦ ?_, fun call next hfound ↦ ?_,
      fun found call next hfound hfails hmoving ↦ ?_⟩
    · exact (hconditions _ (hcall hfound).2).1 ⟨_, _, _, rfl⟩
    · exact (hconditions _ (hcall hfound).2).2.1 (hcall hfound).1
    · exact ((hconditions _ (hcall hfound).2).2.2 hfails hmoving).imp_right hothers.mpr

/-- A thread that goes on to another call is in flight. -/
theorem Covered.goesOn (hstage : stages[thread]? = some (tag, stage)) {next : Stage} {later : World}
    (hover : next.isOver = false) (hsingle : later.pending.length ≤ 1)
    (hknown : ∀ timer ∈ later.pending, later.activeWatchdog = some timer) :
    Covered (stages.set thread (tag, next)) later :=
  ⟨fun _ hnone ↦ absurd hnone (Staging.waiting_set_ne_nil hstage hover), hsingle, hknown⟩

/-- The world covers its movement when the other threads alone are in flight. -/
theorem covered_over_iff (hstage : stages[thread]? = some (tag, stage))
    {result : Except PtzError Unit}
    {later : World} : Covered (stages.set thread (tag, .ended result)) later ↔
      (later.isMoving = true → Staging.waiting Stage.isOver (stages.eraseIdx thread) = [] →
        later.pending ≠ []) ∧ later.pending.length ≤ 1 ∧
          ∀ timer ∈ later.pending, later.activeWatchdog = some timer := by
  have hwaiting : Staging.waiting Stage.isOver (stages.set thread (tag, .ended result)) =
      Staging.waiting Stage.isOver (stages.eraseIdx thread) :=
    Staging.waiting_set_of_over hstage rfl
  constructor
  · intro hcovered
    exact ⟨hwaiting ▸ hcovered.covered, hcovered.single, hcovered.known⟩
  · rintro ⟨hcovered, hsingle, hknown⟩
    exact ⟨hwaiting ▸ hcovered, hsingle, hknown⟩

/-- The condition on the end of a call, by what the thread awaits. -/
def Stage.CarefulEnd (cameraId : CameraId) (outcome : Outcome) (world : World) (alone : Prop) :
    Stage → Prop
  | .findForMove _ | .findForStop =>
    (∃ error, lookup cameraId outcome = .error error) → world.isMoving = true →
      world.pending ≠ [] ∨ ¬ alone
  | .moving .. =>
    (outcome.error = none → world.pending = []) ∧
      (outcome.error ≠ none → world.isMoving = true → world.pending ≠ [] ∨ ¬ alone)
  | .stopping .. => outcome.error ≠ none → world.isMoving = true → world.pending ≠ [] ∨ ¬ alone
  | .findForWatchdog =>
    (∃ error, lookup cameraId outcome = .error error) →
      world.pending = [] ∧ (world.isMoving = true → ¬ alone)
  | .watchdogStopping .. =>
    world.pending = [] ∧ (outcome.error ≠ none → world.isMoving = true → ¬ alone)
  | .ended _ => True

theorem isCareful_iff_carefulEnd (hguarded : Guarded stages world)
    (hstage : stages[thread]? = some (tag, stage)) :
    IsCareful ((staging cameraId).system stages world) thread outcome ↔
      stage.CarefulEnd cameraId outcome world
        (Staging.waiting Stage.isOver (stages.eraseIdx thread) = []) := by
  rw [isCareful_iff hstage]
  have htag := hguarded.tagged _ (List.mem_of_getElem? hstage)
  cases stage with
  | ended result => simp [Stage.awaited, Stage.CarefulEnd]
  | findForMove velocity =>
    have hother : tag ≠ .watchdog := fun hsame ↦ Bool.false_ne_true ((htag rfl).mp hsame)
    simp [Stage.awaited, Stage.CarefulEnd, Stage.fails_findCamera, hother]
  | moving params velocity profileToken =>
    have hother : tag ≠ .watchdog := fun hsame ↦ Bool.false_ne_true ((htag rfl).mp hsame)
    simp [Stage.awaited, Stage.CarefulEnd, Fails, hother]
  | findForStop =>
    have hother : tag ≠ .watchdog := fun hsame ↦ Bool.false_ne_true ((htag rfl).mp hsame)
    simp [Stage.awaited, Stage.CarefulEnd, Stage.fails_findCamera, hother]
  | stopping params profileToken =>
    have hother : tag ≠ .watchdog := fun hsame ↦ Bool.false_ne_true ((htag rfl).mp hsame)
    simp [Stage.awaited, Stage.CarefulEnd, Fails, hother]
  | findForWatchdog =>
    have hsame : tag = .watchdog := (htag rfl).mpr rfl
    simp only [Stage.awaited, Option.some.injEq, forall_eq', Stage.CarefulEnd,
      Stage.fails_findCamera,
      hsame, reduceCtorEq, exists_false, or_false, false_implies, true_and, forall_const]
    constructor
    · rintro ⟨hended, hfailed⟩ hlookup
      exact ⟨hended hlookup, fun hmoving ↦
        (hfailed hlookup hmoving).resolve_left fun hne ↦ hne (hended hlookup)⟩
    · intro hcareful
      exact ⟨fun hlookup ↦ (hcareful hlookup).1,
        fun hlookup hmoving ↦ Or.inr ((hcareful hlookup).2 hmoving)⟩
  | watchdogStopping params profileToken =>
    have hsame : tag = .watchdog := (htag rfl).mpr rfl
    simp only [Stage.awaited, Option.some.injEq, forall_eq', Stage.CarefulEnd, Fails, hsame,
      reduceCtorEq, exists_false, false_implies, true_and, forall_const]
    constructor
    · rintro ⟨hended, hfailed⟩
      have hnone := hended (Or.inr ⟨_, _, rfl⟩)
      exact ⟨hnone, fun herror hmoving ↦
        (hfailed herror hmoving).resolve_left fun hne ↦ hne hnone⟩
    · rintro ⟨hnone, hfailed⟩
      exact ⟨fun _ ↦ hnone, fun herror hmoving ↦ Or.inr (hfailed herror hmoving)⟩

/-- A call that ends and leaves the timers as they are. -/
theorem Covered.over_iff (hcovered : Covered stages world)
    (hstage : stages[thread]? = some (tag, stage)) {result : Except PtzError Unit} :
    Covered (stages.set thread (tag, .ended result)) world ↔
      (world.isMoving = true → world.pending ≠ [] ∨
        ¬ Staging.waiting Stage.isOver (stages.eraseIdx thread) = []) := by
  rw [covered_over_iff hstage]
  constructor
  · rintro ⟨hmoves, -, -⟩ hmoving
    by_cases halone : Staging.waiting Stage.isOver (stages.eraseIdx thread) = []
    · exact Or.inl (hmoves hmoving halone)
    · exact Or.inr halone
  · intro hmoves
    exact ⟨fun hmoving halone ↦ (hmoves hmoving).resolve_right fun hne ↦ hne halone,
      hcovered.single, hcovered.known⟩

/-- A callback of a watchdog that ends: the entry of the map goes, and the timer that it may be
stays. -/
theorem Covered.delete_iff (hcovered : Covered stages world)
    (hstage : stages[thread]? = some (tag, stage)) {result : Except PtzError Unit} {later : World}
    (hpending : later.pending = world.pending) :
    Covered (stages.set thread (tag, .ended result)) later.delete ↔
      world.pending = [] ∧ (later.isMoving = true →
        ¬ Staging.waiting Stage.isOver (stages.eraseIdx thread) = []) := by
  rw [covered_over_iff hstage]
  have hdelete : later.delete.pending = world.pending := hpending
  rw [hdelete]
  constructor
  · rintro ⟨hmoves, -, hknown⟩
    have hnone : world.pending = [] := by
      refine List.eq_nil_iff_forall_not_mem.mpr fun timer htimer ↦ ?_
      cases hknown timer htimer
    exact ⟨hnone, fun hmoving halone ↦ hmoves hmoving halone hnone⟩
  · rintro ⟨hnone, hmoves⟩
    refine ⟨fun hmoving halone ↦ absurd halone (hmoves hmoving), hcovered.single,
      fun timer htimer ↦ ?_⟩
    rw [hnone] at htimer
    exact absurd htimer List.not_mem_nil

/-- A move that is accepted: its watchdog is the only one when none was pending. -/
theorem covered_arm_iff (hstage : stages[thread]? = some (tag, stage))
    {result : Except PtzError Unit} :
    Covered (stages.set thread (tag, .ended result)) world.arm ↔ world.pending = [] := by
  rw [covered_over_iff hstage]
  have harm : world.arm.pending = world.pending ++ [world.nextTimer] := rfl
  constructor
  · rintro ⟨-, hsingle, -⟩
    rw [harm, List.length_append, List.length_singleton] at hsingle
    exact List.eq_nil_of_length_eq_zero (by omega)
  · intro hnone
    rw [harm, hnone, List.nil_append]
    refine ⟨fun _ _ ↦ List.cons_ne_nil _ _, le_rfl, fun timer htimer ↦ ?_⟩
    rw [List.mem_singleton.mp htimer]
    rfl

theorem covered_next_iff (hcovered : Covered stages world)
    (hstage : stages[thread]? = some (tag, stage)) :
    Covered (stages.set thread (tag, (stage.next cameraId outcome world).1))
        (stage.next cameraId outcome world).2 ↔
      stage.CarefulEnd cameraId outcome world
        (Staging.waiting Stage.isOver (stages.eraseIdx thread) = []) := by
  have hcleared := pending_clear hcovered.known
  have hclear : ∀ next : Stage, next.isOver = false →
      Covered (stages.set thread (tag, next)) world.clear := by
    intro next hover
    refine Covered.goesOn hstage hover ?_ fun timer htimer ↦ ?_
    · rw [hcleared]
      exact Nat.zero_le 1
    · rw [hcleared] at htimer
      exact absurd htimer List.not_mem_nil
  have hstays : ∀ next : Stage, next.isOver = false →
      Covered (stages.set thread (tag, next)) world :=
    fun next hover ↦ Covered.goesOn hstage hover hcovered.single hcovered.known
  unfold Stage.next Stage.CarefulEnd
  cases stage with
  | findForMove velocity =>
    dsimp only
    cases hlookup : Stage.lookup cameraId outcome with
    | ok found => simpa using hclear _ rfl
    | error error => simpa using hcovered.over_iff hstage
  | moving params velocity profileToken =>
    dsimp only
    cases herror : outcome.error with
    | none =>
      have harm : Covered (stages.set thread (tag, .ended (.ok ())))
          (world.accept outcome (.move (moveParams velocity))).arm ↔ world.pending = [] := by
        rw [covered_arm_iff hstage, world.accept_of_none herror]
      simpa using harm
    | some error => simpa using hcovered.over_iff hstage
  | findForStop =>
    dsimp only
    cases hlookup : Stage.lookup cameraId outcome with
    | ok found => simpa using hstays _ rfl
    | error error => simpa using hcovered.over_iff hstage
  | stopping params profileToken =>
    dsimp only
    cases herror : outcome.error with
    | none =>
      have hstop : Covered (stages.set thread (tag, .ended (.ok ())))
          (world.accept outcome .stop) := by
        rw [covered_over_iff hstage, world.accept_of_none herror]
        exact ⟨nofun, hcovered.single, hcovered.known⟩
      simpa using hstop
    | some error => simpa using hcovered.over_iff hstage
  | findForWatchdog =>
    dsimp only
    cases hlookup : Stage.lookup cameraId outcome with
    | ok found => simpa using hstays _ rfl
    | error error => simpa using hcovered.delete_iff hstage rfl
  | watchdogStopping params profileToken =>
    dsimp only
    cases herror : outcome.error with
    | none =>
      rw [world.accept_of_none herror]
      refine (hcovered.delete_iff hstage ?_).trans (and_congr_right fun _ ↦ iff_of_true nofun ?_)
      · rfl
      · exact fun hne ↦ absurd rfl hne
    | some error =>
      rw [world.accept_of_some herror, hcovered.delete_iff hstage rfl]
      simp
  | ended result =>
    have hsame : stages.set thread (tag, .ended result) = stages := by
      obtain ⟨hbound, hentry⟩ := List.getElem?_eq_some_iff.mp hstage
      rw [← hentry, List.set_getElem_self]
    simpa [hsame] using hcovered

end Covered

/-! ### Every run -/

section Runs

variable {cameraId : CameraId} {stages : Stages} {world : World}

theorem guarded_nil : Guarded [] {} where
  covered := nofun
  single := Nat.zero_le 1
  known := fun _ htimer ↦ absurd htimer List.not_mem_nil
  tagged := fun _ hentry ↦ absurd hentry List.not_mem_nil

/-- A new call, beside which the timers are as they were or none is pending. -/
theorem Guarded.append (hguarded : Guarded stages world) {tag : Origin} {stage : Stage}
    {later : World}
    (hover : stage.isOver = false) (htag : tag = .watchdog ↔ stage.isWatchdog = true)
    (hlater : later = world ∨ later.pending = []) : Guarded (stages ++ [(tag, stage)]) later where
  covered := by
    intro _ hnone
    rw [Staging.waiting_append, Staging.waiting_singleton hover] at hnone
    simp at hnone
  single := by
    rcases hlater with rfl | hnone
    · exact hguarded.single
    · rw [hnone]
      exact Nat.zero_le 1
  known := by
    rcases hlater with rfl | hnone
    · exact hguarded.known
    · intro timer htimer
      rw [hnone] at htimer
      exact absurd htimer List.not_mem_nil
  tagged := by
    intro entry hentry hwaits
    rcases List.mem_append.mp hentry with hold | hnew
    · exact hguarded.tagged entry hold hwaits
    · rw [List.mem_singleton.mp hnew]
      exact htag

theorem Stage.isOver_next (stage : Stage) (cameraId : CameraId) (outcome : Outcome)
    (world : World) :
    (stage.next cameraId outcome world).1.isOver = true ∨ stage.isOver = false ∧
      (stage.next cameraId outcome world).1.isWatchdog = stage.isWatchdog := by
  unfold Stage.next
  cases stage with
  | moving params velocity profileToken => cases outcome.error <;> exact Or.inl rfl
  | stopping params profileToken => cases outcome.error <;> exact Or.inl rfl
  | watchdogStopping params profileToken => exact Or.inl rfl
  | ended result => exact Or.inl rfl
  | _ =>
    cases Stage.lookup cameraId outcome with
    | ok found => exact Or.inr ⟨rfl, rfl⟩
    | error error => exact Or.inl rfl

theorem Guarded.tagged_next (hguarded : Guarded stages world) {thread : ℕ} {tag : Origin}
    {stage : Stage}
    (hstage : stages[thread]? = some (tag, stage)) (outcome : Outcome) :
    ∀ entry ∈ stages.set thread (tag, (stage.next cameraId outcome world).1),
      entry.2.isOver = false →
      (entry.1 = .watchdog ↔ entry.2.isWatchdog = true) := by
  intro entry hentry hwaits
  rcases List.mem_or_eq_of_mem_set hentry with hold | rfl
  · exact hguarded.tagged entry hold hwaits
  · rcases stage.isOver_next cameraId outcome world with hover | ⟨hbefore, hwatchdog⟩
    · rw [hover] at hwaits
      cases hwaits
    · rw [hwatchdog]
      exact hguarded.tagged _ (List.mem_of_getElem? hstage) hbefore

theorem Guarded.step (hguarded : Guarded stages world) (ptzStep : PtzStep) :
    (Covered (ptzStep.apply cameraId stages world).1 (ptzStep.apply cameraId stages world).2 ↔
        ptzStep.IsCareful ((staging cameraId).system stages world)) ∧
      (ptzStep.IsCareful ((staging cameraId).system stages world) →
        Guarded (ptzStep.apply cameraId stages world).1
            (ptzStep.apply cameraId stages world).2) := by
  have hcalled : ∀ {after : Stages} {later : World}, Guarded after later →
      (Covered after later ↔ True) ∧ (True → Guarded after later) :=
    fun hafter ↦ ⟨iff_true_intro hafter.toCovered, fun _ ↦ hafter⟩
  cases ptzStep with
  | move velocity => exact hcalled (hguarded.append rfl ⟨nofun, nofun⟩ (Or.inl rfl))
  | stop =>
    exact hcalled (hguarded.append rfl ⟨nofun, nofun⟩ (Or.inr (pending_clear hguarded.known)))
  | fire timer =>
    unfold PtzStep.apply
    dsimp only
    split_ifs with hpending
    · refine hcalled (hguarded.append rfl ⟨fun _ ↦ rfl, fun _ ↦ rfl⟩ (Or.inr (pending_clear ?_)))
      exact fun other hother ↦ hguarded.known other (List.mem_of_mem_filter hother)
    · exact hcalled hguarded
  | resume thread outcome =>
    unfold PtzStep.apply
    dsimp only
    cases hstage : stages[thread]? with
    | none =>
      have hthread : ((staging cameraId).system stages world).threads[thread]? = none := by
        rw [Staging.getElem_threads, hstage]
        rfl
      have hcareful : IsCareful ((staging cameraId).system stages world) thread outcome := by
        refine ⟨fun _ _ _ _ _ hfound ↦ ?_, fun _ _ hfound ↦ ?_, fun _ _ _ hfound ↦ ?_⟩ <;>
          · rw [hthread] at hfound
            cases hfound
      exact ⟨iff_of_true hguarded.toCovered hcareful, fun _ ↦ hguarded⟩
    | some entry =>
      obtain ⟨tag, stage⟩ := entry
      have hcovered : Covered (stages.set thread (tag, (stage.next cameraId outcome world).1))
          (stage.next cameraId outcome world).2 ↔
            IsCareful ((staging cameraId).system stages world) thread outcome :=
        (covered_next_iff hguarded.toCovered hstage).trans
          (isCareful_iff_carefulEnd hguarded hstage).symm
      exact ⟨hcovered, fun hmeets ↦ ⟨hcovered.mpr hmeets, hguarded.tagged_next hstage outcome⟩⟩

end Runs

/-- A camera with an address. -/
def namedCamera : CameraRow where
  name := "gate"
  onvifUrl := none
  ip := some "10.0.0.5"
  port := none
  username := none
  password := none
  profileToken := none

/-- A move is accepted; the next one clears its watchdog and is refused by the camera. -/
def refusedMove : List PtzStep :=
  let velocity : PtzVelocity := { x := some 1, y := none, z := none }
  [.move velocity, .resume 0 { row := some namedCamera }, .resume 0 {}, .move velocity,
    .resume 1 { row := some namedCamera }, .resume 1 { error := some (.failure "timeout") }]

end VmsLite.Ptz
