import Mathlib.Data.List.Induction
import Mathlib.Data.List.Nodup
import VmsLite.Async.Stages

/-!
# The lifecycle of the recording engine

`RecordingEngine.start` sets its flag, awaits the boot steps, installs the timers of the schedule
and of the storage, awaits the first scan and installs the timer of the index. `stop` awaits
nothing: it clears what is installed. A boot step catches what it awaits and throws nothing, so it
is one awaited call here.

A start that still awaits a boot step when the engine is stopped installs its timers all the same.
The lifecycle is safe in every run in which `stop` is called between the calls of `start` only, and
in no other run that lets every `start` return (`lifecycleSafe_iff`).
-/

set_option autoImplicit false

namespace VmsLite.Recordings.Engine

open VmsLite.Async Program

/-! ### The engine -/

abbrev TimerId := ℕ

inductive TimerKind
  | schedule | storage | index
  deriving DecidableEq, Repr

inductive Call
  | getIsRunning
  | setIsRunning (value : Bool)
  | tickSchedule
  | tickStorage
  | auditAfterCrash
  | tickIndex
  | setInterval (kind : TimerKind)
  | clearInterval (timer : TimerId)
  | getTimerId (kind : TimerKind)
  | setTimerId (kind : TimerKind) (timer : Option TimerId)
  deriving DecidableEq, Repr

def Reply : Call → Type
  | .getIsRunning => Bool
  | .setInterval _ => TimerId
  | .getTimerId _ => Option TimerId
  | _ => Unit

abbrev Async (α : Type) : Type := Program Call Reply Unit α

/-- Await one call. -/
abbrev call (request : Call) : Async (Reply request) := Program.request request

/-- Launches a periodic loop. -/
def launch (kind : TimerKind) : Async Unit := do
  let timer ← call (.setInterval kind)
  call (.setTimerId kind (some timer))

def start : Async Unit := do
  let isRunning : Bool ← call .getIsRunning
  if isRunning then
    return
  call (.setIsRunning true)
  call .tickSchedule
  call .tickStorage
  call .auditAfterCrash
  launch .schedule
  launch .storage
  call .tickIndex
  launch .index

/-- Clears the timer of a loop, if there is one. -/
def clear (kind : TimerKind) : Async Unit := do
  match ← call (.getTimerId kind) with
  | some timer =>
    call (.clearInterval timer)
    call (.setTimerId kind none)
  | none => return

def stop : Async Unit := do
  let isRunning : Bool ← call .getIsRunning
  if !isRunning then
    return
  call (.setIsRunning false)
  clear .schedule
  clear .storage
  clear .index

/-! ### The machine -/

/-- The fields of the engine, and the intervals that its clock runs. -/
structure World where
  isRunning : Bool := false
  timerIds : TimerKind → Option TimerId := fun _ ↦ none
  intervals : List (TimerKind × TimerId) := []
  nextTimer : TimerId := 0

def answer : (call : Call) → Unit → World → Reply call × World
  | .getIsRunning, _, world => (world.isRunning, world)
  | .setIsRunning value, _, world => ((), { world with isRunning := value })
  | .tickSchedule, _, world => ((), world)
  | .tickStorage, _, world => ((), world)
  | .auditAfterCrash, _, world => ((), world)
  | .tickIndex, _, world => ((), world)
  | .setInterval kind, _, world =>
    (world.nextTimer,
      { world with
        intervals := world.intervals ++ [(kind, world.nextTimer)]
        nextTimer := world.nextTimer + 1 })
  | .clearInterval timer, _, world =>
    ((), { world with intervals := world.intervals.filter (·.2 ≠ timer) })
  | .getTimerId kind, _, world => (world.timerIds kind, world)
  | .setTimerId kind timer, _, world =>
    ((), { world with timerIds := Function.update world.timerIds kind timer })

/-- The calls that `start` awaits. -/
def Call.isBootStep : Call → Bool
  | .tickSchedule | .tickStorage | .auditAfterCrash | .tickIndex => true
  | _ => false

def machine : Machine Call Reply World Unit Empty where
  answer := answer
  synchronous := fun call ↦ !call.isBootStep
  calm := ()
  react := nofun
  restart := id

/-! ### Runs -/

/-- Which function of the engine a thread is a call of. -/
inductive Function
  | start | stop
  deriving DecidableEq, Repr

abbrev EngineSystem := System Call Reply Unit World Function

/-- `start` or `stop` is called, or a boot step that a call awaits is over. -/
inductive LifecycleMove
  | start
  | stop
  | resume (thread : ℕ)
  deriving DecidableEq, Repr

def LifecycleMove.toMove : LifecycleMove → Move Call Reply Unit Unit Empty Function
  | .start => .start .start Engine.start
  | .stop => .start .stop Engine.stop
  | .resume thread => .advance thread ()

/-- The system after some moves. -/
def after (moves : List LifecycleMove) : EngineSystem :=
  runMoves machine.move { threads := [], world := {} } (moves.map LifecycleMove.toMove)

/-- A call has not returned yet. -/
def IsBooting (system : EngineSystem) : Prop :=
  ∃ thread ∈ system.threads, thread.2.isOver = false

/-- The call that was made last. -/
def lastCall (system : EngineSystem) : Option Function :=
  system.threads.getLast?.map Prod.fst

/-- At most one timer of each kind runs, it is the one that `stop` would clear, and none runs from a
call of `stop` until the next call of `start`. -/
structure IsSafe (system : EngineSystem) : Prop where
  unique : (system.world.intervals.map Prod.fst).Nodup
  known : ∀ entry ∈ system.world.intervals, system.world.timerIds entry.1 = some entry.2
  silent : lastCall system = some .stop → system.world.intervals = []

/-- The engine is safe in every state that a run goes through. -/
def LifecycleSafe (moves : List LifecycleMove) : Prop :=
  ∀ before, before <+: moves → IsSafe (after before)

/-- Whenever `stop` is called, every call of `start` has returned. -/
def StopsBetweenStarts (moves : List LifecycleMove) : Prop :=
  ∀ before, before ++ [.stop] <+: moves → ¬ IsBooting (after before)

/-! ### Where a call waits -/

inductive Stage
  | tickSchedule | tickStorage | auditAfterCrash | tickIndex | returned
  deriving DecidableEq, Repr

/-- An interval that `setInterval` starts. -/
def World.launch (world : World) (kind : TimerKind) : World :=
  { world with
    timerIds := Function.update world.timerIds kind (some world.nextTimer)
    intervals := world.intervals ++ [(kind, world.nextTimer)]
    nextTimer := world.nextTimer + 1 }

def World.clear (world : World) (kind : TimerKind) : World :=
  match world.timerIds kind with
  | some timer =>
    { world with
      timerIds := Function.update world.timerIds kind none
      intervals := world.intervals.filter (·.2 ≠ timer) }
  | none => world

/-- The rest of a call of `start` that waits at a stage. -/
def Stage.program : Stage → Async Unit
  | .tickSchedule => do
    call .tickSchedule
    call .tickStorage
    call .auditAfterCrash
    launch .schedule
    launch .storage
    call .tickIndex
    launch .index
  | .tickStorage => do
    call .tickStorage
    call .auditAfterCrash
    launch .schedule
    launch .storage
    call .tickIndex
    launch .index
  | .auditAfterCrash => do
    call .auditAfterCrash
    launch .schedule
    launch .storage
    call .tickIndex
    launch .index
  | .tickIndex => do
    call .tickIndex
    launch .index
  | .returned => done ()

def Stage.next : Stage → World → Stage × World
  | .tickSchedule, world => (.tickStorage, world)
  | .tickStorage, world => (.auditAfterCrash, world)
  | .auditAfterCrash, world => (.tickIndex, (world.launch .schedule).launch .storage)
  | .tickIndex, world => (.returned, world.launch .index)
  | .returned, world => (.returned, world)

def staging : Staging machine Unit Stage where
  program := Stage.program
  next := fun stage _ world ↦ stage.next world
  resume_program := by
    intro stage outcome world
    cases stage <;> rfl

theorem settle_start (world : World) :
    machine.settle start world =
      if world.isRunning then (Stage.returned.program, world)
      else (Stage.tickSchedule.program, { world with isRunning := true }) := by
  obtain ⟨isRunning, timerIds, intervals, nextTimer⟩ := world
  cases isRunning <;> rfl

theorem settle_clear (kind : TimerKind) (world : World) :
    machine.settle (clear kind) world = (done (), world.clear kind) := by
  unfold World.clear
  simp only [clear, Machine.settle, machine, bind_eq, request_bind, Program.settle, Call.isBootStep,
    answer, Bool.not_false, if_true]
  cases world.timerIds kind with
  | none => rfl
  | some timer => rfl

/-- What `stop` makes of the world. -/
def World.stop (world : World) : World :=
  if world.isRunning then
    ((({ world with isRunning := false } : World).clear .schedule).clear .storage).clear .index
  else world

theorem World.isRunning_clear (world : World) (kind : TimerKind) :
    (world.clear kind).isRunning = world.isRunning := by
  unfold World.clear
  cases world.timerIds kind <;> rfl

theorem World.isRunning_stop (world : World) : world.stop.isRunning = false := by
  unfold World.stop
  split_ifs with hrunning
  · rw [isRunning_clear, isRunning_clear, isRunning_clear]
  · exact Bool.eq_false_iff.mpr hrunning

theorem settle_stop (world : World) :
    machine.settle stop world = (Stage.returned.program, world.stop) := by
  unfold World.stop
  cases hrunning : world.isRunning with
  | false =>
    obtain ⟨isRunning, timerIds, intervals, nextTimer⟩ := world
    obtain rfl : isRunning = false := hrunning
    rfl
  | true =>
    have hstop : machine.settle stop world =
        machine.settle ((clear .schedule).bind fun _ ↦ (clear .storage).bind fun _ ↦ clear .index)
          { world with isRunning := false } := by
      obtain ⟨isRunning, timerIds, intervals, nextTimer⟩ := world
      obtain rfl : isRunning = true := hrunning
      rfl
    rw [hstop, Machine.settle_bind_of_done (settle_clear .schedule _),
      Machine.settle_bind_of_done (settle_clear .storage _), settle_clear]
    rfl

/-! ### The timers -/

/-- The clock runs one interval of each of these kinds, and the engine knows their timers. -/
structure Runs (world : World) (kinds : List TimerKind) : Prop where
  kinds : world.intervals.map Prod.fst = kinds
  known : ∀ kind timer, (kind, timer) ∈ world.intervals ↔ world.timerIds kind = some timer
  fresh : ∀ entry ∈ world.intervals, entry.2 < world.nextTimer
  distinct : (world.intervals.map Prod.snd).Nodup

section Timers

variable {world : World} {kinds : List TimerKind}

theorem runs_nil : Runs {} [] where
  kinds := rfl
  known := fun _ _ ↦ ⟨fun hmem ↦ absurd hmem List.not_mem_nil, fun hsome ↦ by cases hsome⟩
  fresh := fun _ hmem ↦ absurd hmem List.not_mem_nil
  distinct := List.nodup_nil

theorem Runs.launch (hruns : Runs world kinds) {kind : TimerKind} (hkind : kind ∉ kinds) :
    Runs (world.launch kind) (kinds ++ [kind]) where
  kinds := by
    show (world.intervals ++ [(kind, world.nextTimer)]).map Prod.fst = _
    rw [List.map_append, hruns.kinds]
    rfl
  known := by
    intro other timer
    show (other, timer) ∈ world.intervals ++ [(kind, world.nextTimer)] ↔
      Function.update world.timerIds kind (some world.nextTimer) other = some timer
    rw [List.mem_append, List.mem_singleton, Prod.mk.injEq, hruns.known, Function.update_apply]
    split_ifs with hother
    · subst hother
      have hnone : world.timerIds other ≠ some timer := fun hsome ↦
        hkind (hruns.kinds ▸ List.mem_map_of_mem (f := Prod.fst) ((hruns.known _ _).mpr hsome))
      simp [hnone, eq_comm]
    · simp [hother]
  fresh := by
    intro entry hentry
    show entry.2 < world.nextTimer + 1
    rcases List.mem_append.mp hentry with hold | hnew
    · exact Nat.lt_succ_of_lt (hruns.fresh entry hold)
    · rw [List.mem_singleton.mp hnew]
      exact Nat.lt_succ_self _
  distinct := by
    show ((world.intervals ++ [(kind, world.nextTimer)]).map Prod.snd).Nodup
    rw [List.map_append, List.map_cons, List.map_nil]
    refine List.nodup_append.mpr ⟨hruns.distinct, List.nodup_singleton _, ?_⟩
    intro timer htimer other hother
    obtain ⟨entry, hentry, rfl⟩ := List.mem_map.mp htimer
    rw [List.mem_singleton.mp hother]
    exact Nat.ne_of_lt (hruns.fresh entry hentry)

theorem Runs.clear (hruns : Runs world kinds) (kind : TimerKind) :
    Runs (world.clear kind) (kinds.filter (· ≠ kind)) := by
  unfold World.clear
  cases htimer : world.timerIds kind with
  | none =>
    have hfree : kind ∉ kinds := by
      rw [← hruns.kinds]
      intro hkind
      obtain ⟨⟨found, timer⟩, hentry, rfl⟩ := List.mem_map.mp hkind
      rw [(hruns.known found timer).mp hentry] at htimer
      cases htimer
    have hkinds : kinds.filter (· ≠ kind) = kinds :=
      List.filter_eq_self.mpr fun other hother ↦ decide_eq_true fun hsame ↦ hfree (hsame ▸ hother)
    rw [hkinds]
    exact hruns
  | some timer =>
    have hentry : (kind, timer) ∈ world.intervals := (hruns.known kind timer).mpr htimer
    -- the timer of the loop is the only one of its kind, and its id the only one of its value
    have hsame : ∀ entry ∈ world.intervals, entry.2 = timer ↔ entry.1 = kind := by
      intro entry hmem
      constructor
      · intro hid
        have hinj := List.inj_on_of_nodup_map hruns.distinct hmem hentry hid
        rw [hinj]
      · intro hkind
        have hknown := (hruns.known entry.1 entry.2).mp hmem
        rw [hkind, htimer] at hknown
        exact (Option.some.inj hknown).symm
    have hfilter : world.intervals.filter (·.2 ≠ timer) = world.intervals.filter (·.1 ≠ kind) := by
      refine List.filter_congr fun entry hmem ↦ ?_
      exact decide_eq_decide.mpr (not_congr (hsame entry hmem))
    refine ⟨?_, fun other found ↦ ?_, fun entry hmem ↦ ?_, ?_⟩
    · show (world.intervals.filter (·.2 ≠ timer)).map Prod.fst = _
      rw [hfilter, ← hruns.kinds, List.filter_map]
      rfl
    · show (other, found) ∈ world.intervals.filter (·.2 ≠ timer) ↔
        Function.update world.timerIds kind none other = some found
      rw [hfilter, List.mem_filter, hruns.known, Function.update_apply]
      split_ifs with hother
      · simp [hother]
      · simp [hother]
    · exact hruns.fresh entry (List.mem_of_mem_filter hmem)
    · exact hruns.distinct.sublist (List.filter_sublist.map Prod.snd)

/-- A stop leaves no timer. -/
theorem Runs.stop (hruns : Runs world kinds) (hrunning : world.isRunning = true) :
    Runs world.stop [] := by
  have hhalted : Runs { world with isRunning := false } kinds :=
    ⟨hruns.1, hruns.2, hruns.3, hruns.4⟩
  have hcleared := ((hhalted.clear .schedule).clear .storage).clear .index
  have hnone : ((kinds.filter (· ≠ .schedule)).filter (· ≠ .storage)).filter (· ≠ .index) = [] := by
    rw [List.filter_filter, List.filter_filter, List.filter_eq_nil_iff]
    rintro (_ | _ | _) - <;> simp
  rw [hnone] at hcleared
  unfold World.stop
  rw [if_pos hrunning]
  exact hcleared

end Timers

/-! ### Runs of the stages -/

/-- Whether a call has returned. -/
def Stage.isOver (stage : Stage) : Bool := stage = .returned

theorem Stage.isOver_program (stage : Stage) : stage.program.isOver = stage.isOver := by
  cases stage <;> rfl

abbrev Stages := List (Function × Stage)

/-- The calls that have not returned. -/
def booting (stages : Stages) : Stages := Staging.waiting Stage.isOver stages

theorem booting_concat (stages : Stages) (entry : Function × Stage) :
    booting (stages ++ [entry]) = booting stages ++ booting [entry] :=
  Staging.waiting_append ..

/-- What a move makes of the stages and the world. -/
def LifecycleMove.apply (stages : Stages) (world : World) : LifecycleMove → Stages × World
  | .start =>
    if world.isRunning then (stages ++ [(.start, .returned)], world)
    else (stages ++ [(.start, .tickSchedule)], { world with isRunning := true })
  | .stop => (stages ++ [(.stop, .returned)], world.stop)
  | .resume thread =>
    match stages[thread]? with
    | some (tag, stage) => (stages.set thread (tag, (stage.next world).1), (stage.next world).2)
    | none => (stages, world)

section Moves

variable {stages : Stages} {world : World}

theorem isBooting_iff : IsBooting (staging.system stages world) ↔ booting stages ≠ [] :=
  Staging.exists_thread_iff Stage.isOver_program

theorem lastCall_system :
    lastCall (staging.system stages world) = stages.getLast?.map Prod.fst := by
  simp [lastCall, Staging.system, List.getLast?_map, Function.comp_def]

theorem move_system (move : LifecycleMove) :
    machine.move (staging.system stages world) move.toMove =
      staging.system (move.apply stages world).1 (move.apply stages world).2 := by
  cases move with
  | start =>
    have hsettle := settle_start world
    unfold LifecycleMove.apply
    dsimp only
    split_ifs at hsettle ⊢
    · exact Staging.move_start hsettle
    · exact Staging.move_start hsettle
  | stop => exact Staging.move_start (settle_stop world)
  | resume thread =>
    unfold LifecycleMove.apply
    dsimp only
    cases hstage : stages[thread]? with
    | none => exact Staging.move_advance_none hstage
    | some entry => exact Staging.move_advance hstage

theorem apply_resume {thread : ℕ} {tag : Function} {stage : Stage}
    (hstage : stages[thread]? = some (tag, stage)) :
    (LifecycleMove.resume thread).apply stages world =
      (stages.set thread (tag, (stage.next world).1), (stage.next world).2) := by
  simp only [LifecycleMove.apply, hstage]

theorem after_concat (moves : List LifecycleMove) (move : LifecycleMove) :
    after (moves ++ [move]) = machine.move (after moves) move.toMove := by
  simp only [after, runMoves, List.map_append, List.map_cons, List.map_nil, List.foldl_append,
    List.foldl_cons, List.foldl_nil]

/-- What holds of the stages and the world at first and is kept by the moves of a run, as long as
these meet a condition, holds after the run. -/
theorem staged_after {invariant : Stages → World → Prop} (hinitial : invariant [] {})
    (condition : EngineSystem → LifecycleMove → Prop)
    (hmove : ∀ stages world move, condition (staging.system stages world) move →
      invariant stages world → invariant (move.apply stages world).1 (move.apply stages world).2)
    (moves : List LifecycleMove)
    (hcondition : ∀ before move, before ++ [move] <+: moves → condition (after before) move) :
    ∃ stages world, after moves = staging.system stages world ∧ invariant stages world := by
  induction moves using List.reverseRecOn with
  | nil => exact ⟨[], {}, rfl, hinitial⟩
  | append_singleton moves move ih =>
    obtain ⟨stages, world, hafter, hinvariant⟩ := ih fun before next hbefore ↦
      hcondition before next (hbefore.trans (List.prefix_append _ _))
    have hmeets := hcondition moves move List.prefix_rfl
    rw [hafter] at hmeets
    refine ⟨_, _, ?_, hmove stages world move hmeets hinvariant⟩
    rw [after_concat, hafter, move_system]

end Moves

theorem exists_stages (moves : List LifecycleMove) :
    ∃ stages world, after moves = staging.system stages world := by
  obtain ⟨stages, world, hafter, -⟩ := @staged_after (fun _ _ ↦ True) trivial (fun _ _ ↦ True)
    (fun _ _ _ _ _ ↦ trivial) moves fun _ _ _ ↦ trivial
  exact ⟨stages, world, hafter⟩

/-! ### Runs in which the engine stops between its starts -/

section Orderly

variable {stages : Stages} {world : World}

/-- The timers that a call of `start` has installed when it waits at a stage. -/
def Stage.kinds : Stage → List TimerKind
  | .tickIndex => [.schedule, .storage]
  | _ => []

/-- One call at most is booting, and the timers are those that its stage, or the engine, calls
for. -/
structure Orderly (stages : Stages) (world : World) : Prop where
  phase :
    (booting stages = [] ∧
      Runs world (if world.isRunning then [.schedule, .storage, .index] else [])) ∨
      ∃ entry, booting stages = [entry] ∧ world.isRunning = true ∧ Runs world entry.2.kinds
  stopped : stages.getLast?.map Prod.fst = some .stop → world.isRunning = false

theorem map_fst_set {thread : ℕ} {tag : Function} {stage : Stage}
    (hstage : stages[thread]? = some (tag, stage)) (next : Stage) :
    (stages.set thread (tag, next)).map Prod.fst = stages.map Prod.fst := by
  obtain ⟨hbound, hentry⟩ := List.getElem?_eq_some_iff.mp hstage
  have hlength : thread < (stages.map Prod.fst).length := by rwa [List.length_map]
  have hfst : (stages.map Prod.fst)[thread] = tag := by rw [List.getElem_map, hentry]
  rw [List.map_set, ← hfst, List.set_getElem_self]

theorem booting_set {thread : ℕ} {entry : Function × Stage}
    (hentry : stages[thread]? = some entry) :
    ∃ first second, booting stages = first ++ booting [entry] ++ second ∧
      ∀ next, booting (stages.set thread next) = first ++ booting [next] ++ second :=
  Staging.waiting_set hentry

theorem Orderly.isSafe (horderly : Orderly stages world) :
    IsSafe (staging.system stages world) := by
  have hruns : ∃ kinds : List TimerKind, kinds.Nodup ∧ Runs world kinds ∧
      (world.isRunning = false → kinds = []) := by
    rcases horderly.phase with ⟨-, hruns⟩ | ⟨entry, -, hrunning, hruns⟩
    · cases hrunning : world.isRunning with
      | false => exact ⟨[], List.nodup_nil, by simpa [hrunning] using hruns, fun _ ↦ rfl⟩
      | true =>
        exact ⟨[.schedule, .storage, .index], by decide, by simpa [hrunning] using hruns, nofun⟩
    · refine ⟨entry.2.kinds, ?_, hruns, fun hstopped ↦ ?_⟩
      · cases entry.2 <;> decide
      · rw [hrunning] at hstopped
        cases hstopped
  obtain ⟨kinds, hnodup, hruns, hsilent⟩ := hruns
  refine ⟨?_, fun entry hentry ↦ (hruns.known _ _).mp hentry, fun hlast ↦ ?_⟩
  · show (world.intervals.map Prod.fst).Nodup
    rw [hruns.kinds]
    exact hnodup
  · rw [lastCall_system] at hlast
    have hnone := hruns.kinds
    rw [hsilent (horderly.stopped hlast)] at hnone
    exact List.map_eq_nil_iff.mp hnone

theorem Orderly.start (horderly : Orderly stages world) :
    Orderly (LifecycleMove.start.apply stages world).1
        (LifecycleMove.start.apply stages world).2 := by
  unfold LifecycleMove.apply
  dsimp only
  cases hrunning : world.isRunning with
  | true =>
    rw [if_pos rfl]
    refine ⟨?_, fun hlast ↦ ?_⟩
    · have hsame : booting (stages ++ [(.start, .returned)]) = booting stages :=
        (booting_concat _ _).trans (List.append_nil (booting stages))
      rw [hsame]
      exact horderly.phase
    · rw [List.getLast?_concat] at hlast
      cases hlast
  | false =>
    rw [if_neg Bool.false_ne_true]
    obtain ⟨hnone, hruns⟩ | ⟨entry, -, hbooting, -⟩ := horderly.phase
    · refine ⟨Or.inr ⟨(.start, .tickSchedule), ?_, rfl, ?_⟩, fun hlast ↦ ?_⟩
      · rw [booting_concat, hnone]
        rfl
      · rw [hrunning] at hruns
        exact ⟨hruns.1, hruns.2, hruns.3, hruns.4⟩
      · rw [List.getLast?_concat] at hlast
        cases hlast
    · rw [hrunning] at hbooting
      cases hbooting

theorem Orderly.stop (horderly : Orderly stages world) (hnone : booting stages = []) :
    Orderly (LifecycleMove.stop.apply stages world).1
        (LifecycleMove.stop.apply stages world).2 := by
  have hhalted : Runs world.stop [] := by
    obtain ⟨-, hruns⟩ | ⟨entry, hbooting, -, -⟩ := horderly.phase
    · cases hrunning : world.isRunning with
      | true => exact hruns.stop hrunning
      | false =>
        have hsame : world.stop = world := by
          unfold World.stop
          rw [hrunning]
          rfl
        rw [hrunning] at hruns
        rw [hsame]
        exact hruns
    · rw [hnone] at hbooting
      cases hbooting
  refine ⟨Or.inl ⟨?_, ?_⟩, fun _ ↦ world.isRunning_stop⟩
  · show booting (stages ++ [(.stop, .returned)]) = []
    rw [booting_concat, hnone]
    rfl
  · show Runs world.stop (if world.stop.isRunning then _ else [])
    rw [world.isRunning_stop]
    exact hhalted

/-- Where a boot step leaves the only call that is booting. -/
theorem Runs.next {stage : Stage} (hruns : Runs world stage.kinds) (hover : stage.isOver = false) :
    (stage.next world).2.isRunning = world.isRunning ∧
      Runs (stage.next world).2 (if (stage.next world).1.isOver then [.schedule, .storage, .index]
        else (stage.next world).1.kinds) := by
  cases stage with
  | tickSchedule => exact ⟨rfl, hruns⟩
  | tickStorage => exact ⟨rfl, hruns⟩
  | auditAfterCrash => exact ⟨rfl, (hruns.launch List.not_mem_nil).launch (by decide)⟩
  | tickIndex => exact ⟨rfl, hruns.launch (by decide)⟩
  | returned => cases hover

theorem Orderly.resume (horderly : Orderly stages world) (thread : ℕ) :
    Orderly ((LifecycleMove.resume thread).apply stages world).1
      ((LifecycleMove.resume thread).apply stages world).2 := by
  cases hstage : stages[thread]? with
  | none =>
    simp only [LifecycleMove.apply, hstage]
    exact horderly
  | some entry =>
    obtain ⟨tag, stage⟩ := entry
    rw [apply_resume hstage]
    have hlast : (stages.set thread (tag, (stage.next world).1)).getLast?.map Prod.fst =
        stages.getLast?.map Prod.fst := by
      rw [← List.getLast?_map, ← List.getLast?_map, map_fst_set hstage]
    obtain ⟨first, second, hbefore, hafter⟩ := booting_set hstage
    cases hover : stage.isOver with
    | true =>
      obtain rfl : stage = .returned := of_decide_eq_true hover
      refine ⟨?_, hlast ▸ horderly.stopped⟩
      show (booting (stages.set thread (tag, .returned)) = [] ∧ _) ∨
        ∃ entry, booting (stages.set thread (tag, .returned)) = [entry] ∧ _
      rw [hafter, ← hbefore]
      exact horderly.phase
    | false =>
      have hsingle : booting [(tag, stage)] = [(tag, stage)] := Staging.waiting_singleton hover
      rw [hsingle] at hbefore
      obtain ⟨hnone, -⟩ | ⟨entry, hone, hrunning, hruns⟩ := horderly.phase
      · rw [hnone] at hbefore
        exact absurd hbefore.symm (by simp)
      · rw [hone] at hbefore
        obtain ⟨rfl, rfl, rfl⟩ : first = [] ∧ second = [] ∧ entry = (tag, stage) := by
          cases first with
          | nil => simpa [eq_comm, and_comm] using hbefore
          | cons head rest => simp at hbefore
        obtain ⟨hstill, hnext⟩ := hruns.next hover
        rw [hrunning] at hstill
        refine ⟨?_, fun hstopped ↦ ?_⟩
        · show (booting (stages.set thread (tag, (stage.next world).1)) = [] ∧ _) ∨
            ∃ entry, booting (stages.set thread (tag, (stage.next world).1)) = [entry] ∧ _
          rw [hafter, List.nil_append, List.append_nil, hstill, if_pos rfl]
          cases hlater : (stage.next world).1.isOver with
          | true =>
            rw [hlater, if_pos rfl] at hnext
            exact Or.inl ⟨Staging.waiting_singleton_of_over hlater, hnext⟩
          | false =>
            rw [hlater, if_neg Bool.false_ne_true] at hnext
            exact Or.inr ⟨_, Staging.waiting_singleton hlater, rfl, hnext⟩
        · rw [hlast] at hstopped
          rw [horderly.stopped hstopped] at hrunning
          cases hrunning

theorem orderly_after {moves : List LifecycleMove} (hstops : StopsBetweenStarts moves) :
    ∃ stages world, after moves = staging.system stages world ∧ Orderly stages world := by
  refine staged_after ⟨Or.inl ⟨rfl, runs_nil⟩, nofun⟩
    (fun system move ↦ move = .stop → ¬ IsBooting system) ?_ moves ?_
  · intro stages world move hcondition horderly
    cases move with
    | start => exact horderly.start
    | stop => exact horderly.stop (by simpa [isBooting_iff] using hcondition rfl)
    | resume thread => exact horderly.resume thread
  · rintro before _ hbefore rfl
    exact hstops before hbefore

end Orderly

/-! ### Runs in which a stop overtakes a start -/

section Overtaken

variable {stages : Stages} {world : World}

/-- A call is booting in an engine that was stopped, or beside another one, or beside the index
timer of an earlier one. -/
structure Overtaken (stages : Stages) (world : World) : Prop where
  waits : booting stages ≠ []
  cause : world.isRunning = false ∨ 2 ≤ (booting stages).length ∨
    .index ∈ world.intervals.map Prod.fst
  halted : world.isRunning = false → stages.getLast?.map Prod.fst = some .stop

theorem Overtaken.start (hovertaken : Overtaken stages world) :
    Overtaken (LifecycleMove.start.apply stages world).1
      (LifecycleMove.start.apply stages world).2 := by
  unfold LifecycleMove.apply
  dsimp only
  cases hrunning : world.isRunning with
  | true =>
    rw [if_pos rfl]
    have hsame : booting (stages ++ [(.start, .returned)]) = booting stages :=
      (booting_concat _ _).trans (List.append_nil (booting stages))
    refine ⟨hsame ▸ hovertaken.waits, hsame ▸ hovertaken.cause, fun hhalted ↦ ?_⟩
    rw [hrunning] at hhalted
    cases hhalted
  | false =>
    rw [if_neg Bool.false_ne_true]
    have hmore : booting (stages ++ [(.start, .tickSchedule)]) =
        booting stages ++ [(.start, .tickSchedule)] := booting_concat _ _
    have hlength : 1 ≤ (booting stages).length := List.length_pos_iff.mpr hovertaken.waits
    refine ⟨?_, Or.inr (Or.inl ?_), nofun⟩
    · rw [hmore]
      exact List.append_ne_nil_of_right_ne_nil _ (List.cons_ne_nil _ _)
    · rw [hmore, List.length_append, List.length_singleton]
      omega

/-- A stop while a call is booting overtakes it. -/
theorem overtaken_stop (hwaits : booting stages ≠ []) :
    Overtaken (LifecycleMove.stop.apply stages world).1
        (LifecycleMove.stop.apply stages world).2 := by
  have hsame : booting (stages ++ [(.stop, .returned)]) = booting stages :=
    (booting_concat _ _).trans (List.append_nil (booting stages))
  refine ⟨?_, Or.inl world.isRunning_stop, fun _ ↦ ?_⟩
  · show booting (stages ++ [(.stop, .returned)]) ≠ []
    rw [hsame]
    exact hwaits
  · show (stages ++ [(Function.stop, Stage.returned)]).getLast?.map Prod.fst = _
    rw [List.getLast?_concat]
    rfl

/-- The index timer of an overtaken call is one too many, unless another call is still to install
its own. -/
theorem Overtaken.resume (hovertaken : Overtaken stages world) {thread : ℕ}
    (hsafe : IsSafe (staging.system ((LifecycleMove.resume thread).apply stages world).1
      ((LifecycleMove.resume thread).apply stages world).2)) :
    Overtaken ((LifecycleMove.resume thread).apply stages world).1
      ((LifecycleMove.resume thread).apply stages world).2 := by
  cases hstage : stages[thread]? with
  | none =>
    simp only [LifecycleMove.apply, hstage]
    exact hovertaken
  | some entry =>
    obtain ⟨tag, stage⟩ := entry
    rw [apply_resume hstage] at hsafe ⊢
    have hlast : (stages.set thread (tag, (stage.next world).1)).getLast?.map Prod.fst =
        stages.getLast?.map Prod.fst := by
      rw [← List.getLast?_map, ← List.getLast?_map, map_fst_set hstage]
    obtain ⟨first, second, hbefore, hafter⟩ := booting_set hstage
    have hrunning : (stage.next world).2.isRunning = world.isRunning := by cases stage <;> rfl
    have hhalted : (stage.next world).2.isRunning = false →
        (stages.set thread (tag, (stage.next world).1)).getLast?.map Prod.fst = some .stop := by
      rw [hrunning, hlast]
      exact hovertaken.halted
    have hgrows : .index ∈ world.intervals.map Prod.fst →
        .index ∈ (stage.next world).2.intervals.map Prod.fst := by
      intro hindex
      cases stage <;> simp_all [Stage.next, World.launch]
    cases hover : stage.isOver with
    | true =>
      obtain rfl : stage = .returned := of_decide_eq_true hover
      have hsame : booting (stages.set thread (tag, .returned)) = booting stages :=
        (hafter _).trans hbefore.symm
      exact ⟨hsame ▸ hovertaken.waits, hsame ▸ hovertaken.cause, hhalted⟩
    | false =>
      rw [show booting [(tag, stage)] =
        [(tag, stage)] from Staging.waiting_singleton hover] at hbefore
      cases hlater : (stage.next world).1.isOver with
      | false =>
        have hlength : (booting (stages.set thread (tag, (stage.next world).1))).length =
            (booting stages).length := by
          rw [hafter, hbefore, show booting [(tag, (stage.next world).1)] = [_] from
            Staging.waiting_singleton hlater]
          simp
        refine ⟨?_, ?_, hhalted⟩
        · rw [← List.length_pos_iff, hlength, List.length_pos_iff]
          exact hovertaken.waits
        · rw [hrunning, hlength]
          exact hovertaken.cause.imp_right (Or.imp_right hgrows)
      | true =>
        obtain rfl : stage = .tickIndex := by
          cases stage with
          | tickIndex => rfl
          | returned => cases hover
          | _ => cases hlater
        have hinstalled : (Stage.next .tickIndex world).2.intervals.map Prod.fst =
            world.intervals.map Prod.fst ++ [.index] := List.map_append
        have hrest : booting (stages.set thread (tag, .returned)) = first ++ second := by
          rw [hafter]
          exact congrArg (· ++ second) (List.append_nil first)
        have hloud : world.isRunning = true := by
          by_contra hstopped
          have hsilent := hsafe.silent (lastCall_system.trans
            (hhalted (hrunning.trans (Bool.eq_false_iff.mpr hstopped))))
          have hempty : (Stage.next .tickIndex world).2.intervals = [] := hsilent
          rw [hempty] at hinstalled
          simp at hinstalled
        have hsecond : .index ∉ world.intervals.map Prod.fst := by
          intro hindex
          have hunique : ((Stage.next .tickIndex world).2.intervals.map Prod.fst).Nodup :=
            hsafe.unique
          rw [hinstalled] at hunique
          exact (List.nodup_append.mp hunique).2.2 _ hindex _ List.mem_cons_self rfl
        have hmany : 2 ≤ (booting stages).length := by
          rcases hovertaken.cause with hstopped | hmany | hindex
          · rw [hloud] at hstopped
            cases hstopped
          · exact hmany
          · exact absurd hindex hsecond
        refine ⟨?_, Or.inr (Or.inr ?_), hhalted⟩
        · show booting (stages.set thread (tag, .returned)) ≠ []
          rw [hrest, ← List.length_pos_iff, List.length_append]
          rw [hbefore] at hmany
          simp only [List.length_append, List.length_singleton] at hmany
          omega
        · rw [hinstalled]
          exact List.mem_append_right _ List.mem_cons_self

end Overtaken

/-! ### Every run -/

theorem LifecycleSafe.of_prefix {moves before : List LifecycleMove} (hsafe : LifecycleSafe moves)
    (hinitial : before <+: moves) : LifecycleSafe before :=
  fun _ hbefore ↦ hsafe _ (hbefore.trans hinitial)

theorem lifecycleSafe_of_stopsBetweenStarts {moves : List LifecycleMove}
    (hstops : StopsBetweenStarts moves) : LifecycleSafe moves := by
  intro before hbefore
  obtain ⟨stages, world, hafter, horderly⟩ :=
    orderly_after fun found hfound ↦ hstops found (hfound.trans hbefore)
  rw [hafter]
  exact horderly.isSafe

/-- Once a stop has overtaken a start, some start never returns in a safe run. -/
theorem overtaken_after {before later : List LifecycleMove} (hbooting : IsBooting (after before))
    (hsafe : LifecycleSafe (before ++ .stop :: later)) :
    ∃ stages world, after (before ++ .stop :: later) = staging.system stages world ∧
      Overtaken stages world := by
  induction later using List.reverseRecOn with
  | nil =>
    obtain ⟨stages, world, hafter⟩ := exists_stages before
    rw [hafter, isBooting_iff] at hbooting
    have hstop : after (before ++ [.stop]) = staging.system
        (LifecycleMove.stop.apply stages world).1 (LifecycleMove.stop.apply stages world).2 := by
      rw [after_concat, hafter, move_system]
    exact ⟨_, _, hstop, overtaken_stop hbooting⟩
  | append_singleton later move ih =>
    have hconcat : before ++ .stop :: (later ++ [move]) = (before ++ .stop :: later) ++ [move] := by
      simp
    rw [hconcat] at hsafe ⊢
    obtain ⟨stages, world, hafter, hovertaken⟩ := ih (hsafe.of_prefix (List.prefix_append _ _))
    have hnext : after ((before ++ .stop :: later) ++ [move]) =
        staging.system (move.apply stages world).1 (move.apply stages world).2 := by
      rw [after_concat, hafter, move_system]
    refine ⟨_, _, hnext, ?_⟩
    cases move with
    | start => exact hovertaken.start
    | stop => exact overtaken_stop hovertaken.waits
    | resume thread => exact hovertaken.resume (hnext ▸ hsafe _ List.prefix_rfl)

/-- The lifecycle is safe in every run in which `stop` is called between the calls of `start`, and,
of the runs in which every `start` returns, in these only. -/
theorem lifecycleSafe_iff (moves : List LifecycleMove) :
    (StopsBetweenStarts moves → LifecycleSafe moves) ∧
      (¬ IsBooting (after moves) → (LifecycleSafe moves ↔ StopsBetweenStarts moves)) := by
  refine ⟨lifecycleSafe_of_stopsBetweenStarts, fun hreturned ↦
    ⟨fun hsafe before hbefore hbooting ↦ ?_, lifecycleSafe_of_stopsBetweenStarts⟩⟩
  obtain ⟨later, rfl⟩ := hbefore
  rw [← List.append_cons] at hsafe hreturned
  obtain ⟨stages, world, hafter, hovertaken⟩ := overtaken_after hbooting hsafe
  refine hreturned ?_
  rw [hafter, isBooting_iff]
  exact hovertaken.waits

/-- A stop during the boot steps of a start: the start installs its timers in a stopped engine. -/
def overtakenStart : List LifecycleMove := [.start, .stop, .resume 0, .resume 0, .resume 0]

theorem not_lifecycleSafe_overtakenStart : ¬ LifecycleSafe overtakenStart := by
  intro hsafe
  have hsilent := (hsafe overtakenStart List.prefix_rfl).silent rfl
  have hintervals : (after overtakenStart).world.intervals = [(.schedule, 0), (.storage, 1)] := rfl
  rw [hintervals] at hsilent
  cases hsilent

end VmsLite.Recordings.Engine
