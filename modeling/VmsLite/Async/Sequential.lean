import VmsLite.Async.Uses

/-!
# Programs that run one after another

When no two programs are in flight at once, nothing happens between the calls of a program but its
own calls. A `Turn` is the program that runs and the world; a program starts only after the one
before is over, and the world changes around it only then. `Steps` is the program logic for this
case: whatever the allowed outcomes of its calls, every call takes a `step`, and what the program
returns or throws satisfies a postcondition. It has a rule for each way to build a program, and
`Reaches.steps` lifts it to the runs of a system, with crashes anywhere.
-/

set_option autoImplicit false

namespace VmsLite.Async

variable {Call : Type} {Reply : Call → Type} {Err World Outcome Event α β : Type}

namespace Program

variable (answer : (call : Call) → Outcome → World → Reply call × World)
  (allowed : Call → Outcome → World → Prop) (step : World → World → Prop)

/-- Under allowed outcomes every call of a program takes a step, and its value satisfies `post`, its
error `thrown`. -/
def Steps (post : α → World → Prop) (thrown : Err → World → Prop) :
    Program Call Reply Err α → World → Prop
  | done value, world => post value world
  | failed error, world => thrown error world
  | await call next, world => ∀ outcome, allowed call outcome world →
      step world (answer call outcome world).2 ∧
        Steps post thrown (next (answer call outcome world).1) (answer call outcome world).2

variable {answer allowed step} {post : α → World → Prop} {thrown : Err → World → Prop}
  {world : World}

/-- Steps and postconditions may be weakened. -/
theorem Steps.mono {step' : World → World → Prop} {post' : α → World → Prop}
    {thrown' : Err → World → Prop} {program : Program Call Reply Err α}
    (hsteps : program.Steps answer allowed step post thrown world)
    (hstep : ∀ before after, step before after → step' before after)
    (hpost : ∀ value world, post value world → post' value world)
    (hthrown : ∀ error world, thrown error world → thrown' error world) :
    program.Steps answer allowed step' post' thrown' world := by
  induction program generalizing world with
  | done value => exact hpost _ _ hsteps
  | failed error => exact hthrown _ _ hsteps
  | await call next ih =>
    intro outcome hallowed
    obtain ⟨hfirst, hnext⟩ := hsteps outcome hallowed
    exact ⟨hstep _ _ hfirst, ih _ hnext⟩

/-- What every step keeps, a program keeps. -/
theorem Steps.frame (kept : World → Prop) {program : Program Call Reply Err α}
    (hstable : ∀ before after, step before after → kept before → kept after)
    (hsteps : program.Steps answer allowed step post thrown world) (hkept : kept world) :
    program.Steps answer allowed step (fun value world ↦ post value world ∧ kept world)
      (fun error world ↦ thrown error world ∧ kept world) world := by
  induction program generalizing world with
  | done value => exact ⟨hsteps, hkept⟩
  | failed error => exact ⟨hsteps, hkept⟩
  | await call next ih =>
    intro outcome hallowed
    obtain ⟨hfirst, hnext⟩ := hsteps outcome hallowed
    exact ⟨hfirst, ih _ hnext (hstable _ _ hfirst hkept)⟩

/-- A sequence steps as its first part does, and then as its second part on what the first
returns. -/
theorem Steps.bind {middle : α → World → Prop} {post : β → World → Prop}
    {program : Program Call Reply Err α} {rest : α → Program Call Reply Err β}
    (hfirst : program.Steps answer allowed step middle thrown world)
    (hrest : ∀ value world, middle value world →
      (rest value).Steps answer allowed step post thrown world) :
    (program.bind rest).Steps answer allowed step post thrown world := by
  induction program generalizing world with
  | done value => exact hrest _ _ hfirst
  | failed error => exact hfirst
  | await call next ih =>
    intro outcome hallowed
    obtain ⟨hstep, hnext⟩ := hfirst outcome hallowed
    exact ⟨hstep, ih _ hnext⟩

/-- A `try`/`catch` steps as its body does, and then as its handler on what the body throws. -/
theorem Steps.catching (caught : Err → World → Prop) {program : Program Call Reply Err α}
    {handler : Err → Program Call Reply Err α}
    (hbody : program.Steps answer allowed step post caught world)
    (hhandler : ∀ error world, caught error world →
      (handler error).Steps answer allowed step post thrown world) :
    (program.catching handler).Steps answer allowed step post thrown world := by
  induction program generalizing world with
  | done value => exact hbody
  | failed error => exact hhandler _ _ hbody
  | await call next ih =>
    intro outcome hallowed
    obtain ⟨hstep, hnext⟩ := hbody outcome hallowed
    exact ⟨hstep, ih _ hnext⟩

theorem Steps.request {call : Call} {post : Reply call → World → Prop}
    (hcall : ∀ outcome, allowed call outcome world →
      step world (answer call outcome world).2 ∧
        post (answer call outcome world).1 (answer call outcome world).2) :
    (request call : Program Call Reply Err (Reply call)).Steps answer allowed step post thrown
      world :=
  hcall

theorem Steps.orThrow {reply : Except Err α} (hok : ∀ value, reply = .ok value → post value world)
    (herror : ∀ error, reply = .error error → thrown error world) :
    (orThrow reply : Program Call Reply Err α).Steps answer allowed step post thrown world := by
  cases reply with
  | ok value => exact hok value rfl
  | error error => exact herror error rfl

/-- A loop over a list steps as its rounds do, when each keeps an invariant. -/
theorem Steps.foldlM (invariant : β → World → Prop) {items : List α}
    {body : β → α → Program Call Reply Err β}
    (hbody : ∀ total, ∀ item ∈ items, ∀ world, invariant total world →
      (body total item).Steps answer allowed step invariant thrown world)
    {total : β} (hstart : invariant total world) :
    (items.foldlM body total).Steps answer allowed step invariant thrown world := by
  induction items generalizing total world with
  | nil => exact hstart
  | cons item rest ih =>
    rw [List.foldlM_cons]
    refine Steps.bind (hbody total item List.mem_cons_self world hstart) ?_
    intro value reached hreached
    exact ih (fun total next hnext ↦ hbody total next (List.mem_cons_of_mem _ hnext)) hreached

/-- A program whose calls all take a step. -/
theorem Steps.of_uses {used : Call → Prop} {program : Program Call Reply Err α}
    (huses : program.Uses used)
    (hcall : ∀ call outcome world, used call → allowed call outcome world →
      step world (answer call outcome world).2) (world : World) :
    program.Steps answer allowed step (fun _ _ ↦ True) (fun _ _ ↦ True) world := by
  induction program generalizing world with
  | done value => trivial
  | failed error => trivial
  | await call next ih =>
    exact fun outcome hallowed ↦ ⟨hcall call outcome world huses.1 hallowed, ih _ (huses.2 _) _⟩

/-- Where every outcome is allowed, what every step keeps holds after any number of calls. -/
theorem Steps.after (kept : World → Prop) {program : Program Call Reply Err α}
    (hallowed : ∀ call outcome world, allowed call outcome world)
    (hstable : ∀ before after, step before after → kept before → kept after)
    (hsteps : program.Steps answer allowed step post thrown world) (hkept : kept world)
    (outcomes : List Outcome) : kept (after answer outcomes (program, world)).2 := by
  induction outcomes generalizing program world with
  | nil => exact hkept
  | cons outcome outcomes ih =>
    cases program with
    | done value => exact ih hsteps hkept
    | failed error => exact ih hsteps hkept
    | await call next =>
      obtain ⟨hfirst, hnext⟩ := hsteps outcome (hallowed call outcome world)
      exact ih hnext (hstable _ _ hfirst hkept)

/-- After one call a program still steps. -/
theorem Steps.advance {program : Program Call Reply Err α}
    (hsteps : program.Steps answer allowed step post thrown world) {outcome : Outcome}
    (hallowed : ∀ call, allowed call outcome world) :
    (advance answer outcome (program, world)).1.Steps answer allowed step post thrown
      (advance answer outcome (program, world)).2 := by
  cases program with
  | done value => exact hsteps
  | failed error => exact hsteps
  | await call next => exact (hsteps outcome (hallowed call)).2

/-- After the synchronous calls at its head a program still steps. -/
theorem Steps.settle {program : Program Call Reply Err α} {synchronous : Call → Bool}
    {calm : Outcome} (hsteps : program.Steps answer allowed step post thrown world)
    (hallowed : ∀ call world, allowed call calm world) :
    (program.settle answer synchronous calm world).1.Steps answer allowed step post thrown
      (program.settle answer synchronous calm world).2 := by
  induction program generalizing world with
  | done value => exact hsteps
  | failed error => exact hsteps
  | await call next ih =>
    unfold Program.settle
    split_ifs
    · exact ih _ (hsteps calm (hallowed call world)).2
    · exact hsteps

/-- A program that is over takes no more steps. -/
theorem Steps.of_isOver {program : Program Call Reply Err α} (hover : program.isOver = true)
    (world : World) :
    program.Steps answer allowed step (fun _ _ ↦ True) (fun _ _ ↦ True) world := by
  cases program with
  | done value => trivial
  | failed error => trivial
  | await call next => cases hover

end Program

/-! ### Runs -/

/-- The program that runs, and the world. -/
structure Turn (Call : Type) (Reply : Call → Type) (Err World : Type) where
  current : Program Call Reply Err Unit
  world : World

/-- One move: a program starts, makes a call, or dies with the process, or the world changes. -/
inductive TurnMove (Call : Type) (Reply : Call → Type) (Err Outcome Event : Type)
  | start (program : Program Call Reply Err Unit)
  | advance (outcome : Outcome)
  | crash
  | environment (event : Event)

/-- The turn after a move. -/
def Machine.turn (machine : Machine Call Reply World Outcome Event)
    (state : Turn Call Reply Err World) :
    TurnMove Call Reply Err Outcome Event → Turn Call Reply Err World
  | .start program => { state with current := program }
  | .advance outcome =>
    let called := Program.advance machine.answer outcome (state.current, state.world)
    { current := called.1, world := called.2 }
  | .crash => { current := .done (), world := machine.restart state.world }
  | .environment event => { state with world := machine.react event state.world }

section Runs

variable (machine : Machine Call Reply World Outcome Event)
  (allowed : Call → Outcome → World → Prop) (step : World → World → Prop)

/-- Legal moves start programs that step as they should, choose allowed outcomes, and change the
world only while no program is in flight. -/
structure TakesTurns (legal : Turn Call Reply Err World →
    TurnMove Call Reply Err Outcome Event → Prop) : Prop where
  start_steps : ∀ {state program}, legal state (.start program) →
    program.Steps machine.answer allowed step (fun _ _ ↦ True) (fun _ _ ↦ True) state.world
  advance_allowed : ∀ {state outcome call next}, legal state (.advance outcome) →
    state.current = .await call next → allowed call outcome state.world
  environment_over : ∀ {state event}, legal state (.environment event) →
    state.current.isOver = true

variable {machine allowed step}
  {legal : Turn Call Reply Err World → TurnMove Call Reply Err Outcome Event → Prop}
  {initial state : Turn Call Reply Err World}

/-- In every state reached, the program that runs steps as it should. -/
theorem Reaches.steps (hturns : TakesTurns machine allowed step legal)
    (hinitial : initial.current.isOver = true)
    (hreached : Reaches machine.turn legal initial state) :
    state.current.Steps machine.answer allowed step (fun _ _ ↦ True) (fun _ _ ↦ True)
      state.world := by
  induction hreached with
  | refl => exact Program.Steps.of_isOver hinitial _
  | @step state move hbefore hlegal ih =>
    cases move with
    | start program =>
      have hstart := hturns.start_steps hlegal
      exact hstart
    | advance outcome =>
      cases hcurrent : state.current with
      | done value =>
        rw [hcurrent] at ih
        simpa only [Machine.turn, hcurrent, Program.advance] using ih
      | failed error =>
        rw [hcurrent] at ih
        simpa only [Machine.turn, hcurrent, Program.advance] using ih
      | await call next =>
        rw [hcurrent] at ih
        have hallowed := hturns.advance_allowed hlegal hcurrent
        simpa only [Machine.turn, hcurrent, Program.advance] using (ih outcome hallowed).2
    | crash => trivial
    | environment event =>
      have hover := hturns.environment_over hlegal
      exact Program.Steps.of_isOver hover _

/-- A call of the program that runs is a step, or changes nothing. -/
theorem Reaches.advance_step (hturns : TakesTurns machine allowed step legal)
    (hinitial : initial.current.isOver = true)
    (hreached : Reaches machine.turn legal initial state) {outcome : Outcome}
    (hlegal : legal state (.advance outcome)) :
    (machine.turn state (.advance outcome)).world = state.world ∨
      step state.world (machine.turn state (.advance outcome)).world := by
  have hsteps := hreached.steps hturns hinitial
  cases hcurrent : state.current with
  | done value =>
    left
    simp only [Machine.turn, hcurrent, Program.advance]
  | failed error =>
    left
    simp only [Machine.turn, hcurrent, Program.advance]
  | await call next =>
    right
    rw [hcurrent] at hsteps
    have hallowed := hturns.advance_allowed hlegal hcurrent
    simpa only [Machine.turn, hcurrent, Program.advance] using (hsteps outcome hallowed).1

end Runs

end VmsLite.Async
