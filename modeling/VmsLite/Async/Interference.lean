import VmsLite.Async.Sequential

/-!
# One program amid interference

A program runs alone, but the world changes around it between its calls. A `Setting` says which
outcomes its calls may have, how the world may change around it, and what a call of it does. Unlike
a `Discipline`, it does not ask that the changes include what the program itself does: what only
this program does, nobody else does. `Amid` is the program logic: however the world changes, every
allowed call takes a step, and what the program returns or throws satisfies a postcondition.
`Reaches.amid` lifts it to runs in which one program starts after another, the world changes at any
time, and the process may crash.
-/

set_option autoImplicit false

namespace VmsLite.Async

variable {Call : Type} {Reply : Call → Type} {Err World Outcome Event α β : Type}

/-- What happens around one program, and what its own calls do. -/
structure Setting (machine : Machine Call Reply World Outcome Event) where
  /-- The outcomes a call may have in a world. -/
  allowed : Call → Outcome → World → Prop
  /-- A change of the world around the program. -/
  change : World → World → Prop
  /-- What a call does. -/
  step : World → World → Prop

variable {machine : Machine Call Reply World Outcome Event}

/-- What happens between two calls: any number of changes. -/
def Setting.rely (setting : Setting machine) : World → World → Prop :=
  Relation.ReflTransGen setting.change

/-- What every change keeps is kept between two calls. -/
theorem Setting.rely_kept {setting : Setting machine} {known : World → Prop}
    (hstable : ∀ before after, setting.change before after → known before → known after)
    {before after : World} (hrely : setting.rely before after) (hknown : known before) :
    known after := by
  induction hrely with
  | refl => exact hknown
  | tail _ hchange ih => exact hstable _ _ hchange ih

namespace Program

variable (setting : Setting machine)

/-- Whatever happens around a program, each of its calls takes a step, and its value satisfies
`post`, its error `thrown`. -/
def Amid (post : α → World → Prop) (thrown : Err → World → Prop) :
    Program Call Reply Err α → World → Prop
  | done value, world => ∀ later, setting.rely world later → post value later
  | failed error, world => ∀ later, setting.rely world later → thrown error later
  | await call next, world => ∀ later, setting.rely world later → ∀ outcome,
      setting.allowed call outcome later →
        setting.step later (machine.answer call outcome later).2 ∧
          Amid post thrown (next (machine.answer call outcome later).1)
            (machine.answer call outcome later).2

variable {setting} {post : α → World → Prop} {thrown : Err → World → Prop} {world : World}

/-- A program may be interfered with before its first call. -/
theorem Amid.later {program : Program Call Reply Err α} {later : World}
    (hamid : program.Amid setting post thrown world) (hlater : setting.rely world later) :
    program.Amid setting post thrown later := by
  cases program with
  | done value => exact fun last hlast ↦ hamid last (hlater.trans hlast)
  | failed error => exact fun last hlast ↦ hamid last (hlater.trans hlast)
  | await call next => exact fun last hlast ↦ hamid last (hlater.trans hlast)

/-- Postconditions may be weakened. -/
theorem Amid.mono {post' : α → World → Prop} {thrown' : Err → World → Prop}
    {program : Program Call Reply Err α} (hamid : program.Amid setting post thrown world)
    (hpost : ∀ value world, post value world → post' value world)
    (hthrown : ∀ error world, thrown error world → thrown' error world) :
    program.Amid setting post' thrown' world := by
  induction program generalizing world with
  | done value => exact fun later hlater ↦ hpost _ _ (hamid later hlater)
  | failed error => exact fun later hlater ↦ hthrown _ _ (hamid later hlater)
  | await call next ih =>
    intro later hlater outcome hallowed
    obtain ⟨hstep, hnext⟩ := hamid later hlater outcome hallowed
    exact ⟨hstep, ih _ hnext⟩

/-- What a program that is over ends with. -/
theorem Amid.of_isOver {ended : World → Prop} {program : Program Call Reply Err α}
    (hamid : program.Amid setting (fun _ ↦ ended) (fun _ ↦ ended) world)
    (hover : program.isOver = true) : ended world := by
  cases program with
  | done value => exact hamid world .refl
  | failed error => exact hamid world .refl
  | await call next => cases hover

/-- A sequence goes on with its second part where its first part ends. -/
theorem Amid.bind {middle : α → World → Prop} {post : β → World → Prop}
    {program : Program Call Reply Err α} {rest : α → Program Call Reply Err β}
    (hfirst : program.Amid setting middle thrown world)
    (hrest : ∀ value world, middle value world →
      (rest value).Amid setting post thrown world) :
    (program.bind rest).Amid setting post thrown world := by
  induction program generalizing world with
  | done value => exact hrest _ _ (hfirst world .refl)
  | failed error => exact hfirst
  | await call next ih =>
    intro later hlater outcome hallowed
    obtain ⟨hstep, hnext⟩ := hfirst later hlater outcome hallowed
    exact ⟨hstep, ih _ hnext⟩

/-- A `try`/`catch` goes on with its handler where its body throws. -/
theorem Amid.catching (caught : Err → World → Prop) {program : Program Call Reply Err α}
    {handler : Err → Program Call Reply Err α}
    (hbody : program.Amid setting post caught world)
    (hhandler : ∀ error world, caught error world →
      (handler error).Amid setting post thrown world) :
    (program.catching handler).Amid setting post thrown world := by
  induction program generalizing world with
  | done value => exact hbody
  | failed error => exact hhandler _ _ (hbody world .refl)
  | await call next ih =>
    intro later hlater outcome hallowed
    obtain ⟨hstep, hnext⟩ := hbody later hlater outcome hallowed
    exact ⟨hstep, ih _ hnext⟩

section Known

variable (known : World → Prop)
  (hstable : ∀ before after, setting.change before after → known before → known after)

include hstable

/-- A value, when its postcondition follows from what is known. -/
theorem Amid.done {value : α} (hknown : known world) (hpost : ∀ later, known later →
    post value later) : (Program.done value : Program Call Reply Err α).Amid setting post thrown
      world :=
  fun later hlater ↦ hpost later (setting.rely_kept hstable hlater hknown)

/-- An error, when its postcondition follows from what is known. -/
theorem Amid.failed {error : Err} (hknown : known world) (hthrown : ∀ later, known later →
    thrown error later) : (Program.failed error : Program Call Reply Err α).Amid setting post
      thrown world :=
  fun later hlater ↦ hthrown later (setting.rely_kept hstable hlater hknown)

/-- One call and what goes on with its reply, in every world where what is known holds. -/
theorem Amid.await {call : Call} {next : Reply call → Program Call Reply Err α}
    (hknown : known world)
    (hcall : ∀ later outcome, known later → setting.allowed call outcome later →
      setting.step later (machine.answer call outcome later).2 ∧
        (next (machine.answer call outcome later).1).Amid setting post thrown
          (machine.answer call outcome later).2) :
    (Program.await call next).Amid setting post thrown world :=
  fun later hlater outcome hallowed ↦
    hcall later outcome (setting.rely_kept hstable hlater hknown) hallowed

/-- A program whose calls all take a step and keep what is known. -/
theorem Amid.of_uses {used : Call → Prop} {program : Program Call Reply Err α}
    (huses : program.Uses used)
    (hcall : ∀ call outcome world, used call → setting.allowed call outcome world →
      known world → setting.step world (machine.answer call outcome world).2 ∧
        known (machine.answer call outcome world).2)
    (hknown : known world) :
    program.Amid setting (fun _ world ↦ known world) (fun _ world ↦ known world) world := by
  induction program generalizing world with
  | done value => exact fun later hlater ↦ setting.rely_kept hstable hlater hknown
  | failed error => exact fun later hlater ↦ setting.rely_kept hstable hlater hknown
  | await call next ih =>
    intro later hlater outcome hallowed
    obtain ⟨hstep, hnext⟩ := hcall call outcome later huses.1 hallowed
      (setting.rely_kept hstable hlater hknown)
    exact ⟨hstep, ih _ (huses.2 _) hnext⟩

end Known

end Program

/-! ### Runs -/

section Runs

variable (setting : Setting machine)

/-- Legal moves start programs that do well amid what happens, let their calls have allowed
outcomes, and change the world as `rely` says. -/
structure Surrounds (invariant : World → Prop) (post : World → Prop) (thrown : Err → World → Prop)
    (legal : Turn Call Reply Err World → TurnMove Call Reply Err Outcome Event → Prop) :
    Prop where
  start_amid : ∀ {state program}, legal state (.start program) → invariant state.world →
    program.Amid setting (fun _ ↦ post) thrown state.world
  advance_allowed : ∀ {state outcome call next}, legal state (.advance outcome) →
    state.current = .await call next → setting.allowed call outcome state.world
  crash_post : ∀ {state}, legal state .crash → invariant state.world →
    invariant (machine.restart state.world) ∧
      ∀ later, setting.rely (machine.restart state.world) later → post later
  environment_change : ∀ {state event}, legal state (.environment event) →
    invariant state.world → setting.change state.world (machine.react event state.world)
  change_invariant : ∀ {before after}, setting.change before after → invariant before →
    invariant after
  step_invariant : ∀ {before after}, setting.step before after → invariant before →
    invariant after

variable {setting} {invariant post : World → Prop} {thrown : Err → World → Prop}
  {legal : Turn Call Reply Err World → TurnMove Call Reply Err Outcome Event → Prop}
  {initial state : Turn Call Reply Err World}

/-- In every state reached, the program that runs does well amid what happens, and the invariant
holds. -/
theorem Reaches.amid (hsurrounds : Surrounds setting invariant post thrown legal)
    (hinitial : initial.current.Amid setting (fun _ ↦ post) thrown initial.world)
    (hinvariant : invariant initial.world) (hreached : Reaches machine.turn legal initial state) :
    state.current.Amid setting (fun _ ↦ post) thrown state.world ∧ invariant state.world := by
  induction hreached with
  | refl => exact ⟨hinitial, hinvariant⟩
  | @step state move hbefore hlegal ih =>
    obtain ⟨hamid, hinvariant⟩ := ih
    cases move with
    | start program =>
      have hstart := hsurrounds.start_amid hlegal hinvariant
      exact ⟨hstart, hinvariant⟩
    | advance outcome =>
      cases hcurrent : state.current with
      | done value =>
        rw [hcurrent] at hamid
        simpa only [Machine.turn, hcurrent, Program.advance] using And.intro hamid hinvariant
      | failed error =>
        rw [hcurrent] at hamid
        simpa only [Machine.turn, hcurrent, Program.advance] using And.intro hamid hinvariant
      | await call next =>
        rw [hcurrent] at hamid
        obtain ⟨hstep, hnext⟩ := hamid _ .refl outcome
          (hsurrounds.advance_allowed hlegal hcurrent)
        simpa only [Machine.turn, hcurrent, Program.advance] using
          And.intro hnext (hsurrounds.step_invariant hstep hinvariant)
    | crash =>
      obtain ⟨hkept, hpost⟩ := hsurrounds.crash_post hlegal hinvariant
      exact ⟨hpost, hkept⟩
    | environment event =>
      have hchange := hsurrounds.environment_change hlegal hinvariant
      exact ⟨hamid.later (.single hchange), hsurrounds.change_invariant hchange hinvariant⟩

/-- A call of the program that runs is a step, or changes nothing. -/
theorem Reaches.advance_amid (hsurrounds : Surrounds setting invariant post thrown legal)
    (hinitial : initial.current.Amid setting (fun _ ↦ post) thrown initial.world)
    (hinvariant : invariant initial.world) (hreached : Reaches machine.turn legal initial state)
    {outcome : Outcome} (hlegal : legal state (.advance outcome)) :
    (machine.turn state (.advance outcome)).world = state.world ∨
      setting.step state.world (machine.turn state (.advance outcome)).world := by
  obtain ⟨hamid, -⟩ := hreached.amid hsurrounds hinitial hinvariant
  cases hcurrent : state.current with
  | done value =>
    left
    simp only [Machine.turn, hcurrent, Program.advance]
  | failed error =>
    left
    simp only [Machine.turn, hcurrent, Program.advance]
  | await call next =>
    right
    rw [hcurrent] at hamid
    simpa only [Machine.turn, hcurrent, Program.advance] using
      (hamid _ .refl outcome (hsurrounds.advance_allowed hlegal hcurrent)).1

end Runs

end VmsLite.Async
