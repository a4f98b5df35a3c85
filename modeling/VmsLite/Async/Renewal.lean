import VmsLite.Async.Sequential

/-!
# Decisions that go stale

A program reads the world, decides, and acts some calls later, while the world changes around it.
Some calls ask again: after one of them the program has seen whatever was committed before it.
`Careful` follows a program under the changes that `rely` describes, together with a proposition
that says whether it has asked since the commit, and asks of every call a `step` that may depend on
it. `AsksFirst` says of a program in the middle of its run that it asks again before it makes any of
the `target` calls. `Reaches.kept` puts the two together: what a program that has asked keeps, and
what only the target calls could break, survives a commit at which the program asks first.
-/

set_option autoImplicit false

namespace VmsLite.Async

variable {Call : Type} {Reply : Call → Type} {Err World Outcome Event α β : Type}

namespace Program

/-- Whether a program waits for a call that leaves the process, or is over. -/
def isSuspended (synchronous : Call → Bool) : Program Call Reply Err α → Bool
  | done _ | failed _ => true
  | await call _ => !synchronous call

variable (answer : (call : Call) → Outcome → World → Reply call × World)
  (rely : World → World → Prop) (step : Prop → World → World → Prop)
  (renews : Call → World → Prop)

/-- Whatever `rely` does between its calls, every call of a program takes a step. The proposition
becomes true with a call that renews. -/
def Careful (post : Prop → α → World → Prop) (thrown : Prop → Err → World → Prop) :
    Program Call Reply Err α → Prop → World → Prop
  | done value, renewed, world => post renewed value world
  | failed error, renewed, world => thrown renewed error world
  | await call next, renewed, world => ∀ later, rely world later → ∀ outcome,
      step renewed later (answer call outcome later).2 ∧
        Careful post thrown (next (answer call outcome later).1) (renewed ∨ renews call later)
          (answer call outcome later).2

/-- Whatever `rely` does between its calls, a program makes an asking call before it makes a target
call. -/
def AsksFirst (asks target : Call → Prop) : Program Call Reply Err α → World → Prop
  | done _, _ => True
  | failed _, _ => True
  | await call next, world => asks call ∨ ¬ target call ∧ ∀ later, rely world later → ∀ outcome,
      AsksFirst asks target (next (answer call outcome later).1) (answer call outcome later).2

variable {answer rely step renews} {post : Prop → α → World → Prop}
  {thrown : Prop → Err → World → Prop} {renewed : Prop} {world : World}

/-- Postconditions may be weakened. -/
theorem Careful.mono {post' : Prop → α → World → Prop} {thrown' : Prop → Err → World → Prop}
    {program : Program Call Reply Err α}
    (hcareful : program.Careful answer rely step renews post thrown renewed world)
    (hpost : ∀ renewed value world, post renewed value world → post' renewed value world)
    (hthrown : ∀ renewed error world, thrown renewed error world → thrown' renewed error world) :
    program.Careful answer rely step renews post' thrown' renewed world := by
  induction program generalizing renewed world with
  | done value => exact hpost _ _ _ hcareful
  | failed error => exact hthrown _ _ _ hcareful
  | await call next ih =>
    intro later hlater outcome
    obtain ⟨hstep, hnext⟩ := hcareful later hlater outcome
    exact ⟨hstep, ih _ hnext⟩

/-- A sequence is careful when its first part is, and its second part is on what the first
returns. -/
theorem Careful.bind {middle : Prop → α → World → Prop} {post : Prop → β → World → Prop}
    {program : Program Call Reply Err α} {rest : α → Program Call Reply Err β}
    (hfirst : program.Careful answer rely step renews middle thrown renewed world)
    (hrest : ∀ renewed value world, middle renewed value world →
      (rest value).Careful answer rely step renews post thrown renewed world) :
    (program.bind rest).Careful answer rely step renews post thrown renewed world := by
  induction program generalizing renewed world with
  | done value => exact hrest _ _ _ hfirst
  | failed error => exact hfirst
  | await call next ih =>
    intro later hlater outcome
    obtain ⟨hstep, hnext⟩ := hfirst later hlater outcome
    exact ⟨hstep, ih _ hnext⟩

/-- A `try`/`catch` is careful when its body is, and its handler is on what the body throws. -/
theorem Careful.catching (caught : Prop → Err → World → Prop) {program : Program Call Reply Err α}
    {handler : Err → Program Call Reply Err α}
    (hbody : program.Careful answer rely step renews post caught renewed world)
    (hhandler : ∀ renewed error world, caught renewed error world →
      (handler error).Careful answer rely step renews post thrown renewed world) :
    (program.catching handler).Careful answer rely step renews post thrown renewed world := by
  induction program generalizing renewed world with
  | done value => exact hbody
  | failed error => exact hhandler _ _ _ hbody
  | await call next ih =>
    intro later hlater outcome
    obtain ⟨hstep, hnext⟩ := hbody later hlater outcome
    exact ⟨hstep, ih _ hnext⟩

theorem Careful.orThrow {reply : Except Err α}
    (hok : ∀ value, reply = .ok value → post renewed value world)
    (herror : ∀ error, reply = .error error → thrown renewed error world) :
    (orThrow reply : Program Call Reply Err α).Careful answer rely step renews post thrown renewed
      world := by
  cases reply with
  | ok value => exact hok value rfl
  | error error => exact herror error rfl

/-- A loop over a list is careful when its rounds keep an invariant. -/
theorem Careful.foldlM (invariant : Prop → β → World → Prop) {items : List α}
    {body : β → α → Program Call Reply Err β}
    (hbody : ∀ renewed total, ∀ item ∈ items, ∀ world, invariant renewed total world →
      (body total item).Careful answer rely step renews invariant thrown renewed world)
    {total : β} (hstart : invariant renewed total world) :
    (items.foldlM body total).Careful answer rely step renews invariant thrown renewed world := by
  induction items generalizing total renewed world with
  | nil => exact hstart
  | cons item rest ih =>
    rw [List.foldlM_cons]
    refine Careful.bind (hbody renewed total item List.mem_cons_self world hstart) ?_
    intro renewed value reached hreached
    exact ih (fun renewed total next hnext ↦
      hbody renewed total next (List.mem_cons_of_mem _ hnext)) hreached

/-- A program whose calls all take a step and keep what is known. -/
theorem Careful.of_uses {used : Call → Prop} (known : Prop → World → Prop)
    {program : Program Call Reply Err α} (huses : program.Uses used)
    (hrely : ∀ renewed before after, rely before after → known renewed before →
      known renewed after)
    (hcall : ∀ call renewed outcome world, used call → known renewed world →
      step renewed world (answer call outcome world).2 ∧
        known (renewed ∨ renews call world) (answer call outcome world).2)
    (hknown : known renewed world) :
    program.Careful answer rely step renews (fun renewed _ world ↦ known renewed world)
      (fun renewed _ world ↦ known renewed world) renewed world := by
  induction program generalizing renewed world with
  | done value => exact hknown
  | failed error => exact hknown
  | await call next ih =>
    intro later hlater outcome
    obtain ⟨hstep, hnext⟩ := hcall call renewed outcome later huses.1 (hrely _ _ _ hlater hknown)
    exact ⟨hstep, ih _ (huses.2 _) hnext⟩

/-- A careful program may be interfered with before its first call. -/
theorem Careful.later {program : Program Call Reply Err α} {later : World}
    (htrans : ∀ first second third, rely first second → rely second third → rely first third)
    (hcareful : program.Careful answer rely step renews (fun _ _ _ ↦ True) (fun _ _ _ ↦ True)
      renewed world)
    (hlater : rely world later) :
    program.Careful answer rely step renews (fun _ _ _ ↦ True) (fun _ _ _ ↦ True) renewed
      later := by
  cases program with
  | done value => trivial
  | failed error => trivial
  | await call next => exact fun last hlast ↦ hcareful last (htrans _ _ _ hlater hlast)

/-- A program asks first however it is interfered with. -/
theorem AsksFirst.later {asks target : Call → Prop} {program : Program Call Reply Err α}
    {later : World}
    (htrans : ∀ first second third, rely first second → rely second third → rely first third)
    (hasks : program.AsksFirst answer rely asks target world) (hlater : rely world later) :
    program.AsksFirst answer rely asks target later := by
  cases program with
  | done value => trivial
  | failed error => trivial
  | await call next =>
    rcases hasks with hasks | ⟨htarget, hnext⟩
    · exact Or.inl hasks
    · exact Or.inr ⟨htarget, fun last hlast ↦ hnext last (htrans _ _ _ hlater hlast)⟩

end Program

/-! ### Runs -/

section Runs

variable {machine : Machine Call Reply World Outcome Event} {rely : World → World → Prop}
  {step : Prop → World → World → Prop} {renews : Call → World → Prop}
  {legal : Turn Call Reply Err World → TurnMove Call Reply Err Outcome Event → Prop}
  {initial state : Turn Call Reply Err World}

/-- The program of a turn is careful, whether or not it has asked. -/
def Turn.Careful (machine : Machine Call Reply World Outcome Event) (rely : World → World → Prop)
    (step : Prop → World → World → Prop) (renews : Call → World → Prop)
    (state : Turn Call Reply Err World) : Prop :=
  ∃ renewed, state.current.Careful machine.answer rely step renews (fun _ _ _ ↦ True)
    (fun _ _ _ ↦ True) renewed state.world

/-- Runs in which no program starts, and the world changes around the program as it relies on. -/
structure Alone (machine : Machine Call Reply World Outcome Event) (rely : World → World → Prop)
    (legal : Turn Call Reply Err World → TurnMove Call Reply Err Outcome Event → Prop) : Prop where
  rely_refl : ∀ world, rely world world
  rely_trans : ∀ first second third, rely first second → rely second third → rely first third
  not_start : ∀ {state program}, ¬ legal state (.start program)
  environment_rely : ∀ {state event}, legal state (.environment event) →
    rely state.world (machine.react event state.world)

/-- What the calls of a program and what happens around it keep holds in every state reached. -/
theorem Reaches.of_uses {used : Call → Prop} {invariant : World → Prop}
    (halone : Alone machine rely legal) (huses : initial.current.Uses used)
    (hcall : ∀ call outcome world, used call → invariant world →
      invariant (machine.answer call outcome world).2)
    (hrely : ∀ before after, rely before after → invariant before → invariant after)
    (hrestart : ∀ world, invariant world → invariant (machine.restart world))
    (hinitial : invariant initial.world) (hreached : Reaches machine.turn legal initial state) :
    state.current.Uses used ∧ invariant state.world := by
  induction hreached with
  | refl => exact ⟨huses, hinitial⟩
  | @step state move hbefore hlegal ih =>
    obtain ⟨huses, hinvariant⟩ := ih
    cases move with
    | start program => exact absurd hlegal halone.not_start
    | advance outcome =>
      cases hcurrent : state.current with
      | done value =>
        simp only [Machine.turn, hcurrent, Program.advance]
        exact ⟨trivial, hinvariant⟩
      | failed error =>
        simp only [Machine.turn, hcurrent, Program.advance]
        exact ⟨trivial, hinvariant⟩
      | await call next =>
        rw [hcurrent] at huses
        simp only [Machine.turn, hcurrent, Program.advance]
        exact ⟨huses.2 _, hcall call outcome state.world huses.1 hinvariant⟩
    | crash => exact ⟨trivial, hrestart _ hinvariant⟩
    | environment event => exact ⟨huses, hrely _ _ (halone.environment_rely hlegal) hinvariant⟩

/-- A careful program stays careful. -/
theorem Reaches.careful (halone : Alone machine rely legal)
    (hinitial : initial.Careful machine rely step renews)
    (hreached : Reaches machine.turn legal initial state) :
    state.Careful machine rely step renews := by
  induction hreached with
  | refl => exact hinitial
  | @step state move hbefore hlegal ih =>
    obtain ⟨renewed, hcareful⟩ := ih
    cases move with
    | start program => exact absurd hlegal halone.not_start
    | advance outcome =>
      cases hcurrent : state.current with
      | done value =>
        simp only [Turn.Careful, Machine.turn, hcurrent, Program.advance]
        exact ⟨renewed, trivial⟩
      | failed error =>
        simp only [Turn.Careful, Machine.turn, hcurrent, Program.advance]
        exact ⟨renewed, trivial⟩
      | await call next =>
        rw [hcurrent] at hcareful
        simp only [Turn.Careful, Machine.turn, hcurrent, Program.advance]
        exact ⟨_, (hcareful _ (halone.rely_refl _) outcome).2⟩
    | crash => exact ⟨renewed, trivial⟩
    | environment event =>
      exact ⟨renewed, hcareful.later halone.rely_trans (halone.environment_rely hlegal)⟩

/-- What a commit protects: `kept` is broken neither by a program that has asked, nor by a call that
is no target, nor from outside, and `committed` is never taken back. -/
structure Protects (machine : Machine Call Reply World Outcome Event)
    (rely : World → World → Prop) (step : Prop → World → World → Prop)
    (asks target : Call → Prop) (committed kept : World → Prop) : Prop where
  asked_kept : ∀ {renewed before after}, renewed → step renewed before after → kept before →
    kept after
  call_kept : ∀ {call outcome world}, asks call ∨ ¬ target call → kept world →
    kept (machine.answer call outcome world).2
  rely_kept : ∀ {before after}, rely before after → kept before → kept after
  restart_kept : ∀ {world}, kept world → kept (machine.restart world)
  step_committed : ∀ {renewed before after}, step renewed before after → committed before →
    committed after
  rely_committed : ∀ {before after}, rely before after → committed before → committed after
  restart_committed : ∀ {world}, committed world → committed (machine.restart world)

/-- After a commit: the program asks first or has asked, and what was committed is still there. -/
structure Turn.Protected (machine : Machine Call Reply World Outcome Event)
    (rely : World → World → Prop) (step : Prop → World → World → Prop)
    (asks target : Call → Prop) (committed kept : World → Prop)
    (state : Turn Call Reply Err World) : Prop where
  careful : ∃ renewed, state.current.Careful machine.answer rely step
      (fun call world ↦ asks call ∧ committed world) (fun _ _ _ ↦ True) (fun _ _ _ ↦ True) renewed
        state.world ∧
    (renewed ∨ state.current.AsksFirst machine.answer rely asks target state.world)
  committed : committed state.world
  kept : kept state.world

/-- Once a commit is made while the program asks first, nothing breaks what it protects. -/
theorem Reaches.kept {asks target : Call → Prop} {committed kept : World → Prop}
    (halone : Alone machine rely legal)
    (hprotects : Protects machine rely step asks target committed kept)
    (hcareful : initial.Careful machine rely step
      fun call world ↦ asks call ∧ committed world)
    (hasks : initial.current.AsksFirst machine.answer rely asks target initial.world)
    (hcommitted : committed initial.world) (hkept : kept initial.world)
    (hreached : Reaches machine.turn legal initial state) : kept state.world := by
  have hprotected : state.Protected machine rely step asks target committed kept := by
    refine hreached.invariant ?_ ?_
    · obtain ⟨renewed, hcareful⟩ := hcareful
      exact ⟨⟨renewed, hcareful, Or.inr hasks⟩, hcommitted, hkept⟩
    · rintro state move - ⟨⟨renewed, hcareful, hrenewed⟩, hcommitted, hkept⟩ hlegal
      cases move with
      | start program => exact absurd hlegal halone.not_start
      | advance outcome =>
        cases hcurrent : state.current with
        | done value =>
          simp only [Machine.turn, hcurrent, Program.advance]
          exact ⟨⟨renewed, trivial, Or.inr trivial⟩, hcommitted, hkept⟩
        | failed error =>
          simp only [Machine.turn, hcurrent, Program.advance]
          exact ⟨⟨renewed, trivial, Or.inr trivial⟩, hcommitted, hkept⟩
        | await call next =>
          rw [hcurrent] at hcareful hrenewed
          obtain ⟨hstep, hnext⟩ := hcareful _ (halone.rely_refl _) outcome
          simp only [Machine.turn, hcurrent, Program.advance]
          refine ⟨⟨_, hnext, ?_⟩, hprotects.step_committed hstep hcommitted, ?_⟩
          · rcases hrenewed with hrenewed | hasks | ⟨-, hasks⟩
            · exact Or.inl (Or.inl hrenewed)
            · exact Or.inl (Or.inr ⟨hasks, hcommitted⟩)
            · exact Or.inr (hasks _ (halone.rely_refl _) outcome)
          · rcases hrenewed with hrenewed | hasks
            · exact hprotects.asked_kept hrenewed hstep hkept
            · exact hprotects.call_kept (hasks.imp_right And.left) hkept
      | crash =>
        exact ⟨⟨renewed, trivial, Or.inr trivial⟩, hprotects.restart_committed hcommitted,
          hprotects.restart_kept hkept⟩
      | environment event =>
        have hrely := halone.environment_rely hlegal
        exact ⟨⟨renewed, hcareful.later halone.rely_trans hrely,
          hrenewed.imp_right fun hasks ↦ hasks.later halone.rely_trans hrely⟩,
          hprotects.rely_committed hrely hcommitted, hprotects.rely_kept hrely hkept⟩
  exact hprotected.kept

end Runs

end VmsLite.Async
