import VmsLite.Async.Typestate

/-!
# Watching a run

A property of a run often speaks of what was called by whom: which thread removed a path, what it
had been told before. `labelled` marks the calls of a program with a label, and `Machine.watched`
keeps, beside the world, what an observer has made of the labelled calls and their replies so far.
No program reads it, and the world is what it would be without the observer.
-/

set_option autoImplicit false

namespace VmsLite.Async

variable {Call : Type} {Reply : Call → Type} {Err World Outcome Event Label Seen State α β : Type}

namespace Program

/-- A program whose calls carry a label. -/
def labelled (label : Label) : Program Call Reply Err α →
    Program (Label × Call) (fun call ↦ Reply call.2) Err α
  | done value => done value
  | failed error => failed error
  | await call next => await (label, call) fun reply ↦ (next reply).labelled label

/-- A labelled program follows a typestate that takes its label for granted. -/
theorem Follows.labelled {label : Label} {plain : Typestate Call Reply State}
    {automaton : Typestate (Label × Call) (fun call ↦ Reply call.2) State}
    (hcall : ∀ state call, plain.permits state call → automaton.permits state (label, call) ∧
      ∀ reply, automaton.expects state (label, call) reply → plain.expects state call reply ∧
        automaton.step state (label, call) reply = plain.step state call reply)
    {post : α → State → Prop} {thrown : Err → State → Prop} {state : State}
    {program : Program Call Reply Err α} (hfollows : program.Follows plain post thrown state) :
    (program.labelled label).Follows automaton post thrown state := by
  induction program generalizing state with
  | done value => exact hfollows
  | failed error => exact hfollows
  | await call next ih =>
    obtain ⟨hpermits, hreply⟩ := hcall state call hfollows.1
    refine ⟨hpermits, fun reply hexpected ↦ ?_⟩
    obtain ⟨hexpects, hstep⟩ := hreply reply hexpected
    show ((next reply).labelled label).Follows automaton post thrown
      (automaton.step state (label, call) reply)
    rw [hstep]
    exact ih reply (hfollows.2 reply hexpects)

/-- A program without the labels of its calls. -/
def unlabelled : Program (Label × Call) (fun call ↦ Reply call.2) Err α → Program Call Reply Err α
  | done value => done value
  | failed error => failed error
  | await call next => await call.2 fun reply ↦ (next reply).unlabelled

theorem unlabelled_labelled (label : Label) (program : Program Call Reply Err α) :
    (program.labelled label).unlabelled = program := by
  induction program with
  | done value => rfl
  | failed error => rfl
  | await call next ih => exact congrArg (await call) (funext ih)

theorem unlabelled_bind (program : Program (Label × Call) (fun call ↦ Reply call.2) Err α)
    (rest : α → Program (Label × Call) (fun call ↦ Reply call.2) Err β) :
    (program.bind rest).unlabelled = program.unlabelled.bind fun value ↦
        (rest value).unlabelled := by
  induction program with
  | done value => rfl
  | failed error => rfl
  | await call next ih => exact congrArg (await call.2) (funext ih)

theorem unlabelled_foldlM {items : List α}
    {body : β → α → Program (Label × Call) (fun call ↦ Reply call.2) Err β} {total : β} :
    (items.foldlM body total).unlabelled =
      items.foldlM (fun total item ↦ (body total item).unlabelled) total := by
  induction items generalizing total with
  | nil => rfl
  | cons item items ih =>
    rw [List.foldlM_cons, List.foldlM_cons, bind_eq, unlabelled_bind, bind_eq]
    exact congrArg _ (funext fun total ↦ ih)

/-- A labelled program waits for the reply to a call of this label. -/
def Awaits (label : Label) (program : Program (Label × Call) (fun call ↦ Reply call.2) Err α) :
    Prop :=
  ∃ call next, program = await (label, call) next

theorem Uses.labelled (label : Label) {allowed : Call → Prop} {program : Program Call Reply Err α}
    (huses : program.Uses allowed) :
    (program.labelled label).Uses fun call ↦ call.1 = label ∧ allowed call.2 := by
  induction program with
  | done value => trivial
  | failed error => trivial
  | await call next ih => exact ⟨⟨rfl, huses.1⟩, fun reply ↦ ih reply (huses.2 reply)⟩

end Program

namespace Machine

variable (machine : Machine Call Reply World Outcome Event)
  (observe : Label → (call : Call) → Reply call → World → Seen → Seen)

/-- A machine with an observer, who sees every call with its label, its reply and the world before
it. -/
def watched : Machine (Label × Call) (fun call ↦ Reply call.2) (World × Seen) Outcome Event where
  answer := fun call outcome world ↦
    let answered := machine.answer call.2 outcome world.1
    (answered.1, answered.2, observe call.1 call.2 answered.1 world.1 world.2)
  synchronous := fun call ↦ machine.synchronous call.2
  calm := machine.calm
  react := fun event world ↦ (machine.react event world.1, world.2)
  restart := fun world ↦ (machine.restart world.1, world.2)

end Machine

end VmsLite.Async
