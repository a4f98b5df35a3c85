import Mathlib.Data.List.Basic
import Mathlib.Logic.Relation

/-!
# Programs that await calls

An asynchronous function runs on its own between two `await`s and hands control back at each of
them. `Program` is that shape and nothing more: a program has finished with a value, has thrown an
error, or awaits one call and continues with the reply. The calls are the constructors of a type
`Call`, and `Reply call` is the type of the answer to a call. Programs are finite in depth, so the
loops they come from are over lists or carry a bound.

What a call does is not part of a program. `answer` says it: from the call, the outcome the
environment chose for it and the world before, it gives the reply and the world after. Failures are
outcomes; a call that may fail replies with a value that says so. `eval` runs a program to its end
under a policy that chooses every outcome, `visited` lists the worlds on the way, and `after` runs
it for as many steps as there are outcomes in a list, so that a list shorter than the program is a
crash between two awaits.

Some calls only touch the memory of the process. They are `synchronous`: no other program runs
before the next real `await`, and `settle` runs them at once.
-/

set_option autoImplicit false

namespace VmsLite.Async

/-- A program over the calls `Call`, with replies `Reply`, errors `Err` and a result in `α`. -/
inductive Program (Call : Type) (Reply : Call → Type) (Err α : Type) : Type
  | done (value : α)
  | failed (error : Err)
  | await (call : Call) (next : Reply call → Program Call Reply Err α)

namespace Program

variable {Call : Type} {Reply : Call → Type} {Err α β γ : Type}

/-- Run `rest` on the value of a program; an error skips it. -/
def bind : Program Call Reply Err α → (α → Program Call Reply Err β) → Program Call Reply Err β
  | done value, rest => rest value
  | failed error, _ => failed error
  | await call next, rest => await call fun reply ↦ (next reply).bind rest

/-- `try`/`catch`: an error of the program is handed to `handler`. -/
def catching : Program Call Reply Err α → (Err → Program Call Reply Err α) →
    Program Call Reply Err α
  | done value, _ => done value
  | failed error, handler => handler error
  | await call next, handler => await call fun reply ↦ (next reply).catching handler

/-- Whether a program has come to its end. -/
def isOver : Program Call Reply Err α → Bool
  | done _ | failed _ => true
  | await .. => false

instance : Monad (Program Call Reply Err) where
  pure := done
  bind := bind

/-- Await one call and return its reply. -/
def request (call : Call) : Program Call Reply Err (Reply call) := await call done

/-- Throw the error of a failed reply. -/
def orThrow : Except Err α → Program Call Reply Err α
  | .ok value => done value
  | .error error => failed error

@[simp] theorem pure_eq (value : α) :
    (pure value : Program Call Reply Err α) = done value := rfl

@[simp] theorem bind_eq (program : Program Call Reply Err α)
    (rest : α → Program Call Reply Err β) : program >>= rest = program.bind rest := rfl

@[simp] theorem done_bind (value : α) (rest : α → Program Call Reply Err β) :
    (done value).bind rest = rest value := rfl

@[simp] theorem failed_bind (error : Err) (rest : α → Program Call Reply Err β) :
    (failed error : Program Call Reply Err α).bind rest = failed error := rfl

@[simp] theorem await_bind (call : Call) (next : Reply call → Program Call Reply Err α)
    (rest : α → Program Call Reply Err β) :
    (await call next).bind rest = await call fun reply ↦ (next reply).bind rest := rfl

@[simp] theorem request_bind (call : Call) (rest : Reply call → Program Call Reply Err β) :
    (request call).bind rest = await call rest := rfl

@[simp] theorem orThrow_ok (value : α) :
    (orThrow (.ok value) : Program Call Reply Err α) = done value := rfl

@[simp] theorem orThrow_error (error : Err) :
    (orThrow (.error error) : Program Call Reply Err α) = failed error := rfl

@[simp] theorem done_catching (value : α) (handler : Err → Program Call Reply Err α) :
    (done value).catching handler = done value := rfl

@[simp] theorem failed_catching (error : Err) (handler : Err → Program Call Reply Err α) :
    (failed error).catching handler = handler error := rfl

@[simp] theorem await_catching (call : Call) (next : Reply call → Program Call Reply Err α)
    (handler : Err → Program Call Reply Err α) :
    (await call next).catching handler = await call fun reply ↦ (next reply).catching handler :=
  rfl

theorem bind_assoc (program : Program Call Reply Err α) (first : α → Program Call Reply Err β)
    (second : β → Program Call Reply Err γ) :
    (program.bind first).bind second = program.bind fun value ↦ (first value).bind second := by
  induction program with
  | done value => rfl
  | failed error => rfl
  | await call next ih =>
    simp only [await_bind, await.injEq, heq_eq_eq, true_and]
    funext reply
    exact ih reply

theorem bind_done (program : Program Call Reply Err α) : program.bind done = program := by
  induction program with
  | done value => rfl
  | failed error => rfl
  | await call next ih => exact congrArg (await call) (funext ih)

/-! ### Running one program -/

section Run

variable {World Outcome : Type} (answer : (call : Call) → Outcome → World → Reply call × World)

/-- Run a program to its end, the policy choosing the outcome of every call. -/
def eval (policy : Call → World → Outcome) : Program Call Reply Err α → World →
    Except Err α × World
  | done value, world => (.ok value, world)
  | failed error, world => (.error error, world)
  | await call next, world =>
    let answered := answer call (policy call world) world
    eval policy (next answered.1) answered.2

/-- The worlds a program goes through after each of its calls, in order. -/
def visited (policy : Call → World → Outcome) : Program Call Reply Err α → World → List World
  | done _, _ => []
  | failed _, _ => []
  | await call next, world =>
    let answered := answer call (policy call world) world
    answered.2 :: visited policy (next answered.1) answered.2

/-- One awaited call of a program, with the given outcome. -/
def advance (outcome : Outcome) : Program Call Reply Err α × World →
    Program Call Reply Err α × World
  | (done value, world) => (done value, world)
  | (failed error, world) => (failed error, world)
  | (await call next, world) =>
    let answered := answer call outcome world
    (next answered.1, answered.2)

/-- A program after as many calls as there are outcomes. -/
def after (outcomes : List Outcome) (state : Program Call Reply Err α × World) :
    Program Call Reply Err α × World :=
  outcomes.foldl (fun reached outcome ↦ advance answer outcome reached) state

/-- Run the synchronous calls at the head of a program. -/
def settle (synchronous : Call → Bool) (calm : Outcome) : Program Call Reply Err α → World →
    Program Call Reply Err α × World
  | done value, world => (done value, world)
  | failed error, world => (failed error, world)
  | await call next, world =>
    if synchronous call then
      let answered := answer call calm world
      settle synchronous calm (next answered.1) answered.2
    else (await call next, world)

variable (policy : Call → World → Outcome)

@[simp] theorem eval_done (value : α) (world : World) :
    eval answer policy (done value : Program Call Reply Err α) world = (.ok value, world) := rfl

@[simp] theorem eval_failed (error : Err) (world : World) :
    eval answer policy (failed error : Program Call Reply Err α) world =
      (.error error, world) := rfl

@[simp] theorem eval_await (call : Call) (next : Reply call → Program Call Reply Err α)
    (world : World) :
    eval answer policy (await call next) world =
      eval answer policy (next (answer call (policy call world) world).1)
        (answer call (policy call world) world).2 := rfl

/-- A sequence of programs runs its first part, then the second on the value of the first. -/
theorem eval_bind (program : Program Call Reply Err α) (rest : α → Program Call Reply Err β)
    (world : World) :
    eval answer policy (program.bind rest) world =
      match eval answer policy program world with
      | (.ok value, reached) => eval answer policy (rest value) reached
      | (.error error, reached) => (.error error, reached) := by
  induction program generalizing world with
  | done value => rfl
  | failed error => rfl
  | await call next ih => exact ih _ _

/-- Running on from a program that returned a value. -/
theorem eval_bind_of_ok {program : Program Call Reply Err α}
    {rest : α → Program Call Reply Err β} {world reached : World} {value : α}
    (hfirst : eval answer policy program world = (.ok value, reached)) :
    eval answer policy (program.bind rest) world = eval answer policy (rest value) reached := by
  rw [eval_bind, hfirst]

/-- A program that throws skips what comes after it. -/
theorem eval_bind_of_error {program : Program Call Reply Err α}
    {rest : α → Program Call Reply Err β} {world reached : World} {error : Err}
    (hfirst : eval answer policy program world = (.error error, reached)) :
    eval answer policy (program.bind rest) world = (.error error, reached) := by
  rw [eval_bind, hfirst]

/-- Where a sequence ends, by where its first part ends and how. -/
theorem eval_bind_world (kept : World → Prop) {program : Program Call Reply Err α}
    {rest : α → Program Call Reply Err β} {world : World}
    (hok : ∀ value reached, eval answer policy program world = (.ok value, reached) →
      kept (eval answer policy (rest value) reached).2)
    (herror : ∀ error reached, eval answer policy program world = (.error error, reached) →
      kept reached) :
    kept (eval answer policy (program.bind rest) world).2 := by
  cases hran : eval answer policy program world with
  | mk result reached =>
    cases result with
    | ok value =>
      rw [eval_bind_of_ok answer policy hran]
      exact hok value reached hran
    | error error =>
      rw [eval_bind_of_error answer policy hran]
      exact herror error reached hran

/-- `try`/`catch` runs the handler exactly on an error. -/
theorem eval_catching (program : Program Call Reply Err α)
    (handler : Err → Program Call Reply Err α) (world : World) :
    eval answer policy (program.catching handler) world =
      match eval answer policy program world with
      | (.ok value, reached) => (.ok value, reached)
      | (.error error, reached) => eval answer policy (handler error) reached := by
  induction program generalizing world with
  | done value => rfl
  | failed error => rfl
  | await call next ih => exact ih _ _

/-- A body that throws hands over to the handler. -/
theorem eval_catching_of_error {program : Program Call Reply Err α}
    {handler : Err → Program Call Reply Err α} {world reached : World} {error : Err}
    (hbody : eval answer policy program world = (.error error, reached)) :
    eval answer policy (program.catching handler) world =
      eval answer policy (handler error) reached := by
  rw [eval_catching, hbody]

@[simp] theorem visited_done (value : α) (world : World) :
    visited answer policy (done value : Program Call Reply Err α) world = [] := rfl

@[simp] theorem visited_failed (error : Err) (world : World) :
    visited answer policy (failed error : Program Call Reply Err α) world = [] := rfl

@[simp] theorem visited_await (call : Call) (next : Reply call → Program Call Reply Err α)
    (world : World) :
    visited answer policy (await call next) world =
      (answer call (policy call world) world).2 ::
        visited answer policy (next (answer call (policy call world) world).1)
          (answer call (policy call world) world).2 := rfl

/-- A sequence visits what its parts visit. -/
theorem visited_bind (program : Program Call Reply Err α) (rest : α → Program Call Reply Err β)
    (world : World) :
    visited answer policy (program.bind rest) world =
      visited answer policy program world ++
        match eval answer policy program world with
        | (.ok value, reached) => visited answer policy (rest value) reached
        | (.error _, _) => [] := by
  induction program generalizing world with
  | done value => rfl
  | failed error => rfl
  | await call next ih =>
    simp only [await_bind, visited_await, eval_await, List.cons_append]
    rw [ih]

/-- `try`/`catch` visits what its body visits, and then, on an error, what the handler visits. -/
theorem visited_catching (program : Program Call Reply Err α)
    (handler : Err → Program Call Reply Err α) (world : World) :
    visited answer policy (program.catching handler) world =
      visited answer policy program world ++
        match eval answer policy program world with
        | (.ok _, _) => []
        | (.error error, reached) => visited answer policy (handler error) reached := by
  induction program generalizing world with
  | done value => rfl
  | failed error => rfl
  | await call next ih =>
    simp only [await_catching, visited_await, eval_await, List.cons_append]
    rw [ih]

/-- What the first part of a sequence visits, the sequence visits. -/
theorem mem_visited_bind {program : Program Call Reply Err α}
    {rest : α → Program Call Reply Err β} {world reached : World}
    (hreached : reached ∈ visited answer policy program world) :
    reached ∈ visited answer policy (program.bind rest) world := by
  rw [visited_bind]
  exact List.mem_append_left _ hreached

/-- What a body visits, its `try`/`catch` visits. -/
theorem mem_visited_catching {program : Program Call Reply Err α}
    {handler : Err → Program Call Reply Err α} {world reached : World}
    (hreached : reached ∈ visited answer policy program world) :
    reached ∈ visited answer policy (program.catching handler) world := by
  rw [visited_catching]
  exact List.mem_append_left _ hreached

/-- What a sequence visits after its first part returned a value. -/
theorem visited_bind_of_ok {program : Program Call Reply Err α}
    {rest : α → Program Call Reply Err β} {world reached : World} {value : α}
    (hfirst : eval answer policy program world = (.ok value, reached)) :
    visited answer policy (program.bind rest) world =
      visited answer policy program world ++ visited answer policy (rest value) reached := by
  rw [visited_bind, hfirst]

/-- A program ends in its first world or in one it visits. -/
theorem eval_mem_visited (program : Program Call Reply Err α) (world : World) :
    (eval answer policy program world).2 ∈ world :: visited answer policy program world := by
  induction program generalizing world with
  | done value => exact List.mem_cons_self
  | failed error => exact List.mem_cons_self
  | await call next ih => exact List.mem_cons_of_mem _ (ih _ _)

/-- What a sequence visits from the end of its first part on. -/
theorem mem_visited_bind_of_ok {program : Program Call Reply Err α}
    {rest : α → Program Call Reply Err β} {world reached later : World} {value : α}
    (hfirst : eval answer policy program world = (.ok value, reached))
    (hlater : later ∈ reached :: visited answer policy (rest value) reached) :
    later ∈ world :: visited answer policy (program.bind rest) world := by
  rw [visited_bind_of_ok answer policy hfirst]
  rcases List.mem_cons.mp hlater with rfl | hrest
  · have hend := eval_mem_visited answer policy program world
    rw [hfirst] at hend
    exact List.mem_append_left _ hend
  · exact List.mem_cons_of_mem _ (List.mem_append_right _ hrest)

@[simp] theorem after_nil (state : Program Call Reply Err α × World) :
    after answer [] state = state := rfl

@[simp] theorem after_cons (outcome : Outcome) (outcomes : List Outcome)
    (state : Program Call Reply Err α × World) :
    after answer (outcome :: outcomes) state =
      after answer outcomes (advance answer outcome state) := rfl

end Run

end Program

end VmsLite.Async
