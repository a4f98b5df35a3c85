import VmsLite.Async.Uses

/-!
# A ledger beside the world

An environment may remember more than the world shows: how many readings it has given, what was
asked of it. `withLedger` runs a program beside such a ledger, which its policy may consult and no
program sees. A program whose calls the ledger does not note runs as it does without one
(`Uses.eval_withLedger`).
-/

set_option autoImplicit false

namespace VmsLite.Async

variable {Call : Type} {Reply : Call → Type} {Err World Outcome Ledger α : Type}

/-- The answers of a machine beside a ledger that notes the calls. -/
def withLedger (answer : (call : Call) → Outcome → World → Reply call × World)
    (note : Call → Ledger → Ledger) (call : Call) (outcome : Outcome) (state : World × Ledger) :
    Reply call × (World × Ledger) :=
  ((answer call outcome state.1).1, (answer call outcome state.1).2, note call state.2)

namespace Program

/-- A program whose calls are not noted leaves the ledger alone. -/
theorem Uses.eval_withLedger {answer : (call : Call) → Outcome → World → Reply call × World}
    {note : Call → Ledger → Ledger} {allowed : Call → Prop} {policy : Call → World → Outcome}
    {noting : Call → World × Ledger → Outcome} {program : Program Call Reply Err α}
    (huses : program.Uses allowed) {ledger : Ledger}
    (hnote : ∀ call, allowed call → note call ledger = ledger)
    (hpolicy : ∀ call world, allowed call → noting call (world, ledger) = policy call world)
    (world : World) :
    program.eval (withLedger answer note) noting (world, ledger) =
      ((program.eval answer policy world).1, (program.eval answer policy world).2, ledger) := by
  induction program generalizing world with
  | done value => rfl
  | failed error => rfl
  | await call next ih =>
    rw [eval_await, eval_await, hpolicy call world huses.1, withLedger, hnote call huses.1]
    exact ih _ (huses.2 _) _

end Program

end VmsLite.Async
