import VmsLite.Async.RelyGuarantee

/-!
# Which calls a program makes

`Uses allowed program` says that every call a program can make is one of the `allowed`, whatever the
replies. What all allowed calls preserve, the program preserves: at its end (`Uses.eval`) and at
every step on the way (`Uses.visited`). A program whose calls all satisfy the guarantee of a
discipline is safe in it (`Safe.of_uses`), and policies that agree on the allowed calls run it alike
(`Uses.eval_congr`). `Returns expected program` says that a program throws nothing as long as every
reply is one of the `expected`.
-/

set_option autoImplicit false

namespace VmsLite.Async

namespace Program

variable {Call : Type} {Reply : Call → Type} {Err World Outcome Event α β : Type}

/-- Every call a program can make is allowed. -/
def Uses (allowed : Call → Prop) : Program Call Reply Err α → Prop
  | done _ => True
  | failed _ => True
  | await call next => allowed call ∧ ∀ reply, (next reply).Uses allowed

variable {allowed : Call → Prop}

theorem Uses.mono {wider : Call → Prop} {program : Program Call Reply Err α}
    (huses : program.Uses allowed) (hwider : ∀ call, allowed call → wider call) :
    program.Uses wider := by
  induction program with
  | done value => trivial
  | failed error => trivial
  | await call next ih => exact ⟨hwider call huses.1, fun reply ↦ ih reply (huses.2 reply)⟩

theorem Uses.and {also : Call → Prop} {program : Program Call Reply Err α}
    (hfirst : program.Uses allowed) (hsecond : program.Uses also) :
    program.Uses fun call ↦ allowed call ∧ also call := by
  induction program with
  | done value => trivial
  | failed error => trivial
  | await call next ih =>
    exact ⟨⟨hfirst.1, hsecond.1⟩, fun reply ↦ ih reply (hfirst.2 reply) (hsecond.2 reply)⟩

theorem Uses.bind {program : Program Call Reply Err α} {rest : α → Program Call Reply Err β}
    (hfirst : program.Uses allowed) (hrest : ∀ value, (rest value).Uses allowed) :
    (program.bind rest).Uses allowed := by
  induction program with
  | done value => exact hrest value
  | failed error => trivial
  | await call next ih => exact ⟨hfirst.1, fun reply ↦ ih reply (hfirst.2 reply)⟩

theorem Uses.catching {program : Program Call Reply Err α}
    {handler : Err → Program Call Reply Err α} (hbody : program.Uses allowed)
    (hhandler : ∀ error, (handler error).Uses allowed) :
    (program.catching handler).Uses allowed := by
  induction program with
  | done value => trivial
  | failed error => exact hhandler error
  | await call next ih => exact ⟨hbody.1, fun reply ↦ ih reply (hbody.2 reply)⟩

theorem Uses.request {call : Call} (hcall : allowed call) :
    (request call : Program Call Reply Err (Reply call)).Uses allowed :=
  ⟨hcall, fun _ ↦ trivial⟩

theorem Uses.orThrow {reply : Except Err α} :
    (orThrow reply : Program Call Reply Err α).Uses allowed := by
  cases reply <;> trivial

theorem Uses.foldlM {items : List α} {body : β → α → Program Call Reply Err β}
    (hbody : ∀ total, ∀ item ∈ items, (body total item).Uses allowed) {total : β} :
    (items.foldlM body total).Uses allowed := by
  induction items generalizing total with
  | nil => trivial
  | cons item rest ih =>
    rw [List.foldlM_cons]
    refine Uses.bind (hbody total item List.mem_cons_self) fun value ↦ ?_
    exact ih fun total next hnext ↦ hbody total next (List.mem_cons_of_mem _ hnext)

section Preserve

variable {answer : (call : Call) → Outcome → World → Reply call × World}
  {invariant : World → Prop}

/-- What the allowed calls preserve holds at the end of a program. -/
theorem Uses.eval (policy : Call → World → Outcome) {program : Program Call Reply Err α}
    (huses : program.Uses allowed)
    (hcall : ∀ call outcome world, allowed call → invariant world →
      invariant (answer call outcome world).2) {world : World} (hworld : invariant world) :
    invariant (program.eval answer policy world).2 := by
  induction program generalizing world with
  | done value => exact hworld
  | failed error => exact hworld
  | await call next ih => exact ih _ (huses.2 _) (hcall _ _ _ huses.1 hworld)

/-- What the allowed calls preserve holds at every step of a program. -/
theorem Uses.visited (policy : Call → World → Outcome) {program : Program Call Reply Err α}
    (huses : program.Uses allowed)
    (hcall : ∀ call outcome world, allowed call → invariant world →
      invariant (answer call outcome world).2) {world : World} (hworld : invariant world) :
    ∀ reached ∈ program.visited answer policy world, invariant reached := by
  induction program generalizing world with
  | done value => exact fun reached hreached ↦ absurd hreached List.not_mem_nil
  | failed error => exact fun reached hreached ↦ absurd hreached List.not_mem_nil
  | await call next ih =>
    intro reached hreached
    have hnext := hcall call (policy call world) world huses.1 hworld
    rcases List.mem_cons.mp hreached with rfl | hlater
    · exact hnext
    · exact ih _ (huses.2 _) hnext reached hlater

/-- Policies that agree on the allowed calls run a program alike. -/
theorem Uses.eval_congr {policy other : Call → World → Outcome}
    {program : Program Call Reply Err α} (huses : program.Uses allowed)
    (hagree : ∀ call world, allowed call → policy call world = other call world) (world : World) :
    program.eval answer policy world = program.eval answer other world := by
  induction program generalizing world with
  | done value => rfl
  | failed error => rfl
  | await call next ih =>
    rw [eval_await, eval_await, hagree call world huses.1]
    exact ih _ (huses.2 _) _

end Preserve

/-! ### Programs that throw nothing -/

/-- A program ends in a value, as long as every reply is one of the expected. -/
def Returns (expected : (call : Call) → Reply call → Prop) : Program Call Reply Err α → Prop
  | done _ => True
  | failed _ => False
  | await call next => ∀ reply, expected call reply → (next reply).Returns expected

variable {expected : (call : Call) → Reply call → Prop}

theorem Returns.bind {program : Program Call Reply Err α} {rest : α → Program Call Reply Err β}
    (hfirst : program.Returns expected) (hrest : ∀ value, (rest value).Returns expected) :
    (program.bind rest).Returns expected := by
  induction program with
  | done value => exact hrest value
  | failed error => exact hfirst.elim
  | await call next ih => exact fun reply hreply ↦ ih reply (hfirst reply hreply)

/-- Whatever a body throws, a `try`/`catch` throws only what its handler throws. -/
theorem Returns.catching {program : Program Call Reply Err α}
    {handler : Err → Program Call Reply Err α}
    (hhandler : ∀ error, (handler error).Returns expected) :
    (program.catching handler).Returns expected := by
  induction program with
  | done value => trivial
  | failed error => exact hhandler error
  | await call next ih => exact fun reply _ ↦ ih reply

theorem Returns.request {call : Call} :
    (request call : Program Call Reply Err (Reply call)).Returns expected :=
  fun _ _ ↦ trivial

theorem Returns.foldlM {items : List α} {body : β → α → Program Call Reply Err β}
    (hbody : ∀ total item, (body total item).Returns expected) {total : β} :
    (items.foldlM body total).Returns expected := by
  induction items generalizing total with
  | nil => trivial
  | cons item rest ih =>
    rw [List.foldlM_cons]
    exact Returns.bind (hbody total item) fun value ↦ ih

/-- A program whose replies are all expected ends in a value. -/
theorem Returns.eval {answer : (call : Call) → Outcome → World → Reply call × World}
    {policy : Call → World → Outcome} {program : Program Call Reply Err α}
    (hreturns : program.Returns expected)
    (hexpected : ∀ call world, expected call (answer call (policy call world) world).1)
    (world : World) :
    ∃ value reached, program.eval answer policy world = (.ok value, reached) := by
  induction program generalizing world with
  | done value => exact ⟨value, world, rfl⟩
  | failed error => exact hreturns.elim
  | await call next ih => exact ih _ (hreturns _ (hexpected call world)) _

/-- A program whose calls all satisfy the guarantee is safe. -/
theorem Safe.of_uses {machine : Machine Call Reply World Outcome Event}
    {discipline : Discipline machine} {program : Program Call Reply Err α}
    (huses : program.Uses allowed)
    (hcall : ∀ call outcome world, allowed call → discipline.allowed call outcome world →
      discipline.guarantee world (machine.answer call outcome world).2) (world : World) :
    program.Safe discipline (fun _ _ ↦ True) (fun _ _ ↦ True) world := by
  induction program generalizing world with
  | done value => exact fun _ _ ↦ trivial
  | failed error => exact fun _ _ ↦ trivial
  | await call next ih =>
    exact fun later _ outcome hallowed ↦
      ⟨hcall call outcome later huses.1 hallowed, ih _ (huses.2 _) _⟩

end Program

end VmsLite.Async
