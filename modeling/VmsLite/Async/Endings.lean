import Mathlib.Data.List.Basic
import VmsLite.Async.Program

/-!
# How a program ends

`Ends` is the weakest precondition of a program under every outcome of its calls: what it returns
and what it throws, where it does. Where a throw must leave things as they were, a loop of writes
that each may throw is safe just when all of them but the last one change nothing (`ends_edits`,
`forall_take_iff`).
-/

set_option autoImplicit false

namespace VmsLite.Async

variable {Call : Type} {Reply : Call → Type} {Err World Outcome α β : Type}

namespace Program

variable (answer : (call : Call) → Outcome → World → Reply call × World)

/-- Whatever the outcomes of its calls, a program returns with `post` or throws with `thrown`. -/
def Ends (post : α → World → Prop) (thrown : Err → World → Prop) :
    Program Call Reply Err α → World → Prop
  | done value, world => post value world
  | failed error, world => thrown error world
  | await call next, world => ∀ outcome,
      Ends post thrown (next (answer call outcome world).1) (answer call outcome world).2

variable {answer} {thrown : Err → World → Prop} {world : World}

theorem ends_bind {post : β → World → Prop} {program : Program Call Reply Err α}
    {rest : α → Program Call Reply Err β} :
    (program.bind rest).Ends answer post thrown world ↔
      program.Ends answer (fun value reached ↦ (rest value).Ends answer post thrown reached) thrown
        world := by
  induction program generalizing world with
  | done value => exact Iff.rfl
  | failed error => exact Iff.rfl
  | await call next ih => exact forall_congr' fun outcome ↦ ih _

/-- A loop that skips some of its items goes over the others. -/
theorem foldlM_filter {skip : α → Bool} {body : β → α → Program Call Reply Err β} (items : List α)
    (total : β) :
    items.foldlM (fun total item ↦ if skip item then pure total else body total item) total =
      (items.filter fun item ↦ !skip item).foldlM body total := by
  induction items generalizing total with
  | nil => rfl
  | cons item items ih =>
    rw [List.foldlM_cons]
    cases hskip : skip item with
    | true =>
      rw [List.filter_cons_of_neg (by simp [hskip])]
      exact ih total
    | false =>
      rw [List.filter_cons_of_pos (by simp [hskip]), List.foldlM_cons]
      exact congrArg (body total item).bind (funext ih)

/-- A loop of writes, each of which may throw in the state that the writes before it have left: it
ends where its edits lead, and a throw finds things as they were just when every state before a
write is the one at the start. -/
theorem ends_edits {State : Type} {view : World → State} {edit : State → α → State} {start : State}
    (ready : List α → World → Prop) {body : β → α → Program Call Reply Err β}
    (hbody : ∀ total item rest world, ready (item :: rest) world → ∃ value reached,
      ready rest reached ∧ view reached = edit (view world) item ∧ ∀ next : β → World → Prop,
        (body total item).Ends answer next (fun _ left ↦ view left = start) world ↔
          view world = start ∧ next value reached)
    {items : List α} {total : β} (hready : ready items world) :
    ∃ reached, ready [] reached ∧ view reached = items.foldl edit (view world) ∧
      ∀ post : World → Prop, (items.foldlM body total).Ends answer (fun _ left ↦ post left)
          (fun _ left ↦ view left = start) world ↔
        (∀ count < items.length, (items.take count).foldl edit (view world) = start) ∧
          post reached := by
  induction items generalizing total world with
  | nil => exact ⟨world, hready, rfl, fun post ↦ by simp [Ends]⟩
  | cons item items ih =>
    obtain ⟨value, between, hrest, hedit, hends⟩ := hbody total item items world hready
    obtain ⟨reached, hdone, hview, hloop⟩ := @ih between value hrest
    refine ⟨reached, hdone, by rw [hview, hedit]; rfl, fun post ↦ ?_⟩
    rw [List.foldlM_cons, bind_eq, ends_bind, hends, hloop, hedit, List.length_cons,
      Nat.forall_lt_succ_left, and_assoc]
    rfl

end Program

/-- Where all but the last of some edits must leave a state as it was, each of them does. -/
theorem forall_take_iff {State : Type} {edit : State → α → State} {start : State} (items : List α) :
    (∀ count < items.length, (items.take count).foldl edit start = start) ↔
      ∀ item ∈ items.dropLast, edit start item = start := by
  induction items with
  | nil => simp
  | cons item items ih =>
    rw [List.length_cons, Nat.forall_lt_succ_left]
    cases items with
    | nil => simp
    | cons second items =>
      rw [List.dropLast_cons_cons, List.forall_mem_cons, ← ih]
      constructor
      · rintro ⟨-, hkept⟩
        have hfirst : edit start item = start := hkept 0 (Nat.succ_pos _)
        refine ⟨hfirst, fun count hcount ↦ ?_⟩
        have hthis := hkept count hcount
        rwa [List.take_succ_cons, List.foldl_cons, hfirst] at hthis
      · rintro ⟨hfirst, hkept⟩
        refine ⟨rfl, fun count hcount ↦ ?_⟩
        rw [List.take_succ_cons, List.foldl_cons, hfirst]
        exact hkept count hcount

end VmsLite.Async
