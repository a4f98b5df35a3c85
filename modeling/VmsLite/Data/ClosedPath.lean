import Mathlib.Data.List.Rotate

/-!
# Closed paths

The sides of the closed path through the items of a list. They do not depend on where the list
starts (`sides_rotate`), are turned around when the list is reversed (`sides_reverse`), and an item
that is inserted replaces one side by two (`sides_insert`).
-/

set_option autoImplicit false

namespace VmsLite.Data

variable {α : Type}

/-- The items of a list, each with the one before it; the first one comes after `previous`. -/
def steps (previous : α) : List α → List (α × α)
  | [] => []
  | item :: rest => (previous, item) :: steps item rest

/-- The sides of the closed path through the items of a list. The first one comes from the last
item. -/
def sides (path : List α) : List (α × α) :=
  match path.getLast? with
  | none => []
  | some last => steps last path

theorem steps_append_singleton (previous : α) (items : List α) (item : α) :
    steps previous (items ++ [item]) = steps previous items ++
        [(items.getLastD previous, item)] := by
  induction items generalizing previous with
  | nil => rfl
  | cons first items ih =>
    rw [List.cons_append, steps, ih, List.getLastD_cons]
    rfl

/-- The steps back along a list are those along it, turned around. -/
theorem steps_reverse (first last : α) (items : List α) :
    steps last (items.reverse ++ [first]) =
      ((steps first (items ++ [last])).map Prod.swap).reverse := by
  induction items generalizing first with
  | nil => rfl
  | cons item items ih =>
    have hlast : (items.reverse ++ [item]).getLastD last = item := by simp
    rw [List.reverse_cons, steps_append_singleton, ih, hlast, List.cons_append, steps,
      List.map_cons, List.reverse_cons]
    rfl

theorem sides_concat (items : List α) (last : α) :
    sides (items ++ [last]) = steps last (items ++ [last]) := by
  unfold sides
  rw [List.getLast?_concat]

theorem sides_cons (first : α) (items : List α) :
    sides (first :: items) = (items.getLastD first, first) :: steps first items := by
  unfold sides
  rw [List.getLast?_cons, ← List.getLastD_eq_getLast?]
  rfl

theorem sides_turn (first : α) (items : List α) :
    (sides (items ++ [first])).Perm (sides (first :: items)) := by
  rw [sides_concat, steps_append_singleton, sides_cons]
  exact List.perm_append_singleton _ _

theorem sides_rotate (path : List α) (count : ℕ) :
    (sides (path.rotate count)).Perm (sides path) := by
  induction count generalizing path with
  | zero => rw [List.rotate_zero]
  | succ count ih =>
    cases path with
    | nil => rw [List.rotate_nil]
    | cons first items =>
      rw [List.rotate_cons_succ]
      exact (ih _).trans (sides_turn first items)

theorem sides_append_comm (before after : List α) :
    (sides (before ++ after)).Perm (sides (after ++ before)) := by
  rw [← List.rotate_append_length_eq before after]
  exact (sides_rotate _ _).symm

theorem sides_reverse (path : List α) :
    (sides path.reverse).Perm ((sides path).map Prod.swap) := by
  rcases List.eq_nil_or_concat' path with rfl | ⟨items, last, rfl⟩
  · exact List.Perm.refl _
  · rw [List.reverse_concat, sides_concat]
    refine (sides_turn last items.reverse).symm.trans ?_
    rw [sides_concat, steps_reverse]
    exact List.reverse_perm _

/-- An item between `before` and `after` is between the last item of `after ++ before`, which is the
path cut at that place, and its first one. -/
theorem sides_insert {before after : List α} {first last : α}
    (hfirst : (after ++ before).head? = some first)
    (hlast : (after ++ before).getLast? = some last) (item : α) :
    ∃ others, (sides (before ++ after)).Perm ((last, first) :: others) ∧
      (sides (before ++ item :: after)).Perm ((last, item) :: (item, first) :: others) := by
  obtain ⟨items, hitems⟩ := List.head?_eq_some_iff.mp hfirst
  have hlastD : items.getLastD first = last := by
    rw [hitems, List.getLast?_cons, ← List.getLastD_eq_getLast?] at hlast
    exact Option.some.inj hlast
  refine ⟨steps first items, ?_, ?_⟩
  · refine (sides_append_comm before after).trans ?_
    rw [hitems, sides_cons, hlastD]
  · refine (sides_append_comm before (item :: after)).trans ?_
    rw [List.cons_append, hitems, sides_cons, List.getLastD_cons, hlastD]
    exact List.Perm.refl _

end VmsLite.Data
