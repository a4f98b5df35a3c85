import Mathlib.Data.List.Basic

/-!
# The place of an item

A list split at the place of one of its items, and what replacing or erasing that item leaves.
-/

set_option autoImplicit false

namespace VmsLite.Data

variable {α : Type} {items : List α} {index : ℕ} {item : α}

theorem split_of_getElem? (h : items[index]? = some item) :
    ∃ before after, items = before ++ item :: after ∧ before.length = index := by
  obtain ⟨hbound, rfl⟩ := List.getElem?_eq_some_iff.mp h
  refine ⟨items.take index, items.drop (index + 1), ?_, List.length_take_of_le (Nat.le_of_lt hbound)⟩
  rw [← List.drop_eq_getElem_cons hbound, List.take_append_drop]

theorem set_split (before after : List α) (item other : α) :
    (before ++ item :: after).set before.length other = before ++ other :: after := by
  rw [List.set_append_right _ _ (Nat.le_refl _), Nat.sub_self, List.set_cons_zero]

theorem eraseIdx_split (before after : List α) (item : α) :
    (before ++ item :: after).eraseIdx before.length = before ++ after := by
  rw [List.eraseIdx_append_of_length_le (Nat.le_refl _), Nat.sub_self, List.eraseIdx_cons_zero]

end VmsLite.Data
