import Mathlib.Data.List.Nodup
import Mathlib.Data.List.Sort

/-!
# Sweeping a sorted list in pages

A sweep pages through a sorted list from its start. Of every page it takes out the items that
satisfy a predicate and steps over the others, so that the next page begins after the items stepped
over so far. `swept` is the list after the first items of the original have been looked at: the next
page is the next page of the original (`page_swept`), and a swept list is the original without the
items that were taken out (`filter_eq_swept`). A sort that is stable commutes with taking items out
(`filter_insertionSort`), so a sweep can work on an unsorted store and page through its sorted view.

A sweep that stops after a fixed number of items can starve: `ahead` counts the items before an item
that no sweep ever takes out. Other sweeps do not change it (`ahead_filter`), an item with too many
of them is out of reach for good (`ahead_lt_of_mem_take`), and the first item to be taken out is in
reach when it has few enough (`mem_take_of_ahead_lt`).
-/

set_option autoImplicit false

namespace VmsLite.Paging

variable {α : Type}

/-! ### Stable sorting -/

section Sorting

variable (before : α → α → Prop) [DecidableRel before]

/-- Inserting into a sorted list commutes with a filter. -/
theorem filter_orderedInsert [IsTrans α before] (keep : α → Bool) (item : α) {list : List α}
    (hsorted : list.Pairwise before) :
    (list.orderedInsert before item).filter keep =
      if keep item then (list.filter keep).orderedInsert before item else list.filter keep := by
  induction list with
  | nil =>
    by_cases hkeep : keep item <;> simp [hkeep]
  | cons head tail ih =>
    obtain ⟨hhead, htail⟩ := List.pairwise_cons.mp hsorted
    by_cases hbefore : before item head
    · rw [List.orderedInsert_cons_of_le before tail hbefore, List.filter_cons]
      by_cases hkeep : keep item
      · -- The item goes first: it is before the head, and so before all that is kept
        rw [if_pos hkeep, if_pos hkeep]
        cases hkept : (head :: tail).filter keep with
        | nil => rfl
        | cons first rest =>
          have hfirst : first ∈ head :: tail :=
            (List.mem_filter.mp (hkept ▸ List.mem_cons_self)).1
          have hle : before item first := by
            rcases List.mem_cons.mp hfirst with rfl | hlater
            · exact hbefore
            · exact IsTrans.trans _ _ _ hbefore (hhead first hlater)
          rw [List.orderedInsert_cons_of_le before rest hle]
      · rw [if_neg hkeep, if_neg hkeep]
    · rw [List.orderedInsert_of_not_le before tail hbefore, List.filter_cons, ih htail]
      by_cases hhead : keep head <;> by_cases hkeep : keep item
      · rw [if_pos hhead, if_pos hkeep, if_pos hkeep, List.filter_cons, if_pos hhead,
          List.orderedInsert_of_not_le before _ hbefore]
      · rw [if_pos hhead, if_neg hkeep, if_neg hkeep, List.filter_cons, if_pos hhead]
      · rw [if_neg hhead, if_pos hkeep, if_pos hkeep, List.filter_cons, if_neg hhead]
      · rw [if_neg hhead, if_neg hkeep, if_neg hkeep, List.filter_cons, if_neg hhead]

/-- A stable sort commutes with a filter. -/
theorem filter_insertionSort [IsTrans α before] [Std.Total before] (keep : α → Bool)
    (list : List α) :
    (list.insertionSort before).filter keep = (list.filter keep).insertionSort before := by
  induction list with
  | nil => rfl
  | cons head tail ih =>
    rw [List.insertionSort_cons, filter_orderedInsert before keep head
      (List.pairwise_insertionSort before tail), ih]
    by_cases hkeep : keep head
    · rw [if_pos hkeep, List.filter_cons, if_pos hkeep, List.insertionSort_cons]
    · rw [if_neg hkeep, List.filter_cons, if_neg hkeep]

end Sorting

/-! ### Sweeps -/

section Sweeping

variable (taken : α → Bool)

/-- A list when a sweep has looked at its first `seen` items and taken out those that are
`taken`. -/
def swept (seen : ℕ) (list : List α) : List α :=
  (list.take seen).filter (fun item ↦ !taken item) ++ list.drop seen

/-- The items a sweep has stepped over. -/
def steppedOver (seen : ℕ) (list : List α) : ℕ :=
  ((list.take seen).filter fun item ↦ !taken item).length

@[simp] theorem swept_zero (list : List α) : swept taken 0 list = list := by
  simp [swept]

@[simp] theorem steppedOver_zero (list : List α) : steppedOver taken 0 list = 0 := by
  simp [steppedOver]

/-- After the items stepped over, a swept list goes on as the original does. -/
theorem drop_swept (seen : ℕ) (list : List α) :
    (swept taken seen list).drop (steppedOver taken seen list) = list.drop seen := by
  unfold swept steppedOver
  exact List.drop_left

/-- The next page of a swept list is the next page of the original. -/
theorem page_swept (seen size : ℕ) (list : List α) :
    ((swept taken seen list).drop (steppedOver taken seen list)).take size =
      (list.drop seen).take size := by
  rw [drop_swept]

/-- After an empty page there are only empty pages. -/
theorem take_pages_eq_nil {list : List α} {seen size : ℕ} (pages : ℕ)
    (hpage : (list.drop seen).take size = []) : (list.drop seen).take (pages * size) = [] := by
  rcases List.take_eq_nil_iff.mp hpage with rfl | hend
  · simp
  · simp [hend]

/-- After a page that is not full there is nothing left. -/
theorem drop_of_short_page {list : List α} {seen size : ℕ}
    (hpage : ((list.drop seen).take size).length < size) : list.drop (seen + size) = [] := by
  rw [List.length_take, List.length_drop] at hpage
  exact List.drop_eq_nil_of_le (by omega)

/-- Stepping over the rest of a page. -/
theorem steppedOver_add (seen size : ℕ) (list : List α) :
    steppedOver taken (seen + size) list = steppedOver taken seen list +
      (((list.drop seen).take size).filter fun item ↦ !taken item).length := by
  unfold steppedOver
  rw [List.take_add, List.filter_append, List.length_append]

/-- What a sweep has left is what it has not looked at or has stepped over. -/
theorem filter_eq_swept [DecidableEq α] (seen : ℕ) {list : List α} (hnodup : list.Nodup) :
    list.filter (fun item ↦ !(taken item && item ∈ list.take seen)) = swept taken seen list := by
  have hsplit : list.take seen ++ list.drop seen = list := List.take_append_drop seen list
  have hdisjoint : ∀ item ∈ list.drop seen, item ∉ list.take seen := by
    have hparts := hsplit ▸ hnodup
    exact fun item hdrop htake ↦ (List.nodup_append.mp hparts).2.2 item htake item hdrop rfl
  calc list.filter (fun item ↦ !(taken item && item ∈ list.take seen))
      = (list.take seen ++ list.drop seen).filter
          (fun item ↦ !(taken item && item ∈ list.take seen)) := by rw [hsplit]
    _ = swept taken seen list := by
      rw [List.filter_append, swept]
      congr 1
      · refine List.filter_congr fun item hitem ↦ ?_
        simp [hitem]
      · refine List.filter_eq_self.mpr fun item hitem ↦ ?_
        simp [hdisjoint item hitem]

end Sweeping

/-! ### Starvation -/

section Starvation

variable [DecidableEq α] (taken : α → Bool)

/-- How many items before `item` a sweep has to step over. -/
def ahead (list : List α) (item : α) : ℕ :=
  ((list.takeWhile (· ≠ item)).filter fun other ↦ !taken other).length

/-- Taking items out before an item does not change how many have to be stepped over. -/
theorem ahead_filter {keep : α → Bool} {list : List α} {item : α} (hitem : keep item = true)
    (hkeep : ∀ other ∈ list, taken other = false → keep other = true) :
    ahead taken (list.filter keep) item = ahead taken list item := by
  unfold ahead
  induction list with
  | nil => rfl
  | cons head tail ih =>
    have htail := ih fun other hother ↦ hkeep other (List.mem_cons_of_mem _ hother)
    by_cases hhead : head = item
    · subst hhead
      simp [hitem]
    · cases hkept : keep head with
      | true =>
        cases htaken : taken head <;>
          simpa [List.filter_cons, hkept, hhead, List.takeWhile_cons, htaken] using htail
      | false =>
        have htaken : taken head = true := by
          by_contra hnot
          rw [hkeep head List.mem_cons_self (by simpa using hnot)] at hkept
          exact absurd hkept (by decide)
        simpa [List.filter_cons, hkept, hhead, List.takeWhile_cons, htaken] using htail

/-- An item that a sweep of `count` items reaches has fewer than `count` items ahead of it. -/
theorem ahead_lt_of_mem_take {list : List α} {item : α} {count : ℕ}
    (hitem : item ∈ list.take count) : ahead taken list item < count := by
  have hlength : (list.takeWhile (· ≠ item)).length < count := by
    induction list generalizing count with
    | nil => simp at hitem
    | cons head tail ih =>
      cases count with
      | zero => simp at hitem
      | succ count =>
        by_cases hhead : head = item
        · simp [hhead]
        · have htail : item ∈ tail.take count := by
            rw [List.take_succ_cons] at hitem
            exact (List.mem_cons.mp hitem).resolve_left fun heq ↦ hhead heq.symm
          simpa [List.takeWhile_cons, hhead] using ih htail
  exact (List.length_filter_le _ _).trans_lt hlength

/-- The first item that is taken is reached when fewer than `count` items are ahead of it. -/
theorem mem_take_of_ahead_lt {list : List α} {item : α} {count : ℕ} (hitem : item ∈ list)
    (hfirst : ∀ other ∈ list.takeWhile (· ≠ item), taken other = false)
    (hahead : ahead taken list item < count) : item ∈ list.take count := by
  have hall : (list.takeWhile (· ≠ item)).filter (fun other ↦ !taken other) =
      list.takeWhile (· ≠ item) :=
    List.filter_eq_self.mpr fun other hother ↦ by simp [hfirst other hother]
  rw [ahead, hall] at hahead
  clear hfirst hall
  induction list generalizing count with
  | nil => exact absurd hitem List.not_mem_nil
  | cons head tail ih =>
    cases count with
    | zero => exact absurd hahead (Nat.not_lt_zero _)
    | succ count =>
      rw [List.take_succ_cons]
      by_cases hhead : head = item
      · rw [hhead]
        exact List.mem_cons_self
      · have htail : item ∈ tail := (List.mem_cons.mp hitem).resolve_left fun heq ↦ hhead heq.symm
        refine List.mem_cons_of_mem _ (ih htail ?_)
        simpa [List.takeWhile_cons, hhead] using hahead

/-- A list with an item that is taken has a first one. -/
theorem exists_first_taken {list : List α} (htaken : ∃ item ∈ list, taken item = true) :
    ∃ item ∈ list, taken item = true ∧
      ∀ other ∈ list.takeWhile (· ≠ item), taken other = false := by
  induction list with
  | nil => simp at htaken
  | cons head tail ih =>
    cases hhead : taken head with
    | true => exact ⟨head, List.mem_cons_self, hhead, by simp⟩
    | false =>
      have htail : ∃ item ∈ tail, taken item = true := by
        obtain ⟨item, hitem, htaken⟩ := htaken
        rcases List.mem_cons.mp hitem with rfl | hlater
        · exact absurd (hhead.symm.trans htaken) (by decide)
        · exact ⟨item, hlater, htaken⟩
      obtain ⟨item, hitem, htaken, hfirst⟩ := ih htail
      refine ⟨item, List.mem_cons_of_mem _ hitem, htaken, fun other hother ↦ ?_⟩
      have hne : head ≠ item := by
        rintro rfl
        exact absurd (hhead.symm.trans htaken) (by decide)
      rw [List.takeWhile_cons, if_pos (by simpa using hne)] at hother
      rcases List.mem_cons.mp hother with rfl | hlater
      · exact hhead
      · exact hfirst other hlater

/-- Before the first item that is taken, a filtered list has no other. -/
theorem takeWhile_filter_subset {keep : α → Bool} {list : List α} {item : α}
    (hitem : keep item = true) :
    ∀ other ∈ (list.filter keep).takeWhile (· ≠ item), other ∈ list.takeWhile (· ≠ item) := by
  induction list with
  | nil => simp
  | cons head tail ih =>
    intro other hother
    by_cases hhead : head = item
    · subst hhead
      simp [hitem] at hother
    · rw [List.takeWhile_cons, if_pos (by simpa using hhead)]
      cases hkept : keep head with
      | false =>
        rw [List.filter_cons, hkept, if_neg (by decide)] at hother
        exact List.mem_cons_of_mem _ (ih other hother)
      | true =>
        rw [List.filter_cons, if_pos hkept, List.takeWhile_cons,
          if_pos (by simpa using hhead)] at hother
        rcases List.mem_cons.mp hother with rfl | hlater
        · exact List.mem_cons_self
        · exact List.mem_cons_of_mem _ (ih other hlater)

end Starvation

end VmsLite.Paging
