import Mathlib.Data.List.Nodup

/-!
# Association lists

A map as the list of its entries: what is found under a key after the entries of a key, or the
entries with some values, were filtered out. And lists whose items differ in a key.
-/

set_option autoImplicit false

namespace VmsLite.Data

section Lawful

variable {Key Value : Type} [BEq Key] [LawfulBEq Key] {entries : List (Key × Value)} {key : Key}

theorem lookup_eq_none_of_not_mem (hkey : key ∉ entries.map Prod.fst) :
    entries.lookup key = none := by
  rw [List.lookup_eq_none_iff]
  refine fun entry hentry ↦ bne_iff_ne.mpr fun hsame ↦ hkey ?_
  exact List.mem_map.mpr ⟨entry, hentry, hsame.symm⟩

/-- Where each key has one entry, what is found is what is there. -/
theorem lookup_eq_some_iff_mem (hnodup : (entries.map Prod.fst).Nodup) {value : Value} :
    entries.lookup key = some value ↔ (key, value) ∈ entries := by
  constructor
  · intro hlookup
    obtain ⟨first, second, rfl, -⟩ := List.lookup_eq_some_iff.mp hlookup
    exact List.mem_append_right _ List.mem_cons_self
  · intro hmem
    obtain ⟨first, second, rfl⟩ := List.append_of_mem hmem
    refine List.lookup_eq_some_iff.mpr ⟨first, second, rfl, fun entry hentry ↦ ?_⟩
    rw [List.map_append, List.nodup_append] at hnodup
    exact bne_iff_ne.mpr fun hkey ↦ hnodup.2.2 entry.1 (List.mem_map_of_mem hentry) key
      (List.mem_map_of_mem List.mem_cons_self) hkey.symm

theorem lookup_reverse (hnodup : (entries.map Prod.fst).Nodup) :
    entries.reverse.lookup key = entries.lookup key := by
  have hreverse : (entries.reverse.map Prod.fst).Nodup := by
    rw [List.map_reverse]
    exact List.nodup_reverse.mpr hnodup
  refine Option.ext fun value ↦ ?_
  rw [lookup_eq_some_iff_mem hreverse, lookup_eq_some_iff_mem hnodup, List.mem_reverse]

end Lawful

variable {Key Value : Type} [DecidableEq Key] {entries : List (Key × Value)} {key other : Key}

/-- Dropping a key leaves the other ones. -/
theorem lookup_filter_ne (hne : other ≠ key) :
    (entries.filter fun entry ↦ entry.1 ≠ key).lookup other = entries.lookup other := by
  induction entries with
  | nil => rfl
  | cons entry rest ih =>
    obtain ⟨found, value⟩ := entry
    by_cases hsame : found = key
    · have hskip : (other == found) = false := beq_false_of_ne (hsame ▸ hne)
      rw [List.filter_cons_of_neg (by simpa using hsame), ih, List.lookup_cons, hskip]
    · rw [List.filter_cons_of_pos (by simpa using hsame), List.lookup_cons, List.lookup_cons, ih]

theorem lookup_filter_self : (entries.filter fun entry ↦ entry.1 ≠ key).lookup key = none := by
  rw [List.lookup_eq_none_iff]
  intro entry hentry
  have hne := of_decide_eq_true (List.mem_filter.mp hentry).2
  exact bne_iff_ne.mpr (Ne.symm hne)

/-- Keeping some values keeps what is found, if its value is kept. -/
theorem lookup_filter_of_lookup {value : Value} {kept : Value → Bool}
    (hlookup : entries.lookup key = some value) (hkept : kept value = true) :
    (entries.filter fun entry ↦ kept entry.2).lookup key = some value := by
  obtain ⟨first, second, rfl, hfirst⟩ := List.lookup_eq_some_iff.mp hlookup
  have hfilter : ((key, value) :: second).filter (fun entry ↦ kept entry.2) =
      (key, value) :: second.filter fun entry ↦ kept entry.2 := List.filter_cons_of_pos hkept
  rw [List.filter_append, hfilter]
  refine List.lookup_eq_some_iff.mpr ⟨_, _, rfl, fun entry hentry ↦ ?_⟩
  exact hfirst entry (List.mem_filter.mp hentry).1

/-- Where each key has one entry, keeping some values keeps the entries that have one. -/
theorem lookup_filter_value (hnodup : (entries.map Prod.fst).Nodup) (kept : Value → Bool) :
    (entries.filter fun entry ↦ kept entry.2).lookup key = (entries.lookup key).filter kept := by
  induction entries with
  | nil => rfl
  | cons entry rest ih =>
    obtain ⟨found, value⟩ := entry
    rw [List.map_cons, List.nodup_cons] at hnodup
    have hfilter : ((found, value) :: rest).filter (fun entry ↦ kept entry.2) =
        if kept value = true then (found, value) :: rest.filter fun entry ↦ kept entry.2
        else rest.filter fun entry ↦ kept entry.2 := List.filter_cons
    rw [hfilter]
    by_cases hsame : key = found
    · subst hsame
      rw [List.lookup_cons_self]
      split_ifs with hkept
      · rw [List.lookup_cons_self, Option.filter_some_pos hkept]
      · rw [ih hnodup.2, lookup_eq_none_of_not_mem hnodup.1,
          Option.filter_some_neg (eq_false_of_ne_true hkept)]
        rfl
    · have hskip : (key == found) = false := beq_false_of_ne hsame
      rw [List.lookup_cons, hskip, ← ih hnodup.2]
      split_ifs
      · rw [List.lookup_cons, hskip]
      · rfl

section Keyed

variable {Item : Type} {items : List Item} {keyOf : Item → Key}

/-- The item that is found under a key is the one that has it. -/
theorem find?_key_eq_some_iff (hnodup : (items.map keyOf).Nodup) {item : Item} :
    (items.find? fun other ↦ keyOf other = key) = some item ↔ item ∈ items ∧ keyOf item = key := by
  constructor
  · intro hfind
    exact ⟨List.mem_of_find?_eq_some hfind, by simpa using List.find?_some hfind⟩
  · rintro ⟨hitem, rfl⟩
    have hsome : (items.find? fun other ↦ keyOf other = keyOf item).isSome = true :=
      List.find?_isSome.mpr ⟨item, hitem, decide_eq_true rfl⟩
    obtain ⟨found, hfind⟩ := Option.isSome_iff_exists.mp hsome
    have hkey : keyOf found = keyOf item := by simpa using List.find?_some hfind
    rw [hfind, List.inj_on_of_nodup_map hnodup (List.mem_of_find?_eq_some hfind) hitem hkey]

end Keyed

end VmsLite.Data
