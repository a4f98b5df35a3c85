import Mathlib.Data.List.Basic

/-!
# At most one of the states

Threads have a state each, and at most one of them is in the middle of something at a time. What the
world owes to it while it is, and what is so while none is, is what an invariant says: `Exclusive`
takes the three as parameters. A thread that alone may hold takes any new state (`Exclusive.set`),
and one that does not hold leaves things as they are when it does not begin to
(`Exclusive.set_of_not`).
-/

set_option autoImplicit false

namespace VmsLite.Async

variable {State : Type}

/-- At most one of the states holds; `held` is so of one that does, and `free` is so if none
does. -/
def Exclusive (holds held : State → Prop) (free : Prop) (states : List State) : Prop :=
  (∃ thread state, states[thread]? = some state ∧ holds state ∧ held state ∧
    ∀ (other : ℕ) (found : State), other ≠ thread → states[other]? = some found → ¬ holds found) ∨
  (∀ state ∈ states, ¬ holds state) ∧ free

namespace Exclusive

variable {holds held : State → Prop} {free : Prop} {states : List State} {thread : ℕ}
  {state : State}

theorem nil (hfree : free) : Exclusive holds held free [] := Or.inr ⟨nofun, hfree⟩

theorem mono {held' : State → Prop} {free' : Prop} (h : Exclusive holds held free states)
    (hheld : ∀ state ∈ states, holds state → held state → held' state) (hfree : free → free') :
    Exclusive holds held' free' states := by
  rcases h with ⟨thread, state, hstate, hholds, hkept, hothers⟩ | ⟨hnone, hkept⟩
  · exact Or.inl ⟨thread, state, hstate, hholds,
      hheld state (List.mem_of_getElem? hstate) hholds hkept, hothers⟩
  · exact Or.inr ⟨hnone, hfree hkept⟩

/-- One that holds is the only one. -/
theorem of_holds (h : Exclusive holds held free states) (hstate : states[thread]? = some state)
    (hholds : holds state) :
    held state ∧ ∀ (other : ℕ) (found : State), other ≠ thread → states[other]? = some found →
      ¬ holds found := by
  rcases h with ⟨only, found, hfound, -, hkept, hothers⟩ | ⟨hnone, -⟩
  · obtain rfl : thread = only := by
      by_contra hne
      exact hothers thread state hne hstate hholds
    rw [Option.some.inj (hstate.symm.trans hfound)]
    exact ⟨hkept, hothers⟩
  · exact absurd hholds (hnone state (List.mem_of_getElem? hstate))

theorem free_of_not (h : Exclusive holds held free states) (hnone : ∀ state ∈ states,
    ¬ holds state) :
    free := by
  rcases h with ⟨thread, state, hstate, hholds, -⟩ | ⟨-, hfree⟩
  · exact absurd hholds (hnone state (List.mem_of_getElem? hstate))
  · exact hfree

/-- A thread that alone may hold takes a new state. -/
theorem set (hbound : thread < states.length)
    (hothers : ∀ (other : ℕ) (found : State), other ≠ thread → states[other]? = some found →
      ¬ holds found)
    (hheld : holds state → held state) (hfree : ¬ holds state → free) :
    Exclusive holds held free (states.set thread state) := by
  have hset : ∀ (other : ℕ) (found : State), other ≠ thread →
      (states.set thread state)[other]? = some found → ¬ holds found := by
    intro other found hne hother
    rw [List.getElem?_set_ne hne.symm] at hother
    exact hothers other found hne hother
  by_cases hholds : holds state
  · exact Or.inl ⟨thread, state, List.getElem?_set_self hbound, hholds, hheld hholds, hset⟩
  · refine Or.inr ⟨fun found hfound ↦ ?_, hfree hholds⟩
    obtain ⟨index, hindex⟩ := List.mem_iff_getElem?.mp hfound
    by_cases hsame : index = thread
    · rw [hsame, List.getElem?_set_self hbound] at hindex
      rwa [← Option.some.inj hindex]
    · exact hset index found hsame hindex

/-- A thread that neither holds nor begins to leaves the others as they are. -/
theorem set_of_not (h : Exclusive holds held free states)
    (hbefore : ∀ found, states[thread]? = some found → ¬ holds found) (hafter : ¬ holds state) :
    Exclusive holds held free (states.set thread state) := by
  have hset : ∀ (other : ℕ) (found : State), (states.set thread state)[other]? = some found →
      holds found → states[other]? = some found ∧ other ≠ thread := by
    intro other found hother hholds
    by_cases hsame : thread = other
    · subst hsame
      have hbound : thread < states.length := by
        have hlength := (List.getElem?_eq_some_iff.mp hother).1
        rwa [List.length_set] at hlength
      rw [List.getElem?_set_self hbound] at hother
      exact absurd (Option.some.inj hother ▸ hholds) hafter
    · rw [List.getElem?_set_ne hsame] at hother
      exact ⟨hother, Ne.symm hsame⟩
  rcases h with ⟨only, found, hfound, hholds, hkept, hothers⟩ | ⟨hnone, hfree⟩
  · have hne : thread ≠ only := by
      rintro rfl
      exact hbefore found hfound hholds
    refine Or.inl ⟨only, found, ?_, hholds, hkept, fun other other' hother hentry hother' ↦ ?_⟩
    · rw [List.getElem?_set_ne hne]
      exact hfound
    · exact hothers other other' hother (hset other other' hentry hother').1 hother'
  · refine Or.inr ⟨fun found hfound hholds ↦ ?_, hfree⟩
    obtain ⟨index, hindex⟩ := List.mem_iff_getElem?.mp hfound
    exact hnone found (List.mem_of_getElem? (hset index found hindex hholds).1) hholds

/-- A thread goes from one state to another: what has to be shown for each way it may hold before
and after. -/
theorem replace {held' : State → Prop} {free' : Prop} {next : State}
    (hbound : thread < states.length)
    (h : Exclusive holds held free (states.set thread state))
    (houtside : ¬ holds state → ¬ holds next →
      (∀ found, holds found → held found → held' found) ∧ (free → free'))
    (hleave : holds state → held state → ¬ holds next → free')
    (hstay : holds state → held state → holds next → held' next)
    (henter : ¬ holds state → holds next →
      (∀ (other : ℕ) (found : State), other ≠ thread → states[other]? = some found →
        ¬ holds found) ∧
        (free → held' next)) :
    Exclusive holds held' free' (states.set thread next) := by
  have hstate : (states.set thread state)[thread]? = some state := List.getElem?_set_self hbound
  by_cases hbefore : holds state
  · obtain ⟨hkept, hothers⟩ := h.of_holds hstate hbefore
    refine set hbound (fun other found hne hother ↦ hothers other found hne ?_)
      (hstay hbefore hkept) (hleave hbefore hkept)
    rw [List.getElem?_set_ne hne.symm]
    exact hother
  · by_cases hafter : holds next
    · obtain ⟨hothers, hheld⟩ := henter hbefore hafter
      have hnone : ∀ found ∈ states.set thread state, ¬ holds found := by
        intro found hfound
        obtain ⟨index, hindex⟩ := List.mem_iff_getElem?.mp hfound
        by_cases hsame : index = thread
        · rw [hsame, hstate] at hindex
          rwa [← Option.some.inj hindex]
        · rw [List.getElem?_set_ne (Ne.symm hsame)] at hindex
          exact hothers index found hsame hindex
      exact set hbound hothers (fun _ ↦ hheld (h.free_of_not hnone)) (absurd hafter)
    · obtain ⟨hheld, hfree⟩ := houtside hbefore hafter
      have hstill : ∀ found, (states.set thread state)[thread]? = some found → ¬ holds found := by
        intro found hfound
        rwa [← Option.some.inj (hstate.symm.trans hfound)]
      have hnext := (h.mono (fun found _ ↦ hheld found) hfree).set_of_not hstill hafter
      rwa [List.set_set] at hnext

/-- States may be exchanged for ones that do not hold, where what is so without them is so
already. -/
theorem exchange {others : List State} (h : Exclusive holds held free states)
    (hsame : ∀ (thread : ℕ) (found : State), others[thread]? = some found →
      states[thread]? = some found ∨ ¬ holds found)
    (hdrop : ∀ (thread : ℕ) (state : State), states[thread]? = some state → holds state →
      held state → others[thread]? = some state ∨ free) :
    Exclusive holds held free others := by
  rcases h with ⟨thread, state, hstate, hholds, hkept, hnone⟩ | ⟨hnone, hfree⟩
  · have hrest : ∀ (other : ℕ) (found : State), other ≠ thread → others[other]? = some found →
        ¬ holds found := by
      intro other found hne hother
      rcases hsame other found hother with hold | hnot
      · exact hnone other found hne hold
      · exact hnot
    by_cases hstill : others[thread]? = some state
    · exact Or.inl ⟨thread, state, hstill, hholds, hkept, hrest⟩
    · refine Or.inr ⟨fun found hfound ↦ ?_,
        (hdrop thread state hstate hholds hkept).resolve_left hstill⟩
      obtain ⟨index, hindex⟩ := List.mem_iff_getElem?.mp hfound
      by_cases hthread : index = thread
      · rw [hthread] at hindex
        rcases hsame thread found hindex with hold | hnot
        · rw [Option.some.inj (hold.symm.trans hstate)] at hindex
          exact absurd hindex hstill
        · exact hnot
      · exact hrest index found hthread hindex
  · refine Or.inr ⟨fun found hfound ↦ ?_, hfree⟩
    obtain ⟨index, hindex⟩ := List.mem_iff_getElem?.mp hfound
    rcases hsame index found hindex with hold | hnot
    · exact hnone found (List.mem_of_getElem? hold)
    · exact hnot

/-- A new thread that does not hold. -/
theorem append_of_not (h : Exclusive holds held free states) (hnew : ¬ holds state) :
    Exclusive holds held free (states ++ [state]) := by
  rcases h with ⟨thread, found, hfound, hholds, hkept, hothers⟩ | ⟨hnone, hfree⟩
  · refine Or.inl ⟨thread, found, ?_, hholds, hkept, fun other other' hother hentry ↦ ?_⟩
    · rw [List.getElem?_append_left (List.getElem?_eq_some_iff.mp hfound).1]
      exact hfound
    · rcases Nat.lt_or_ge other states.length with hold | hlate
      · rw [List.getElem?_append_left hold] at hentry
        exact hothers other other' hother hentry
      · rw [List.getElem?_append_right hlate, List.getElem?_singleton] at hentry
        split_ifs at hentry
        rwa [← Option.some.inj hentry]
  · refine Or.inr ⟨fun found hfound ↦ ?_, hfree⟩
    rcases List.mem_append.mp hfound with hold | hlate
    · exact hnone found hold
    · rwa [List.mem_singleton.mp hlate]

end Exclusive

end VmsLite.Async
