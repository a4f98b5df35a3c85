import Mathlib.Data.List.Forall2

/-!
# Computations that return

How a computation that returns takes its steps, for proofs that take it apart; and loops of such
computations.
-/

set_option autoImplicit false

namespace VmsLite.Data

universe u v

variable {ε : Type v} {α β : Type u}

theorem ok_bind (value : α) (next : α → Except ε β) :
    (Except.ok value >>= next) = next value := rfl

/-- A sequence returns through what its first step returns. -/
theorem exists_of_bind_ok {first : Except ε α} {next : α → Except ε β} {result : β}
    (hreturns : first >>= next = .ok result) :
    ∃ value, first = .ok value ∧ next value = .ok result := by
  cases first with
  | error failure => cases hreturns
  | ok value => exact ⟨value, rfl, hreturns⟩

/-- A lookup that throws where it finds nothing. -/
theorem eq_some_of_elim_ok {found : Option α} {failure : ε} {value : α}
    (hreturns : found.elim (Except.error failure) Except.ok = .ok value) : found = some value := by
  cases found with
  | none => cases hreturns
  | some other => exact congrArg some (Except.ok.inj hreturns)

/-- What every step of a loop keeps holds where the loop ends. -/
theorem invariant_of_foldlM {State Item : Type u} {step : State → Item → Option State}
    {motive : State → Prop} {items : List Item}
    (hstep : ∀ state, ∀ item ∈ items, ∀ next, motive state → step state item = some next →
      motive next)
    {first final : State} (hrun : items.foldlM step first = some final) (hfirst : motive first) :
    motive final := by
  induction items generalizing first with
  | nil =>
    obtain rfl := Option.some.inj hrun
    exact hfirst
  | cons item items ih =>
    obtain ⟨next, hnext, hrest⟩ := Option.bind_eq_some_iff.mp hrun
    exact ih (fun state other hother ↦ hstep state other (List.mem_cons_of_mem _ hother)) hrest
      (hstep first item List.mem_cons_self next hfirst hnext)

theorem foldlM_fixed {State Item : Type u} {step : State → Item → Except ε State} {state : State}
    {items : List Item} (hstep : ∀ item ∈ items, step state item = .ok state) :
    items.foldlM step state = .ok state := by
  induction items with
  | nil => rfl
  | cons item items ih =>
    rw [List.foldlM_cons, hstep item List.mem_cons_self, ok_bind]
    exact ih fun other hother ↦ hstep other (List.mem_cons_of_mem _ hother)

/-- A loop returns a list when its step returns each of its items. -/
theorem mapM_eq_some_iff {Item Result : Type u} {step : Item → Option Result} {items : List Item}
    {results : List Result} : items.mapM step = some results ↔
      List.Forall₂ (fun item result ↦ step item = some result) items results := by
  induction items generalizing results with
  | nil =>
    rw [List.mapM_nil, List.forall₂_nil_left_iff]
    exact Option.some_inj.trans eq_comm
  | cons item items ih =>
    rw [List.mapM_cons]
    constructor
    · intro hrun
      obtain ⟨first, hfirst, hothers⟩ := Option.bind_eq_some_iff.mp hrun
      obtain ⟨rest, hrest, hsame⟩ := Option.bind_eq_some_iff.mp hothers
      obtain rfl := Option.some.inj hsame
      exact List.Forall₂.cons hfirst (ih.mp hrest)
    · intro hall
      cases hall with
      | cons hfirst hrest =>
        rw [hfirst, Option.bind_eq_bind, Option.bind_some, ih.mpr hrest]
        rfl

theorem forall₂_congr_mem {Item Result : Type u} {first second : Item → Result → Prop}
    {items : List Item} {results : List Result}
    (hsame : ∀ item ∈ items, ∀ result, first item result ↔ second item result) :
    List.Forall₂ first items results ↔ List.Forall₂ second items results := by
  induction items generalizing results with
  | nil => rw [List.forall₂_nil_left_iff, List.forall₂_nil_left_iff]
  | cons item items ih =>
    have hrest := fun others ↦ @ih others fun other hother ↦
      hsame other (List.mem_cons_of_mem _ hother)
    rw [List.forall₂_cons_left_iff, List.forall₂_cons_left_iff]
    simp only [hsame item List.mem_cons_self, hrest]

theorem isSome_mapM_iff {Item Result : Type u} {step : Item → Option Result} {items : List Item} :
    (items.mapM step).isSome = true ↔ ∀ item ∈ items, (step item).isSome = true := by
  induction items with
  | nil => exact iff_of_true rfl nofun
  | cons item items ih =>
    rw [List.forall_mem_cons, ← ih, List.mapM_cons]
    cases step item with
    | none => exact iff_of_false Bool.false_ne_true fun hall ↦ Bool.false_ne_true hall.1
    | some first =>
      cases items.mapM step with
      | none => exact iff_of_false Bool.false_ne_true fun hall ↦ Bool.false_ne_true hall.2
      | some rest => exact iff_of_true rfl ⟨rfl, rfl⟩

/-- Two ways to take the same steps: the one goes well where the other returns, and to the same
effect. -/
structure Simulated {State Reached Item : Type u} (goesWell : State → Prop)
    (view : State → Reached) (step : State → Item → Option State)
    (plain : Reached → Item → Except ε Reached) : Prop where
  forth : ∀ state item next, step state item = some next → goesWell next →
    goesWell state ∧ plain (view state) item = .ok (view next)
  back : ∀ state item reached, goesWell state → plain (view state) item = .ok reached →
    ∃ next, step state item = some next ∧ goesWell next ∧ view next = reached

theorem Simulated.foldlM {State Reached Item : Type u} {goesWell : State → Prop}
    {view : State → Reached} {step : State → Item → Option State}
    {plain : Reached → Item → Except ε Reached} (hsimulated : Simulated goesWell view step plain) :
    Simulated goesWell view (fun state (items : List Item) ↦ items.foldlM step state)
      fun reached items ↦ items.foldlM plain reached where
  forth state items final := by
    induction items generalizing state with
    | nil =>
      intro hrun hfinal
      obtain rfl := Option.some.inj hrun
      exact ⟨hfinal, rfl⟩
    | cons item items ih =>
      intro hrun hfinal
      obtain ⟨next, hnext, hrest⟩ := Option.bind_eq_some_iff.mp hrun
      obtain ⟨hwell, hplain⟩ := ih next hrest hfinal
      obtain ⟨hstate, hfirst⟩ := hsimulated.forth state item next hnext hwell
      refine ⟨hstate, ?_⟩
      rw [List.foldlM_cons, hfirst, ok_bind]
      exact hplain
  back state items reached := by
    induction items generalizing state with
    | nil => exact fun hwell hrun ↦ ⟨state, rfl, hwell, Except.ok.inj hrun⟩
    | cons item items ih =>
      intro hwell hrun
      obtain ⟨middle, hmiddle, hrest⟩ := exists_of_bind_ok hrun
      obtain ⟨next, hnext, hnextWell, rfl⟩ := hsimulated.back state item middle hwell hmiddle
      obtain ⟨final, hfinal, hview⟩ := ih next hnextWell hrest
      refine ⟨final, ?_, hview⟩
      rw [List.foldlM_cons, hnext]
      exact hfinal

end VmsLite.Data
