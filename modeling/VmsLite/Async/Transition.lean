import Mathlib.Data.List.Basic
import Mathlib.Data.List.Induction
import Mathlib.Data.List.Infix

/-!
# Runs of a transition system

A system moves from state to state; `legal` says which moves it may make where. `Reaches` collects
the states of all legal runs, `LegalRun` is one run as a list of moves, and `runMoves` the state it
leads to. `Reaches.invariant` is the induction over runs, and `eachState_iff_eachMove` says of a
list of moves that a property holds in every state it goes through just when each of its moves is
careful.
-/

set_option autoImplicit false

namespace VmsLite.Async

variable {State Move : Type}

/-- The states reached from `initial` by legal moves. -/
inductive Reaches (next : State → Move → State) (legal : State → Move → Prop)
    (initial : State) : State → Prop
  | refl : Reaches next legal initial initial
  | step {state : State} {move : Move} (hreached : Reaches next legal initial state)
      (hlegal : legal state move) : Reaches next legal initial (next state move)

/-- The state after a list of moves. -/
def runMoves (next : State → Move → State) (state : State) (moves : List Move) : State :=
  moves.foldl next state

/-- A list of moves, each of them legal where it is made. -/
def LegalRun (next : State → Move → State) (legal : State → Move → Prop) :
    State → List Move → Prop
  | _, [] => True
  | state, move :: moves => legal state move ∧ LegalRun next legal (next state move) moves

variable {next : State → Move → State} {legal : State → Move → Prop} {initial state : State}

/-- A legal list of moves reaches the state it runs to. -/
theorem Reaches.run (hreached : Reaches next legal initial state) {moves : List Move}
    (hlegal : LegalRun next legal state moves) :
    Reaches next legal initial (runMoves next state moves) := by
  induction moves generalizing state with
  | nil => exact hreached
  | cons move moves ih =>
    obtain ⟨hmove, hmoves⟩ := hlegal
    exact ih (hreached.step hmove) hmoves

/-- Moves that are legal everywhere make a legal run. -/
theorem LegalRun.of_forall {moves : List Move} (hlegal : ∀ move ∈ moves, ∀ state, legal state move)
    (state : State) : LegalRun next legal state moves := by
  induction moves generalizing state with
  | nil => trivial
  | cons move moves ih =>
    obtain ⟨hmove, hmoves⟩ := List.forall_mem_cons.mp hlegal
    exact ⟨hmove state, ih hmoves _⟩

/-- What holds at first and is kept by every legal move holds of every state reached. -/
theorem Reaches.invariant {invariant : State → Prop} (hinitial : invariant initial)
    (hmove : ∀ state move, Reaches next legal initial state → invariant state →
      legal state move → invariant (next state move))
    (hreached : Reaches next legal initial state) : invariant state := by
  induction hreached with
  | refl => exact hinitial
  | step hbefore hlegal ih => exact hmove _ _ hbefore ih hlegal

/-! ### What a list of moves goes through -/

theorem runMoves_concat (next : State → Move → State) (state : State) (moves : List Move)
    (move : Move) :
    runMoves next state (moves ++ [move]) = next (runMoves next state moves) move := by
  simp only [runMoves, List.foldl_append, List.foldl_cons, List.foldl_nil]

/-- Each move of a list meets a condition in the state where it is made. -/
def EachMove (next : State → Move → State) (condition : State → Move → Prop) (initial : State)
    (moves : List Move) : Prop :=
  ∀ before move, before ++ [move] <+: moves → condition (runMoves next initial before) move

/-- A property holds in every state that a list of moves goes through. -/
def EachState (next : State → Move → State) (holds : State → Prop) (initial : State)
    (moves : List Move) : Prop :=
  ∀ before, before <+: moves → holds (runMoves next initial before)

variable {condition : State → Move → Prop} {holds kept : State → Prop} {moves : List Move}

theorem EachMove.of_prefix {before : List Move} (heach : EachMove next condition initial moves)
    (hstart : before <+: moves) : EachMove next condition initial before :=
  fun _ _ hfound ↦ heach _ _ (hfound.trans hstart)

theorem EachState.of_prefix {before : List Move} (heach : EachState next holds initial moves)
    (hstart : before <+: moves) : EachState next holds initial before :=
  fun _ hfound ↦ heach _ (hfound.trans hstart)

instance [DecidablePred holds] : Decidable (EachState next holds initial moves) :=
  decidable_of_iff (∀ before ∈ moves.inits, holds (runMoves next initial before))
    (forall_congr' fun _ ↦ imp_congr_left (List.mem_inits _ _))

theorem EachState.tail {move : Move} (heach : EachState next holds initial (move :: moves)) :
    EachState next holds (next initial move) moves :=
  fun before hstart ↦ heach (move :: before) (List.cons_prefix_cons.mpr ⟨rfl, hstart⟩)

/-- Moves that are legal in every state they are made in make a legal run. -/
theorem EachState.legalRun (hlegal : ∀ state, holds state → ∀ move ∈ moves, legal state move)
    (heach : EachState next holds initial moves) : LegalRun next legal initial moves := by
  induction moves generalizing initial with
  | nil => trivial
  | cons move moves ih =>
    refine ⟨hlegal initial (heach [] List.nil_prefix) move List.mem_cons_self, ?_⟩
    exact ih (fun state hstate other hother ↦
      hlegal state hstate other (List.mem_cons_of_mem _ hother)) heach.tail

/-- The moves of a legal run go from one state that a property holds in to the next. -/
theorem LegalRun.between (hlegal : LegalRun next legal initial moves)
    (heach : EachState next holds initial moves) :
    LegalRun next (fun state move ↦ legal state move ∧ holds state ∧ holds (next state move))
      initial moves := by
  induction moves generalizing initial with
  | nil => trivial
  | cons move moves ih =>
    have hafter := heach.tail [] List.nil_prefix
    exact ⟨⟨hlegal.1, heach [] List.nil_prefix, hafter⟩, ih hlegal.2 heach.tail⟩

/-- What the moves that meet a condition keep holds after a list of such moves. -/
theorem EachMove.invariant (heach : EachMove next condition initial moves)
    (hinitial : kept initial)
    (hmove : ∀ state move, kept state → condition state move → kept (next state move)) :
    kept (runMoves next initial moves) := by
  induction moves using List.reverseRecOn with
  | nil => exact hinitial
  | append_singleton moves move ih =>
    rw [runMoves_concat]
    exact hmove _ _ (ih (heach.of_prefix (List.prefix_append _ _)))
      (heach moves move List.prefix_rfl)

theorem eachMove_nil : EachMove next condition initial [] := by
  intro before move hstart
  exact absurd (List.prefix_nil.mp hstart) (by simp)

/-- A list of moves meets a condition when its first move does and the others do from there on. -/
theorem eachMove_cons {move : Move} : EachMove next condition initial (move :: moves) ↔
    condition initial move ∧ EachMove next condition (next initial move) moves := by
  constructor
  · intro heach
    refine ⟨heach [] move (List.prefix_append [move] moves), fun before later hstart ↦ ?_⟩
    exact heach (move :: before) later (List.cons_prefix_cons.mpr ⟨rfl, hstart⟩)
  · rintro ⟨hfirst, hrest⟩ before later hstart
    cases before with
    | nil =>
      obtain rfl := (List.cons_prefix_cons.mp hstart).1
      exact hfirst
    | cons head before =>
      obtain ⟨rfl, hbefore⟩ := List.cons_prefix_cons.mp hstart
      exact hrest before later hbefore

/-- Where careful moves keep an invariant, what follows from it holds in every state of a run whose
moves are careful. -/
theorem EachMove.eachState (kept : State → Prop) (heach : EachMove next condition initial moves)
    (hinitial : kept initial) (hholds : ∀ state, kept state → holds state)
    (hmove : ∀ state move, kept state → condition state move → kept (next state move)) :
    EachState next holds initial moves :=
  fun _ hbefore ↦ hholds _ (EachMove.invariant (heach.of_prefix hbefore) hinitial hmove)

/-- Where the careful moves are those that keep a property, and keep an invariant with it, the
property holds in every state of a run just when every move of the run is careful. -/
theorem eachState_iff_eachMove (kept : State → Prop) (hinitial : kept initial)
    (hholds : ∀ state, kept state → holds state)
    (hmove : ∀ state move, kept state → (holds (next state move) ↔ condition state move))
    (hkept : ∀ state move, kept state → condition state move → kept (next state move)) :
    EachState next holds initial moves ↔ EachMove next condition initial moves := by
  constructor
  · intro heach
    induction moves using List.reverseRecOn with
    | nil => exact eachMove_nil
    | append_singleton moves move ih =>
      have hearlier := ih (heach.of_prefix (List.prefix_append _ _))
      intro before last hstart
      rcases List.prefix_concat_iff.mp hstart with hsame | hbefore
      · obtain ⟨rfl, hlast⟩ := List.append_inj' hsame rfl
        obtain rfl := List.singleton_inj.mp hlast
        have hafter := heach (before ++ [last]) List.prefix_rfl
        rw [runMoves_concat] at hafter
        exact (hmove _ _ (EachMove.invariant hearlier hinitial hkept)).mp hafter
      · exact hearlier before last hbefore
  · intro heach
    exact heach.eachState kept hinitial hholds hkept

end VmsLite.Async
