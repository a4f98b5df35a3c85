import Mathlib.Logic.Function.Basic
import VmsLite.Async.Observation

/-!
# Taking from what was measured

Some calls measure how much there is of something, and others take one of it. A program that
measures before it takes is right only as long as not too much is taken in between by others. A
`Stock` says what is measured and taken; there may be many of them, told apart by a key. An observer
keeps, for every thread, what it measured last and how often that was taken from since.

A program is `Careful` when it takes nothing after it measured that nothing is left. If moreover
each take comes while its thread has measured, and either nothing has been taken since or less than
was measured (`TakesInTime`), then no take finds nothing left: `Stock.sound_of_reaches` is about
every interleaving.
-/

set_option autoImplicit false

namespace VmsLite.Async

open Program

variable {Key Call : Type} {Reply : Call → Type} {Err World Outcome Event Label Seen α β : Type}

/-! ### Threads with numbers -/

/-- The moves of a system whose threads are labelled with their places; every call meets a
condition. -/
inductive NumberedMove (machine : Machine Call Reply World Outcome Event)
    (observe : ℕ → (call : Call) → Reply call → World → Seen → Seen)
    (starts : Program Call Reply Err Unit → Prop) (around : Event → Prop)
    (condition : ℕ × Call → Outcome → World × Seen → Prop)
    (system : System (ℕ × Call) (fun call ↦ Reply call.2) Err (World × Seen) Unit) :
    Move (ℕ × Call) (fun call ↦ Reply call.2) Err Outcome Event Unit → Prop
  | start (program : Program Call Reply Err Unit) (hstarts : starts program)
    (hcalls : (machine.watched observe).SettleCalls condition
      (program.labelled system.threads.length) system.world) :
    NumberedMove machine observe starts around condition system
      (.start () (program.labelled system.threads.length))
  | advance (thread : ℕ) (outcome : Outcome)
    (hcalls : ∀ program, system.threads[thread]? = some ((), program) →
      (machine.watched observe).ResumeCalls condition outcome program system.world) :
    NumberedMove machine observe starts around condition system (.advance thread outcome)
  | environment (event : Event) (haround : around event) :
    NumberedMove machine observe starts around condition system (.environment event)

/-! ### Stocks -/

/-- What a thread measured, and how often it has been taken from since. -/
structure Tally where
  measured : ℕ
  takenSince : ℕ
  deriving DecidableEq

/-- A tally after a call that took, or did not. -/
def Tally.after (tally : Tally) (taken : Bool) : Tally :=
  { tally with takenSince := tally.takenSince + if taken then 1 else 0 }

/-- Things that calls measure and take from, one for each key. -/
structure Stock (Key : Type) (machine : Machine Call Reply World Outcome Event) where
  left : Key → World → ℕ
  measured : (call : Call) → Reply call → Key → Option ℕ
  takes : (call : Call) → Reply call → World → Key → Bool
  /-- The calls that may take, whatever the world. -/
  mayTake : Call → Key → Bool
  /-- What holds of the world as long as no take finds nothing left. -/
  sound : World → Prop
  mayTake_of_takes : ∀ {call reply world key}, takes call reply world key = true →
    mayTake call key = true
  measured_le : ∀ {call outcome world key count}, sound world →
    measured call (machine.answer call outcome world).1 key = some count →
      count ≤ left key (machine.answer call outcome world).2
  left_le : ∀ {call outcome world key}, sound world → left key world ≤
    left key (machine.answer call outcome world).2 +
      if takes call (machine.answer call outcome world).1 world key then 1 else 0
  sound_answer : ∀ {call outcome world}, sound world →
    (∀ key, takes call (machine.answer call outcome world).1 world key = true →
      0 < left key world) → sound (machine.answer call outcome world).2

namespace Stock

variable {machine : Machine Call Reply World Outcome Event} (stock : Stock Key machine)

/-- What every thread has measured of every key. -/
abbrev Tallies (Key : Type) : Type := Key → ℕ → Option Tally

/-- A take counts for every thread, and a measurement starts the tally of its thread anew. -/
def observe (label : ℕ) (call : Call) (reply : Reply call) (world : World) (seen : Tallies Key) :
    Tallies Key := fun key thread ↦
  let counted := (seen key thread).map fun tally ↦ tally.after (stock.takes call reply world key)
  if thread = label then ((stock.measured call reply key).map (Tally.mk · 0)).or counted
  else counted

/-- Whoever takes has measured, and since then nothing was taken, or less than was measured. -/
def TakesInTime (call : ℕ × Call) (outcome : Outcome) (world : World × Tallies Key) : Prop :=
  ∀ key, stock.takes call.2 (machine.answer call.2 outcome world.1).1 world.1 key = true →
    ∃ tally, world.2 key call.1 = some tally ∧
      (tally.takenSince = 0 ∨ tally.takenSince < tally.measured)

/-! ### Careful programs -/

/-- What a thread has measured of each key. -/
def checking : Typestate Call Reply (Key → Option ℕ) where
  permits := fun known call ↦ ∀ key, known key = some 0 → stock.mayTake call key = false
  expects := fun _ _ _ ↦ True
  step := fun known call reply key ↦ (stock.measured call reply key).or (known key)

/-- A program takes nothing of which it has measured that nothing is left. -/
def Careful (program : Program Call Reply Err α) : Prop :=
  program.Follows stock.checking (fun _ _ ↦ True) (fun _ _ ↦ True) fun _ ↦ none

/-- A thread that has not measured that nothing is left. -/
def Free (known : Key → Option ℕ) : Prop := ∀ key, known key ≠ some 0

/-- Calls that measure nothing. -/
def Unmeasured (call : Call) : Prop := ∀ reply key, stock.measured call reply key = none

theorem permits_of_free {known : Key → Option ℕ} (hfree : Free known) (call : Call) :
    stock.checking.permits known call := fun key hnone ↦ absurd hnone (hfree key)

theorem free_of_unmeasured {known : Key → Option ℕ} {call : Call} (hcall : stock.Unmeasured call)
    (hfree : Free known) (reply : Reply call) : Free (stock.checking.step known call reply) := by
  intro key
  show (stock.measured call reply key).or (known key) ≠ some 0
  rw [hcall reply key, Option.none_or]
  exact hfree key

/-- A program that measures nothing may take if it may at its start. -/
theorem follows_of_unmeasured {known : Key → Option ℕ} {program : Program Call Reply Err α}
    (huses : program.Uses stock.Unmeasured) (hfree : Free known) :
    program.Follows stock.checking (fun _ ↦ Free) (fun _ _ ↦ True) known :=
  (Follows.of_uses Free huses (fun call _ hcall hfree ↦
    ⟨stock.permits_of_free hfree call, fun reply _ ↦ stock.free_of_unmeasured hcall hfree reply⟩)
      hfree).mono (fun _ _ ↦ id) fun _ _ _ ↦ trivial

/-- The same for calls with the place of their thread. -/
def numbered : Typestate (ℕ × Call) (fun call ↦ Reply call.2) (ℕ × (Key → Option ℕ)) where
  permits := fun state call ↦ call.1 = state.1 ∧ stock.checking.permits state.2 call.2
  expects := fun _ _ _ ↦ True
  step := fun state call reply ↦ (state.1, stock.checking.step state.2 call.2 reply)

theorem follows_labelled (label : ℕ) {program : Program Call Reply Err α} {known : Key → Option ℕ}
    (hfollows : program.Follows stock.checking (fun _ _ ↦ True) (fun _ _ ↦ True) known) :
    (program.labelled label).Follows stock.numbered (fun _ _ ↦ True) (fun _ _ ↦ True)
      (label, known) := by
  induction program generalizing known with
  | done value => trivial
  | failed error => trivial
  | await call next ih =>
    exact ⟨⟨rfl, hfollows.1⟩, fun reply _ ↦ ih reply (hfollows.2 reply trivial)⟩

/-! ### What every step keeps -/

/-- No tally promises more than is left, and the tallies agree with what the threads know. -/
structure Accounts (world : World × Tallies Key) (known : ℕ → Option (Key → Option ℕ)) : Prop where
  sound : stock.sound world.1
  measured_le : ∀ key thread tally, world.2 key thread = some tally →
    tally.measured ≤ stock.left key world.1 + tally.takenSince
  agrees : ∀ key thread, (world.2 key thread).map Tally.measured = (known thread).bind (· key)

section Observe

variable {label : ℕ} {call : Call} {reply : Reply call} {world : World} {seen : Tallies Key}
  {key : Key} {thread : ℕ}

/-- A tally is new, or goes on. -/
theorem observe_cases {tally : Tally}
    (htally : stock.observe label call reply world seen key thread = some tally) :
    (stock.measured call reply key = some tally.measured ∧ tally.takenSince = 0) ∨
      ∃ before, seen key thread = some before ∧ tally.measured = before.measured ∧
        tally.takenSince = before.takenSince +
            if stock.takes call reply world key then 1 else 0 := by
  have hcounted : (seen key thread).map (fun before ↦
      before.after (stock.takes call reply world key)) = some tally →
      ∃ before, seen key thread = some before ∧ tally.measured = before.measured ∧
        tally.takenSince = before.takenSince +
          if stock.takes call reply world key then 1 else 0 := by
    intro hmap
    obtain ⟨before, hbefore, rfl⟩ := Option.map_eq_some_iff.mp hmap
    exact ⟨before, hbefore, rfl, rfl⟩
  unfold observe at htally
  dsimp only at htally
  split_ifs at htally with hsame
  · cases hmeasured : stock.measured call reply key with
    | none =>
      rw [hmeasured, Option.map_none, Option.none_or] at htally
      exact Or.inr (hcounted htally)
    | some count =>
      rw [hmeasured, Option.map_some, Option.some_or] at htally
      obtain rfl := Option.some.inj htally
      exact Or.inl ⟨rfl, rfl⟩
  · exact Or.inr (hcounted htally)

/-- What a thread has measured is what it measured last. -/
theorem map_measured_observe :
    (stock.observe label call reply world seen key thread).map Tally.measured =
      if thread = label then
        (stock.measured call reply key).or ((seen key thread).map Tally.measured)
      else (seen key thread).map Tally.measured := by
  have hcounted : ((seen key thread).map fun tally ↦
      tally.after (stock.takes call reply world key)).map Tally.measured =
        (seen key thread).map Tally.measured := by
    rw [Option.map_map]
    rfl
  unfold observe
  dsimp only
  split_ifs
  · cases stock.measured call reply key with
    | none => exact hcounted
    | some count => rfl
  · exact hcounted

end Observe

/-- A thread that may take finds something left. -/
theorem left_pos {world : World × Tallies Key} {known : ℕ → Option (Key → Option ℕ)} {label : ℕ}
    {state : Key → Option ℕ} (haccounts : stock.Accounts world (Function.update known label state))
    {call : Call} {outcome : Outcome} (hpermits : stock.checking.permits state call)
    (htime : stock.TakesInTime (label, call) outcome world) {key : Key}
    (htakes : stock.takes call (machine.answer call outcome world.1).1 world.1 key = true) :
    0 < stock.left key world.1 := by
  obtain ⟨tally, htally, hsince⟩ := htime key htakes
  have hle := haccounts.measured_le key label tally htally
  have hstate : state key = some tally.measured := by
    have hagrees := haccounts.agrees key label
    rw [htally, Function.update_self] at hagrees
    exact hagrees.symm
  have hmeasured : tally.measured ≠ 0 := by
    intro hzero
    rw [hzero] at hstate
    have hnot := hpermits key hstate
    rw [stock.mayTake_of_takes htakes] at hnot
    cases hnot
  omega

/-- Every permitted call in time keeps the accounts. -/
theorem accounts_keeps (known : ℕ → Option (Key → Option ℕ)) (label : ℕ) :
    stock.numbered.Keeps (machine.watched stock.observe) stock.TakesInTime fun world state ↦
      state.1 = label ∧ stock.Accounts world (Function.update known label (some state.2)) := by
  rintro ⟨caller, call⟩ outcome world ⟨place, state⟩ htime ⟨hcaller, hpermits⟩ ⟨hplace, haccounts⟩
  obtain rfl : place = label := hplace
  obtain rfl : caller = place := hcaller
  refine ⟨trivial, rfl, stock.sound_answer haccounts.sound fun key htakes ↦
    stock.left_pos haccounts hpermits htime htakes, fun key thread tally htally ↦ ?_,
    fun key thread ↦ ?_⟩
  · show tally.measured ≤ stock.left key (machine.answer call outcome world.1).2 + tally.takenSince
    rcases stock.observe_cases htally with ⟨hmeasured, hsince⟩ | ⟨before, hbefore, hsame, hsince⟩
    · exact Nat.le_add_right_of_le (stock.measured_le haccounts.sound hmeasured)
    · have hle := haccounts.measured_le key thread before hbefore
      have hleft := @stock.left_le call outcome world.1 key haccounts.sound
      rw [hsame, hsince]
      dsimp only at hleft ⊢
      omega
  · have hagrees := haccounts.agrees key thread
    refine Eq.trans stock.map_measured_observe ?_
    split_ifs with hsame
    · subst hsame
      rw [Function.update_self] at hagrees ⊢
      rw [hagrees]
      rfl
    · rw [Function.update_of_ne hsame] at hagrees ⊢
      exact hagrees

/-! ### Runs -/

/-- What the threads of a list of states have measured. -/
def knownOf (states : List (ℕ × (Key → Option ℕ))) (thread : ℕ) : Option (Key → Option ℕ) :=
  (states[thread]?).map Prod.snd

theorem knownOf_set {states : List (ℕ × (Key → Option ℕ))} {thread : ℕ}
    (hbound : thread < states.length) (state : ℕ × (Key → Option ℕ)) :
    knownOf (states.set thread state) = Function.update (knownOf states) thread (some state.2) := by
  funext other
  unfold knownOf
  by_cases hsame : other = thread
  · subst hsame
    rw [Function.update_self, List.getElem?_set_self hbound]
    rfl
  · rw [Function.update_of_ne hsame, List.getElem?_set_ne (Ne.symm hsame)]

theorem knownOf_append (states : List (ℕ × (Key → Option ℕ))) (state : ℕ × (Key → Option ℕ)) :
    knownOf (states ++ [state]) =
      Function.update (knownOf states) states.length (some state.2) := by
  funext other
  unfold knownOf
  by_cases hsame : other = states.length
  · subst hsame
    rw [Function.update_self, List.getElem?_concat_length]
    rfl
  · rw [Function.update_of_ne hsame]
    rcases Nat.lt_or_ge other states.length with hold | hnew
    · rw [List.getElem?_append_left hold]
    · rw [List.getElem?_eq_none (by simp; omega), List.getElem?_eq_none hnew]

/-- Every thread knows its place, and the accounts are right. -/
structure Balanced (world : World × Tallies Key) (states : List (ℕ × (Key → Option ℕ))) : Prop where
  places : ∀ (thread : ℕ) (state : ℕ × (Key → Option ℕ)), states[thread]? = some state →
    state.1 = thread
  accounts : stock.Accounts world (knownOf states)

/-- The moves of careful programs, around which nothing is taken, keep the accounts. -/
theorem maintains {starts : Program Call Reply Err Unit → Prop} {around : Event → Prop}
    (hcareful : ∀ program, starts program → stock.Careful program)
    (haround : ∀ event world, around event → stock.sound world →
      stock.sound (machine.react event world) ∧
        ∀ key, stock.left key world ≤ stock.left key (machine.react event world)) :
    Maintains (machine.watched stock.observe) stock.numbered (fun _ ↦ True)
      (NumberedMove machine stock.observe starts around stock.TakesInTime) stock.Balanced where
  start := by
    intro system tag program states hlegal htyped hinvariant
    obtain ⟨hplaces, haccounts⟩ := hinvariant
    cases hlegal with
    | start plain hstarts hcalls =>
      refine ⟨states, (system.threads.length, fun _ ↦ none), _, _, htyped,
        stock.follows_labelled _ (hcareful plain hstarts), hcalls,
        stock.accounts_keeps (knownOf states) states.length, ⟨htyped.length.symm, ?_⟩, ?_⟩
      · have hnone : knownOf states states.length = none := by
          unfold knownOf
          rw [List.getElem?_eq_none (Nat.le_refl _)]
          rfl
        refine ⟨haccounts.sound, haccounts.measured_le, fun key thread ↦ ?_⟩
        by_cases hsame : thread = states.length
        · subst hsame
          rw [Function.update_self, haccounts.agrees, hnone]
          rfl
        · rw [Function.update_of_ne hsame, haccounts.agrees]
      · rintro world state ⟨hplace, hafter⟩
        refine ⟨fun thread found hfound ↦ ?_, ?_⟩
        · rcases Nat.lt_or_ge thread states.length with hold | hnew
          · rw [List.getElem?_append_left hold] at hfound
            exact hplaces thread found hfound
          · rw [List.getElem?_append_right hnew, List.getElem?_singleton] at hfound
            split_ifs at hfound with hzero
            obtain rfl := Option.some.inj hfound
            omega
        · rw [knownOf_append]
          exact hafter
  advance := by
    intro system thread outcome tag program states hlegal hthread htyped hinvariant
    obtain ⟨hplaces, haccounts⟩ := hinvariant
    have hbound : thread < states.length := by
      rw [htyped.length]
      exact (List.getElem?_eq_some_iff.mp hthread).1
    cases hlegal with
    | advance _ _ hcalls =>
      refine ⟨states, _, _, htyped, hcalls program hthread,
        stock.accounts_keeps (knownOf states) thread, fun state hstate ↦ ?_, ?_⟩
      · refine ⟨hplaces thread state hstate, ?_⟩
        have hknown : knownOf states thread = some state.2 := by
          unfold knownOf
          rw [hstate]
          rfl
        rw [← hknown, Function.update_eq_self]
        exact haccounts
      · rintro world state ⟨hplace, hafter⟩
        refine ⟨fun other found hfound ↦ ?_, ?_⟩
        · by_cases hsame : thread = other
          · subst hsame
            rw [List.getElem?_set_self hbound] at hfound
            obtain rfl := Option.some.inj hfound
            exact hplace
          · rw [List.getElem?_set_ne hsame] at hfound
            exact hplaces other found hfound
        · rw [knownOf_set hbound]
          exact hafter
  crash := by
    intro system states hlegal
    cases hlegal
  environment := by
    intro system event states hlegal _ hinvariant
    obtain ⟨hplaces, haccounts⟩ := hinvariant
    cases hlegal with
    | environment _ hevent =>
      obtain ⟨hsound, hleft⟩ := haround event system.world.1 hevent haccounts.sound
      exact ⟨hplaces, hsound, fun key thread tally htally ↦
        Nat.le_trans (haccounts.measured_le key thread tally htally)
          (Nat.add_le_add_right (hleft key) _), haccounts.agrees⟩

/-- In every run of careful programs whose takes are all in time, no take finds nothing left: what
is sound at first is sound in every state reached. -/
theorem sound_of_reaches {starts : Program Call Reply Err Unit → Prop} {around : Event → Prop}
    (hcareful : ∀ program, starts program → stock.Careful program)
    (haround : ∀ event world, around event → stock.sound world →
      stock.sound (machine.react event world) ∧
        ∀ key, stock.left key world ≤ stock.left key (machine.react event world))
    {world : World} (hsound : stock.sound world)
    {system : System (ℕ × Call) (fun call ↦ Reply call.2) Err (World × Tallies Key) Unit}
    (hreached : Reaches (machine.watched stock.observe).move
      (NumberedMove machine stock.observe starts around stock.TakesInTime)
      { threads := [], world := (world, fun _ _ ↦ none) } system) : stock.sound system.world.1 := by
  have hinitial : stock.Accounts (world, fun _ _ ↦ none) (knownOf []) :=
    ⟨hsound, nofun, fun _ _ ↦ rfl⟩
  obtain ⟨states, -, -, haccounts⟩ := hreached.typed (stock.maintains hcareful haround) rfl
    ⟨nofun, hinitial⟩
  exact haccounts.sound

end Stock

end VmsLite.Async
