import VmsLite.Async.Uses

/-!
# Typestates

What a program may call depends on what it has called before and on the replies it got. A
`Typestate` is an automaton that reads the calls of a program with their replies: in each of its
states it says which calls are permitted and which replies are expected, and a call with its reply
takes it to the next state. `Follows` says that a program makes permitted calls only; it is proved
once for each program along its structure, and speaks of no world.

In a system every thread has a state of its own. An invariant relates the world to the states of all
threads, and it is the calls that keep it, not the programs: `Reaches.typed` turns a lemma about
each permitted call into one about every interleaving.
-/

set_option autoImplicit false

namespace VmsLite.Async

structure Typestate (Call : Type) (Reply : Call → Type) (State : Type) where
  permits : State → Call → Prop
  expects : State → (call : Call) → Reply call → Prop
  step : State → (call : Call) → Reply call → State

variable {Call : Type} {Reply : Call → Type} {Err World Outcome Event Tag State α β : Type}

namespace Program

variable (automaton : Typestate Call Reply State)

/-- A program makes permitted calls only, as long as it gets expected replies, and ends where `post`
and `thrown` say. -/
def Follows (post : α → State → Prop) (thrown : Err → State → Prop) :
    Program Call Reply Err α → State → Prop
  | done value, state => post value state
  | failed error, state => thrown error state
  | await call next, state => automaton.permits state call ∧
      ∀ reply, automaton.expects state call reply →
        Follows post thrown (next reply) (automaton.step state call reply)

variable {automaton} {post : α → State → Prop} {thrown : Err → State → Prop} {state : State}

theorem Follows.mono {post' : α → State → Prop} {thrown' : Err → State → Prop}
    {program : Program Call Reply Err α} (hfollows : program.Follows automaton post thrown state)
    (hpost : ∀ value state, post value state → post' value state)
    (hthrown : ∀ error state, thrown error state → thrown' error state) :
    program.Follows automaton post' thrown' state := by
  induction program generalizing state with
  | done value => exact hpost _ _ hfollows
  | failed error => exact hthrown _ _ hfollows
  | await call next ih =>
    exact ⟨hfollows.1, fun reply hreply ↦ ih reply (hfollows.2 reply hreply)⟩

theorem Follows.bind {middle : α → State → Prop} {post : β → State → Prop}
    {program : Program Call Reply Err α} {rest : α → Program Call Reply Err β}
    (hfirst : program.Follows automaton middle thrown state)
    (hrest : ∀ value state, middle value state →
      (rest value).Follows automaton post thrown state) :
    (program.bind rest).Follows automaton post thrown state := by
  induction program generalizing state with
  | done value => exact hrest _ _ hfirst
  | failed error => exact hfirst
  | await call next ih =>
    exact ⟨hfirst.1, fun reply hreply ↦ ih reply (hfirst.2 reply hreply)⟩

theorem Follows.catching (caught : Err → State → Prop) {program : Program Call Reply Err α}
    {handler : Err → Program Call Reply Err α}
    (hbody : program.Follows automaton post caught state)
    (hhandler : ∀ error state, caught error state →
      (handler error).Follows automaton post thrown state) :
    (program.catching handler).Follows automaton post thrown state := by
  induction program generalizing state with
  | done value => exact hbody
  | failed error => exact hhandler _ _ hbody
  | await call next ih =>
    exact ⟨hbody.1, fun reply hreply ↦ ih reply (hbody.2 reply hreply)⟩

theorem Follows.orThrow {reply : Except Err α} (hok : ∀ value, reply = .ok value → post value state)
    (herror : ∀ error, reply = .error error → thrown error state) :
    (orThrow reply : Program Call Reply Err α).Follows automaton post thrown state := by
  cases reply with
  | ok value => exact hok value rfl
  | error error => exact herror error rfl

/-- A loop over a list follows a typestate when each round keeps an invariant of the total. -/
theorem Follows.foldlM (kept : β → State → Prop) {items : List α}
    {body : β → α → Program Call Reply Err β}
    (hbody : ∀ total, ∀ item ∈ items, ∀ state, kept total state →
      (body total item).Follows automaton kept thrown state)
    {total : β} (hstart : kept total state) :
    (items.foldlM body total).Follows automaton kept thrown state := by
  induction items generalizing total state with
  | nil => exact hstart
  | cons item rest ih =>
    rw [List.foldlM_cons]
    refine Follows.bind (hbody total item List.mem_cons_self state hstart) ?_
    intro value reached hreached
    exact ih (fun total next hnext ↦ hbody total next (List.mem_cons_of_mem _ hnext)) hreached

/-- A program all of whose calls are permitted in some states and lead from these to these. -/
theorem Follows.of_uses {used : Call → Prop} (kept : State → Prop)
    {program : Program Call Reply Err α} (huses : program.Uses used)
    (hcall : ∀ call state, used call → kept state → automaton.permits state call ∧
      ∀ reply, automaton.expects state call reply → kept (automaton.step state call reply))
    (hkept : kept state) :
    program.Follows automaton (fun _ ↦ kept) (fun _ ↦ kept) state := by
  induction program generalizing state with
  | done value => exact hkept
  | failed error => exact hkept
  | await call next ih =>
    obtain ⟨hpermits, hstep⟩ := hcall call state huses.1 hkept
    exact ⟨hpermits, fun reply hreply ↦ ih reply (huses.2 reply) (hstep reply hreply)⟩

/-- A program that may run in any of some states and ends in them again. -/
def Settles (automaton : Typestate Call Reply State) (rests : State → Prop)
    (program : Program Call Reply Err α) : Prop :=
  ∀ state, rests state → program.Follows automaton (fun _ ↦ rests) (fun _ ↦ rests) state

namespace Settles

variable {rests : State → Prop}

theorem done (value : α) :
    Settles automaton rests (Program.done value : Program Call Reply Err α) :=
  fun _ hrests ↦ hrests

theorem failed (error : Err) :
    Settles automaton rests (Program.failed error : Program Call Reply Err α) :=
  fun _ hrests ↦ hrests

theorem bind {program : Program Call Reply Err α} {rest : α → Program Call Reply Err β}
    (hfirst : Settles automaton rests program)
    (hrest : ∀ value, Settles automaton rests (rest value)) :
    Settles automaton rests (program.bind rest) :=
  fun state hrests ↦ (hfirst state hrests).bind fun value ↦ hrest value

theorem catching {program : Program Call Reply Err α} {handler : Err → Program Call Reply Err α}
    (hbody : Settles automaton rests program)
    (hhandler : ∀ error, Settles automaton rests (handler error)) :
    Settles automaton rests (program.catching handler) :=
  fun state hrests ↦ (hbody state hrests).catching _ fun error ↦ hhandler error

theorem orThrow (reply : Except Err α) :
    Settles automaton rests (Program.orThrow reply : Program Call Reply Err α) :=
  fun _ hrests ↦ Follows.orThrow (fun _ _ ↦ hrests) fun _ _ ↦ hrests

theorem foldlM {items : List α} {body : β → α → Program Call Reply Err β}
    (hbody : ∀ total, ∀ item ∈ items, Settles automaton rests (body total item)) (total : β) :
    Settles automaton rests (items.foldlM body total) :=
  fun _ hrests ↦ Follows.foldlM (fun _ ↦ rests) (fun total item hitem ↦ hbody total item hitem)
    hrests

/-- A program settles when each of its calls is permitted in these states and stays in them. -/
theorem of_uses {used : Call → Prop} {program : Program Call Reply Err α}
    (huses : program.Uses used)
    (hcall : ∀ call state, used call → rests state → automaton.permits state call ∧
      ∀ reply, automaton.expects state call reply → rests (automaton.step state call reply)) :
    Settles automaton rests program :=
  fun _ hrests ↦ Follows.of_uses rests huses hcall hrests

end Settles

end Program

/-! ### The calls of a move -/

/-- A program that is over, or whose next call is one to wait for. -/
def Program.IsSettled (synchronous : Call → Bool) : Program Call Reply Err α → Prop
  | done _ => True
  | failed _ => True
  | await call _ => synchronous call = false

theorem Machine.isSettled_settle (machine : Machine Call Reply World Outcome Event)
    (program : Program Call Reply Err α) (world : World) :
    (machine.settle program world).1.IsSettled machine.synchronous := by
  induction program generalizing world with
  | done value => trivial
  | failed error => trivial
  | await call next ih =>
    unfold Machine.settle Program.settle
    by_cases hsynchronous : machine.synchronous call = true
    · rw [if_pos hsynchronous]
      exact ih _ _
    · rw [if_neg hsynchronous]
      exact Bool.eq_false_iff.mpr hsynchronous

theorem Machine.isSettled_resume (machine : Machine Call Reply World Outcome Event)
    (outcome : Outcome) (program : Program Call Reply Err α) (world : World) :
    (machine.resume outcome program world).1.IsSettled machine.synchronous := by
  cases program with
  | done value => trivial
  | failed error => trivial
  | await call next => exact machine.isSettled_settle _ _

namespace Machine

variable (machine : Machine Call Reply World Outcome Event)
  (condition : Call → Outcome → World → Prop)

/-- A condition on the synchronous calls at the head of a program. -/
def SettleCalls : Program Call Reply Err α → World → Prop
  | .done _, _ => True
  | .failed _, _ => True
  | .await call next, world =>
    machine.synchronous call = true → condition call machine.calm world ∧
      SettleCalls (next (machine.answer call machine.calm world).1)
        (machine.answer call machine.calm world).2

/-- A condition on the awaited call of a program and the synchronous calls after it. -/
def ResumeCalls (outcome : Outcome) : Program Call Reply Err α → World → Prop
  | .done _, _ => True
  | .failed _, _ => True
  | .await call next, world => condition call outcome world ∧
      machine.SettleCalls condition (next (machine.answer call outcome world).1)
        (machine.answer call outcome world).2

variable {condition}

theorem SettleCalls.mono {weaker : Call → Outcome → World → Prop}
    (hweaker : ∀ call outcome world, condition call outcome world → weaker call outcome world)
    {program : Program Call Reply Err α} {world : World}
    (hcalls : machine.SettleCalls condition program world) :
    machine.SettleCalls weaker program world := by
  induction program generalizing world with
  | done value => trivial
  | failed error => trivial
  | await call next ih =>
    intro hsynchronous
    obtain ⟨hcall, hnext⟩ := hcalls hsynchronous
    exact ⟨hweaker _ _ _ hcall, ih _ hnext⟩

theorem ResumeCalls.mono {weaker : Call → Outcome → World → Prop}
    (hweaker : ∀ call outcome world, condition call outcome world → weaker call outcome world)
    {outcome : Outcome} {program : Program Call Reply Err α} {world : World}
    (hcalls : machine.ResumeCalls condition outcome program world) :
    machine.ResumeCalls weaker outcome program world := by
  cases program with
  | done value => trivial
  | failed error => trivial
  | await call next => exact ⟨hweaker _ _ _ hcalls.1, SettleCalls.mono machine hweaker hcalls.2⟩

theorem SettleCalls.of_synchronous
    (hall : ∀ call world, machine.synchronous call = true → condition call machine.calm world)
    (program : Program Call Reply Err α) (world : World) :
    machine.SettleCalls condition program world := by
  induction program generalizing world with
  | done value => trivial
  | failed error => trivial
  | await call next ih => exact fun hsynchronous ↦ ⟨hall _ _ hsynchronous, ih _ _⟩

/-- A condition that synchronous calls meet is one on the awaited call. -/
theorem ResumeCalls.of_awaited
    (hall : ∀ call world, machine.synchronous call = true → condition call machine.calm world)
    {outcome : Outcome} {program : Program Call Reply Err α} {world : World}
    (hawaited : ∀ call next, program = .await call next → condition call outcome world) :
    machine.ResumeCalls condition outcome program world := by
  cases program with
  | done value => trivial
  | failed error => trivial
  | await call next =>
    exact ⟨hawaited call next rfl, SettleCalls.of_synchronous machine hall _ _⟩

end Machine

/-- Permitted calls that meet a condition get expected replies and keep a relation between the world
and the state of their thread. -/
def Typestate.Keeps (automaton : Typestate Call Reply State)
    (machine : Machine Call Reply World Outcome Event) (condition : Call → Outcome → World → Prop)
    (kept : World → State → Prop) : Prop :=
  ∀ call outcome world state, condition call outcome world → automaton.permits state call →
    kept world state → automaton.expects state call (machine.answer call outcome world).1 ∧
      kept (machine.answer call outcome world).2
        (automaton.step state call (machine.answer call outcome world).1)

namespace Program

variable {machine : Machine Call Reply World Outcome Event} {automaton : Typestate Call Reply State}
  {condition : Call → Outcome → World → Prop} {kept : World → State → Prop}
  {post : α → State → Prop} {thrown : Err → State → Prop} {world : World} {state : State}

theorem Follows.settle (hkeeps : automaton.Keeps machine condition kept)
    {program : Program Call Reply Err α} (hcalls : machine.SettleCalls condition program world)
    (hfollows : program.Follows automaton post thrown state) (hkept : kept world state) :
    ∃ reached, (machine.settle program world).1.Follows automaton post thrown reached ∧
      kept (machine.settle program world).2 reached := by
  induction program generalizing world state with
  | done value => exact ⟨state, hfollows, hkept⟩
  | failed error => exact ⟨state, hfollows, hkept⟩
  | await call next ih =>
    by_cases hsynchronous : machine.synchronous call = true
    · obtain ⟨hcall, hnext⟩ := hcalls hsynchronous
      obtain ⟨hexpects, hkept⟩ := hkeeps _ _ _ _ hcall hfollows.1 hkept
      have hsettle : machine.settle (await call next) world =
          machine.settle (next (machine.answer call machine.calm world).1)
            (machine.answer call machine.calm world).2 := by
        simp only [Machine.settle, Program.settle, hsynchronous, if_true]
      rw [hsettle]
      exact ih _ hnext (hfollows.2 _ hexpects) hkept
    · have hsettle : machine.settle (await call next) world = (await call next, world) := by
        simp only [Machine.settle, Program.settle, hsynchronous, if_false, Bool.false_eq_true]
      rw [hsettle]
      exact ⟨state, hfollows, hkept⟩

theorem Follows.resume (hkeeps : automaton.Keeps machine condition kept) {outcome : Outcome}
    {program : Program Call Reply Err α}
    (hcalls : machine.ResumeCalls condition outcome program world)
    (hfollows : program.Follows automaton post thrown state) (hkept : kept world state) :
    ∃ reached, (machine.resume outcome program world).1.Follows automaton post thrown reached ∧
      kept (machine.resume outcome program world).2 reached := by
  cases program with
  | done value => exact ⟨state, hfollows, hkept⟩
  | failed error => exact ⟨state, hfollows, hkept⟩
  | await call next =>
    obtain ⟨hexpects, hkept⟩ := hkeeps _ _ _ _ hcalls.1 hfollows.1 hkept
    exact Follows.settle hkeeps hcalls.2 (hfollows.2 _ hexpects) hkept

end Program

/-! ### Runs -/

section Runs

variable (machine : Machine Call Reply World Outcome Event) (automaton : Typestate Call Reply State)
  (ends : State → Prop)

/-- Every thread waits for a call, and follows the typestate from its state. -/
structure System.Typed (states : List State) (system : System Call Reply Err World Tag) : Prop where
  length : states.length = system.threads.length
  follows : ∀ {thread : ℕ} {state : State} {tag : Tag} {program : Program Call Reply Err Unit},
    states[thread]? = some state → system.threads[thread]? = some (tag, program) →
      program.Follows automaton (fun _ ↦ ends) (fun _ ↦ ends) state
  settled : ∀ {thread : ℕ} {tag : Tag} {program : Program Call Reply Err Unit},
    system.threads[thread]? = some (tag, program) → program.IsSettled machine.synchronous

variable {machine automaton ends} {system : System Call Reply Err World Tag} {states : List State}

theorem System.Typed.start (htyped : system.Typed machine automaton ends states) {tag : Tag}
    {program : Program Call Reply Err Unit} {state : State}
    (hfollows : (machine.settle program system.world).1.Follows automaton (fun _ ↦ ends)
      (fun _ ↦ ends) state) :
    (machine.move system (.start tag program)).Typed machine automaton ends
        (states ++ [state]) where
  length := by simp [Machine.move, htyped.length]
  follows := by
    intro thread found ran current hstate hentry
    rcases Nat.lt_or_ge thread states.length with hold | hnew
    · rw [List.getElem?_append_left hold] at hstate
      rw [Machine.move, List.getElem?_append_left (htyped.length ▸ hold)] at hentry
      exact htyped.follows hstate hentry
    · rw [List.getElem?_append_right hnew, List.getElem?_singleton] at hstate
      rw [Machine.move, List.getElem?_append_right (htyped.length ▸ hnew),
        List.getElem?_singleton] at hentry
      split_ifs at hstate hentry
      · obtain rfl := Option.some.inj hstate
        obtain ⟨rfl, rfl⟩ := Prod.mk.inj (Option.some.inj hentry)
        exact hfollows
  settled := by
    intro thread ran current hentry
    rcases List.mem_append.mp (List.mem_of_getElem? hentry) with hold | hnew
    · obtain ⟨index, hindex⟩ := List.mem_iff_getElem?.mp hold
      exact htyped.settled hindex
    · obtain ⟨-, rfl⟩ := Prod.mk.inj (List.mem_singleton.mp hnew)
      exact machine.isSettled_settle _ _

theorem System.Typed.advance (htyped : system.Typed machine automaton ends states) {thread : ℕ}
    {outcome : Outcome} {tag : Tag} {program : Program Call Reply Err Unit} {state : State}
    (hthread : system.threads[thread]? = some (tag, program))
    (hfollows : (machine.resume outcome program system.world).1.Follows automaton (fun _ ↦ ends)
      (fun _ ↦ ends) state) :
    (machine.move system (.advance thread outcome)).Typed machine automaton ends
      (states.set thread state) := by
  have hmove : (machine.move system (.advance thread outcome)).threads =
      system.threads.set thread (tag, (machine.resume outcome program system.world).1) := by
    simp only [Machine.move, hthread]
  refine ⟨by rw [hmove, List.length_set, List.length_set, htyped.length], ?_, ?_⟩
  · intro other found ran current hstate hentry
    rw [hmove] at hentry
    by_cases hsame : thread = other
    · subst hsame
      have hbound : thread < system.threads.length := (List.getElem?_eq_some_iff.mp hthread).1
      rw [List.getElem?_set_self (htyped.length ▸ hbound)] at hstate
      rw [List.getElem?_set_self hbound] at hentry
      obtain rfl := Option.some.inj hstate
      obtain ⟨rfl, rfl⟩ := Prod.mk.inj (Option.some.inj hentry)
      exact hfollows
    · rw [List.getElem?_set_ne hsame] at hstate hentry
      exact htyped.follows hstate hentry
  · intro other ran current hentry
    rw [hmove] at hentry
    rcases List.mem_or_eq_of_mem_set (List.mem_of_getElem? hentry) with hold | hnew
    · obtain ⟨index, hindex⟩ := List.mem_iff_getElem?.mp hold
      exact htyped.settled hindex
    · obtain ⟨-, rfl⟩ := Prod.mk.inj hnew
      exact machine.isSettled_resume _ _ _

variable (machine automaton ends)

/-- Legal moves start programs that follow the typestate, and keep an invariant of the world and the
states of all threads. Before a move the states may be chosen anew. -/
structure Maintains (legal : System Call Reply Err World Tag →
    Move Call Reply Err Outcome Event Tag → Prop) (invariant : World → List State → Prop) :
        Prop where
  start : ∀ {system tag program states}, legal system (.start tag program) →
    system.Typed machine automaton ends states → invariant system.world states →
      ∃ chosen state condition kept, system.Typed machine automaton ends chosen ∧
        program.Follows automaton (fun _ ↦ ends) (fun _ ↦ ends) state ∧
        machine.SettleCalls condition program system.world ∧
        automaton.Keeps machine condition kept ∧ kept system.world state ∧
        ∀ world state, kept world state → invariant world (chosen ++ [state])
  advance : ∀ {system thread outcome tag program states}, legal system (.advance thread outcome) →
    system.threads[thread]? = some (tag, program) → system.Typed machine automaton ends states →
      invariant system.world states →
        ∃ chosen condition kept, system.Typed machine automaton ends chosen ∧
          machine.ResumeCalls condition outcome program system.world ∧
          automaton.Keeps machine condition kept ∧
          (∀ state, chosen[thread]? = some state → kept system.world state) ∧
          ∀ world state, kept world state → invariant world (chosen.set thread state)
  crash : ∀ {system states}, legal system .crash → invariant system.world states →
    invariant (machine.restart system.world) []
  environment : ∀ {system event states}, legal system (.environment event) →
    system.Typed machine automaton ends states → invariant system.world states →
      invariant (machine.react event system.world) states

variable {machine automaton ends} {legal : System Call Reply Err World Tag →
  Move Call Reply Err Outcome Event Tag → Prop} {invariant : World → List State → Prop}
  {initial : System Call Reply Err World Tag}

/-- In every system reached the threads follow the typestate, from states for which the invariant
holds. -/
theorem Reaches.typed (hmaintains : Maintains machine automaton ends legal invariant)
    (hnone : initial.threads = []) (hinitial : invariant initial.world [])
    (hreached : Reaches machine.move legal initial system) :
    ∃ states, system.Typed machine automaton ends states ∧ invariant system.world states := by
  induction hreached with
  | refl =>
    refine ⟨[], ⟨by rw [hnone]; rfl, ?_, ?_⟩, hinitial⟩
    · intro thread state tag program hstate
      cases hstate
    · intro thread tag program hthread
      rw [hnone] at hthread
      cases hthread
  | @step system move hbefore hlegal ih =>
    obtain ⟨states, htyped, hinvariant⟩ := ih
    cases move with
    | start tag program =>
      obtain ⟨chosen, state, condition, kept, htyped, hfollows, hcalls, hkeeps, hkept, hinv⟩ :=
        hmaintains.start hlegal htyped hinvariant
      obtain ⟨reached, hreached, hkept⟩ := hfollows.settle hkeeps hcalls hkept
      exact ⟨chosen ++ [reached], htyped.start hreached, hinv _ _ hkept⟩
    | advance thread outcome =>
      cases hthread : system.threads[thread]? with
      | none =>
        have hmove : machine.move system (.advance thread outcome) = system := by
          simp only [Machine.move, hthread]
        rw [hmove]
        exact ⟨states, htyped, hinvariant⟩
      | some entry =>
        obtain ⟨tag, program⟩ := entry
        obtain ⟨chosen, condition, kept, htyped, hcalls, hkeeps, hkept, hinv⟩ :=
          hmaintains.advance hlegal hthread htyped hinvariant
        have hlength : thread < chosen.length := by
          rw [htyped.length]
          exact (List.getElem?_eq_some_iff.mp hthread).1
        have hstate : chosen[thread]? = some chosen[thread] := List.getElem?_eq_getElem hlength
        obtain ⟨reached, hreached, hkept⟩ :=
          (htyped.follows hstate hthread).resume hkeeps hcalls (hkept _ hstate)
        have hworld : (machine.move system (.advance thread outcome)).world =
            (machine.resume outcome program system.world).2 := by
          simp only [Machine.move, hthread]
        exact ⟨chosen.set thread reached, htyped.advance hthread hreached,
          hworld ▸ hinv _ _ hkept⟩
    | crash =>
      refine ⟨[], ⟨rfl, ?_, ?_⟩, hmaintains.crash hlegal hinvariant⟩
      · intro thread state tag program hstate
        cases hstate
      · intro thread tag program hthread
        cases hthread
    | environment event =>
      exact ⟨states, ⟨htyped.length, htyped.follows, htyped.settled⟩,
        hmaintains.environment hlegal htyped hinvariant⟩

end Runs

end VmsLite.Async
