import VmsLite.Async.Program
import VmsLite.Async.Transition

/-!
# Interleavings, crashes and rely-guarantee reasoning

A `System` is a list of tagged programs sharing one world. A `Move` starts a program, lets one of
them make its next awaited call with an outcome of the environment's choice, lets the environment
change the world, or crashes the process: every program is lost, and the world restarts. After an
awaited call the synchronous calls that follow it run at once, because nothing else runs before the
next `await`. A theorem about all systems that legal moves reach is one about every interleaving,
every pattern of failures and every placement of crashes.

A `Discipline` fixes a relation `rely`, what a program may assume the rest of the system does to the
world between its own calls, and a relation `guarantee`, what each of its own calls does. A program
is `Safe` in a world when, whatever the others do within `rely`, each of its calls satisfies
`guarantee`, and what it returns or throws satisfies a postcondition. `Safe` is proved once for each
program along its structure (`Safe.bind`, `Safe.catching`, `Safe.foldlM`), and `Reaches.safe` turns
it into an invariant of every run: the threads stay safe, and every move satisfies the guarantee.
-/

set_option autoImplicit false

namespace VmsLite.Async

/-- What the calls of a system do, which of them are synchronous, what the environment can do to
the world, and what a restart of the process does to it. -/
structure Machine (Call : Type) (Reply : Call → Type) (World Outcome Event : Type) where
  /-- The reply to a call and the world after it. -/
  answer : (call : Call) → Outcome → World → Reply call × World
  /-- Calls that touch only the memory of the process. -/
  synchronous : Call → Bool
  /-- The outcome of a synchronous call. -/
  calm : Outcome
  /-- A change of the world that no program makes. -/
  react : Event → World → World
  /-- The world after the process has died and started again. -/
  restart : World → World

/-- Programs in flight, each with a tag, and the world they share. -/
structure System (Call : Type) (Reply : Call → Type) (Err World Tag : Type) where
  threads : List (Tag × Program Call Reply Err Unit)
  world : World

/-- One move of a system. -/
inductive Move (Call : Type) (Reply : Call → Type) (Err Outcome Event Tag : Type)
  | start (tag : Tag) (program : Program Call Reply Err Unit)
  | advance (thread : ℕ) (outcome : Outcome)
  | crash
  | environment (event : Event)

variable {Call : Type} {Reply : Call → Type} {Err World Outcome Event Tag α β : Type}

namespace Machine

variable (machine : Machine Call Reply World Outcome Event)

/-- Run the synchronous calls at the head of a program. -/
def settle (program : Program Call Reply Err α) (world : World) :
    Program Call Reply Err α × World :=
  program.settle machine.answer machine.synchronous machine.calm world

/-- One awaited call of a program and the synchronous calls after it. -/
def resume (outcome : Outcome) (program : Program Call Reply Err α) (world : World) :
    Program Call Reply Err α × World :=
  let called := Program.advance machine.answer outcome (program, world)
  machine.settle called.1 called.2

/-- The system after a move. -/
def move (system : System Call Reply Err World Tag) :
    Move Call Reply Err Outcome Event Tag → System Call Reply Err World Tag
  | .start tag program =>
    let settled := machine.settle program system.world
    { threads := system.threads ++ [(tag, settled.1)], world := settled.2 }
  | .advance thread outcome =>
    match system.threads[thread]? with
    | none => system
    | some (tag, program) =>
      let resumed := machine.resume outcome program system.world
      { threads := system.threads.set thread (tag, resumed.1), world := resumed.2 }
  | .crash => { threads := [], world := machine.restart system.world }
  | .environment event => { system with world := machine.react event system.world }

end Machine

/-- What programs assume of each other and promise to each other. -/
structure Discipline (machine : Machine Call Reply World Outcome Event) where
  /-- The outcomes the environment may choose for a call in a world. -/
  allowed : Call → Outcome → World → Prop
  /-- What the rest of the system may do between two calls of a program. -/
  rely : World → World → Prop
  /-- What a call of a program does. -/
  guarantee : World → World → Prop
  rely_refl : ∀ world, rely world world
  rely_trans : ∀ {first second third}, rely first second → rely second third → rely first third
  rely_of_guarantee : ∀ {first second}, guarantee first second → rely first second
  allowed_calm : ∀ {call world}, machine.synchronous call → allowed call machine.calm world
  /-- A synchronous call adds nothing to a step that others could notice. -/
  guarantee_synchronous : ∀ {call first second}, machine.synchronous call →
    guarantee first second → guarantee first (machine.answer call machine.calm second).2

namespace Program

variable {machine : Machine Call Reply World Outcome Event} (discipline : Discipline machine)

/-- A program is safe in a world: under interference within `rely`, every call it makes satisfies
`guarantee`, and its value satisfies `post`, its error `thrown`. -/
def Safe (post : α → World → Prop) (thrown : Err → World → Prop) :
    Program Call Reply Err α → World → Prop
  | done value, world => ∀ later, discipline.rely world later → post value later
  | failed error, world => ∀ later, discipline.rely world later → thrown error later
  | await call next, world => ∀ later, discipline.rely world later → ∀ outcome,
      discipline.allowed call outcome later →
        discipline.guarantee later (machine.answer call outcome later).2 ∧
          Safe post thrown (next (machine.answer call outcome later).1)
            (machine.answer call outcome later).2

variable {discipline} {post : α → World → Prop} {thrown : Err → World → Prop}

/-- Interference within `rely` keeps a program safe. -/
theorem Safe.rely {program : Program Call Reply Err α} {world later : World}
    (hsafe : program.Safe discipline post thrown world) (hrely : discipline.rely world later) :
    program.Safe discipline post thrown later := by
  cases program with
  | done value => exact fun last hlast ↦ hsafe last (discipline.rely_trans hrely hlast)
  | failed error => exact fun last hlast ↦ hsafe last (discipline.rely_trans hrely hlast)
  | await call next =>
    exact fun last hlast outcome hallowed ↦
      hsafe last (discipline.rely_trans hrely hlast) outcome hallowed

/-- Postconditions may be weakened. -/
theorem Safe.mono {post' : α → World → Prop} {thrown' : Err → World → Prop}
    {program : Program Call Reply Err α} {world : World}
    (hsafe : program.Safe discipline post thrown world)
    (hpost : ∀ value world, post value world → post' value world)
    (hthrown : ∀ error world, thrown error world → thrown' error world) :
    program.Safe discipline post' thrown' world := by
  induction program generalizing world with
  | done value => exact fun later hlater ↦ hpost _ _ (hsafe later hlater)
  | failed error => exact fun later hlater ↦ hthrown _ _ (hsafe later hlater)
  | await call next ih =>
    intro later hlater outcome hallowed
    obtain ⟨hguarantee, hnext⟩ := hsafe later hlater outcome hallowed
    exact ⟨hguarantee, ih _ hnext⟩

/-- What the others keep and the program relies on stays true while the program runs. -/
theorem Safe.frame (kept : World → Prop) {program : Program Call Reply Err α} {world : World}
    (hstable : ∀ world later, discipline.rely world later → kept world → kept later)
    (hsafe : program.Safe discipline post thrown world) (hkept : kept world) :
    program.Safe discipline (fun value world ↦ post value world ∧ kept world)
      (fun error world ↦ thrown error world ∧ kept world) world := by
  induction program generalizing world with
  | done value => exact fun later hlater ↦ ⟨hsafe later hlater, hstable _ _ hlater hkept⟩
  | failed error => exact fun later hlater ↦ ⟨hsafe later hlater, hstable _ _ hlater hkept⟩
  | await call next ih =>
    intro later hlater outcome hallowed
    obtain ⟨hguarantee, hnext⟩ := hsafe later hlater outcome hallowed
    exact ⟨hguarantee, ih _ hnext (hstable _ _ (discipline.rely_of_guarantee hguarantee)
      (hstable _ _ hlater hkept))⟩

/-- A sequence is safe when its first part is, and its second part is safe on what the first
returns. -/
theorem Safe.bind {middle : α → World → Prop} {post : β → World → Prop}
    {program : Program Call Reply Err α} {rest : α → Program Call Reply Err β} {world : World}
    (hfirst : program.Safe discipline middle thrown world)
    (hrest : ∀ value world, middle value world →
      (rest value).Safe discipline post thrown world) :
    (program.bind rest).Safe discipline post thrown world := by
  induction program generalizing world with
  | done value => exact hrest _ _ (hfirst world (discipline.rely_refl world))
  | failed error => exact hfirst
  | await call next ih =>
    intro later hlater outcome hallowed
    obtain ⟨hguarantee, hnext⟩ := hfirst later hlater outcome hallowed
    exact ⟨hguarantee, ih _ hnext⟩

/-- A `try`/`catch` is safe when its body is, and its handler is safe on what the body throws. -/
theorem Safe.catching (caught : Err → World → Prop) {program : Program Call Reply Err α}
    {handler : Err → Program Call Reply Err α} {world : World}
    (hbody : program.Safe discipline post caught world)
    (hhandler : ∀ error world, caught error world →
      (handler error).Safe discipline post thrown world) :
    (program.catching handler).Safe discipline post thrown world := by
  induction program generalizing world with
  | done value => exact hbody
  | failed error => exact hhandler _ _ (hbody world (discipline.rely_refl world))
  | await call next ih =>
    intro later hlater outcome hallowed
    obtain ⟨hguarantee, hnext⟩ := hbody later hlater outcome hallowed
    exact ⟨hguarantee, ih _ hnext⟩

/-- One call is safe when every allowed outcome of it satisfies the guarantee and establishes a
stable postcondition of its reply. -/
theorem Safe.request {call : Call} {post : Reply call → World → Prop} {world : World}
    (hstable : ∀ reply world later, discipline.rely world later → post reply world →
      post reply later)
    (hstep : ∀ later, discipline.rely world later → ∀ outcome,
      discipline.allowed call outcome later →
        discipline.guarantee later (machine.answer call outcome later).2 ∧
          post (machine.answer call outcome later).1 (machine.answer call outcome later).2) :
    (request call : Program Call Reply Err (Reply call)).Safe discipline post thrown world := by
  intro later hlater outcome hallowed
  obtain ⟨hguarantee, hpost⟩ := hstep later hlater outcome hallowed
  exact ⟨hguarantee, fun last hlast ↦ hstable _ _ _ hlast hpost⟩

/-- Throwing the error of a reply. -/
theorem Safe.orThrow {reply : Except Err α} {world : World}
    (hok : ∀ value, reply = .ok value → ∀ later, discipline.rely world later → post value later)
    (herror : ∀ error, reply = .error error → ∀ later, discipline.rely world later →
      thrown error later) :
    (orThrow reply : Program Call Reply Err α).Safe discipline post thrown world := by
  cases reply with
  | ok value => exact hok value rfl
  | error error => exact herror error rfl

/-- A loop over a list is safe when a stable invariant of the accumulator makes each round safe
and is re-established by it. -/
theorem Safe.foldlM (invariant : β → World → Prop) {items : List α}
    {body : β → α → Program Call Reply Err β}
    (hstable : ∀ total world later, discipline.rely world later → invariant total world →
      invariant total later)
    (hbody : ∀ total, ∀ item ∈ items, ∀ world, invariant total world →
      (body total item).Safe discipline invariant thrown world)
    {total : β} {world : World} (hstart : invariant total world) :
    (items.foldlM body total).Safe discipline invariant thrown world := by
  induction items generalizing total world with
  | nil => exact fun later hlater ↦ hstable _ _ _ hlater hstart
  | cons item rest ih =>
    rw [List.foldlM_cons]
    refine Safe.bind (hbody total item List.mem_cons_self world hstart) ?_
    intro value reached hreached
    exact ih (fun total next hnext ↦ hbody total next (List.mem_cons_of_mem _ hnext)) hreached

/-- Running the synchronous calls at the head of a program keeps it safe and keeps the guarantee of
the step before them. -/
theorem Safe.settle {program : Program Call Reply Err α} {before world : World}
    (hsafe : program.Safe discipline post thrown world)
    (hguarantee : discipline.guarantee before world) :
    (machine.settle program world).1.Safe discipline post thrown (machine.settle program world).2 ∧
      discipline.guarantee before (machine.settle program world).2 := by
  induction program generalizing world with
  | done value => exact ⟨hsafe, hguarantee⟩
  | failed error => exact ⟨hsafe, hguarantee⟩
  | await call next ih =>
    by_cases hsynchronous : machine.synchronous call
    · have hsettle : machine.settle (await call next) world =
          machine.settle (next (machine.answer call machine.calm world).1)
            (machine.answer call machine.calm world).2 := by
        simp only [Machine.settle, Program.settle, hsynchronous, if_true]
      rw [hsettle]
      exact ih _ (hsafe world (discipline.rely_refl world) _
        (discipline.allowed_calm hsynchronous)).2
        (discipline.guarantee_synchronous hsynchronous hguarantee)
    · have hsettle : machine.settle (await call next) world = (await call next, world) := by
        simp only [Machine.settle, Program.settle, hsynchronous, if_false, Bool.false_eq_true]
      rw [hsettle]
      exact ⟨hsafe, hguarantee⟩

/-- Running the synchronous calls at the head of a program keeps it safe, and stays within what the
others rely on. -/
theorem Safe.settle_rely {program : Program Call Reply Err α} {world : World}
    (hsafe : program.Safe discipline post thrown world) :
    (machine.settle program world).1.Safe discipline post thrown (machine.settle program world).2 ∧
      discipline.rely world (machine.settle program world).2 := by
  cases program with
  | done value => exact ⟨hsafe, discipline.rely_refl world⟩
  | failed error => exact ⟨hsafe, discipline.rely_refl world⟩
  | await call next =>
    by_cases hsynchronous : machine.synchronous call
    · have hsettle : machine.settle (await call next) world =
          machine.settle (next (machine.answer call machine.calm world).1)
            (machine.answer call machine.calm world).2 := by
        simp only [Machine.settle, Program.settle, hsynchronous, if_true]
      obtain ⟨hguarantee, hnext⟩ := hsafe world (discipline.rely_refl world) _
        (discipline.allowed_calm hsynchronous)
      obtain ⟨hsettled, hstep⟩ := Safe.settle hnext hguarantee
      rw [hsettle]
      exact ⟨hsettled, discipline.rely_of_guarantee hstep⟩
    · have hsettle : machine.settle (await call next) world = (await call next, world) := by
        simp only [Machine.settle, Program.settle, hsynchronous, if_false, Bool.false_eq_true]
      rw [hsettle]
      exact ⟨hsafe, discipline.rely_refl world⟩

/-- One awaited call of a safe program, with an allowed outcome, leaves it safe and satisfies the
guarantee. -/
theorem Safe.resume {call : Call} {next : Reply call → Program Call Reply Err α} {world : World}
    {outcome : Outcome} (hsafe : (await call next).Safe discipline post thrown world)
    (hallowed : discipline.allowed call outcome world) :
    (machine.resume outcome (await call next) world).1.Safe discipline post thrown
        (machine.resume outcome (await call next) world).2 ∧
      discipline.guarantee world (machine.resume outcome (await call next) world).2 := by
  obtain ⟨hguarantee, hnext⟩ := hsafe world (discipline.rely_refl world) outcome hallowed
  exact Safe.settle hnext hguarantee

end Program

/-! ### Runs -/

section Runs

variable {machine : Machine Call Reply World Outcome Event} (discipline : Discipline machine)

/-- Every program in flight is safe, whatever it returns or throws. -/
def System.Safe (system : System Call Reply Err World Tag) : Prop :=
  ∀ thread ∈ system.threads,
    thread.2.Safe discipline (fun _ _ ↦ True) (fun _ _ ↦ True) system.world

/-- Legal moves start safe programs, choose allowed outcomes, and crash or change the world only
within what the programs rely on. -/
structure Respects (legal : System Call Reply Err World Tag →
    Move Call Reply Err Outcome Event Tag → Prop)
    (initial : System Call Reply Err World Tag) : Prop where
  initial_safe : initial.Safe discipline
  start_safe : ∀ {system tag program}, Reaches machine.move legal initial system →
    discipline.rely initial.world system.world → legal system (.start tag program) →
      program.Safe discipline (fun _ _ ↦ True) (fun _ _ ↦ True) system.world
  advance_allowed : ∀ {system thread outcome tag call next},
    legal system (.advance thread outcome) →
    system.threads[thread]? = some (tag, .await call next) →
      discipline.allowed call outcome system.world
  crash_rely : ∀ {system}, legal system .crash →
    discipline.rely system.world (machine.restart system.world)
  environment_rely : ∀ {system event}, legal system (.environment event) →
    discipline.rely system.world (machine.react event system.world)

variable {discipline} {legal : System Call Reply Err World Tag →
    Move Call Reply Err Outcome Event Tag → Prop} {initial : System Call Reply Err World Tag}

/-- A system that changed only as its programs rely on stays safe. -/
theorem System.Safe.rely {system : System Call Reply Err World Tag} {later : World}
    (hsafe : system.Safe discipline) (hrely : discipline.rely system.world later) :
    ∀ thread ∈ system.threads, thread.2.Safe discipline (fun _ _ ↦ True) (fun _ _ ↦ True) later :=
  fun thread hthread ↦ (hsafe thread hthread).rely hrely

/-- What an advancing thread does: nothing when it is over, and otherwise one guaranteed step that
leaves it safe. -/
theorem System.Safe.resume {system : System Call Reply Err World Tag} {thread : ℕ}
    (outcome : Outcome) {tag : Tag} {program : Program Call Reply Err Unit}
    (hsafe : system.Safe discipline) (hthread : system.threads[thread]? = some (tag, program))
    (hallowed : ∀ call next, program = .await call next →
      discipline.allowed call outcome system.world) :
    (machine.resume outcome program system.world).1.Safe discipline (fun _ _ ↦ True)
        (fun _ _ ↦ True) (machine.resume outcome program system.world).2 ∧
      ((machine.resume outcome program system.world).2 = system.world ∨
        discipline.guarantee system.world (machine.resume outcome program system.world).2) := by
  have hprogram := hsafe _ (List.mem_of_getElem? hthread)
  cases program with
  | done value => exact ⟨hprogram, Or.inl rfl⟩
  | failed error => exact ⟨hprogram, Or.inl rfl⟩
  | await call next =>
    obtain ⟨hresumed, hguarantee⟩ := hprogram.resume (hallowed call next rfl)
    exact ⟨hresumed, Or.inr hguarantee⟩

/-- Starting a safe program keeps a system safe. -/
theorem System.Safe.start {system : System Call Reply Err World Tag}
    (hsafe : system.Safe discipline) {tag : Tag} {program : Program Call Reply Err Unit}
    (hprogram : program.Safe discipline (fun _ _ ↦ True) (fun _ _ ↦ True) system.world) :
    (machine.move system (.start tag program)).Safe discipline ∧
      discipline.rely system.world (machine.move system (.start tag program)).world := by
  obtain ⟨hsettled, hstep⟩ := hprogram.settle_rely
  refine ⟨fun thread hthread ↦ ?_, hstep⟩
  rcases List.mem_append.mp hthread with hold | hnew
  · exact hsafe.rely hstep thread hold
  · rw [List.mem_singleton.mp hnew]
    exact hsettled

/-- An allowed call of a program in flight keeps a system safe. -/
theorem System.Safe.advance {system : System Call Reply Err World Tag}
    (hsafe : system.Safe discipline) {thread : ℕ} {outcome : Outcome}
    (hallowed : ∀ tag call next, system.threads[thread]? = some (tag, .await call next) →
      discipline.allowed call outcome system.world) :
    (machine.move system (.advance thread outcome)).Safe discipline ∧
      discipline.rely system.world (machine.move system (.advance thread outcome)).world := by
  cases hthread : system.threads[thread]? with
  | none =>
    have hmove : machine.move system (.advance thread outcome) = system := by
      simp only [Machine.move, hthread]
    rw [hmove]
    exact ⟨hsafe, discipline.rely_refl _⟩
  | some entry =>
    obtain ⟨tag, program⟩ := entry
    have hmove : machine.move system (.advance thread outcome) =
        { threads := system.threads.set thread
            (tag, (machine.resume outcome program system.world).1)
          world := (machine.resume outcome program system.world).2 } := by
      simp only [Machine.move, hthread]
    obtain ⟨hresumed, hchange⟩ := hsafe.resume outcome hthread
      fun call next hprogram ↦ hallowed tag call next (hprogram ▸ hthread)
    have hstep : discipline.rely system.world
        (machine.resume outcome program system.world).2 := by
      rcases hchange with hsame | hguarantee
      · rw [hsame]
        exact discipline.rely_refl _
      · exact discipline.rely_of_guarantee hguarantee
    rw [hmove]
    refine ⟨fun other hother ↦ ?_, hstep⟩
    rcases List.mem_or_eq_of_mem_set hother with hold | hnew
    · exact hsafe.rely hstep other hold
    · rw [hnew]
      exact hresumed

/-- A crash leaves no program in flight. -/
theorem System.Safe.crash (system : System Call Reply Err World Tag) :
    (machine.move system (.crash : Move Call Reply Err Outcome Event Tag)).Safe discipline :=
  fun _ hthread ↦ absurd hthread List.not_mem_nil

/-- An allowed call of a safe program changes nothing or is a guaranteed step. -/
theorem System.Safe.advance_guarantee {system : System Call Reply Err World Tag}
    (hsafe : system.Safe discipline) {thread : ℕ} {outcome : Outcome}
    (hallowed : ∀ tag call next, system.threads[thread]? = some (tag, .await call next) →
      discipline.allowed call outcome system.world) :
    (machine.move system (.advance thread outcome)).world = system.world ∨
      discipline.guarantee system.world
        (machine.move system (.advance thread outcome)).world := by
  cases hthread : system.threads[thread]? with
  | none =>
    left
    simp only [Machine.move, hthread]
  | some entry =>
    obtain ⟨tag, program⟩ := entry
    have hmove : (machine.move system (.advance thread outcome)).world =
        (machine.resume outcome program system.world).2 := by
      simp only [Machine.move, hthread]
    rw [hmove]
    exact (hsafe.resume outcome hthread
      fun call next hprogram ↦ hallowed tag call next (hprogram ▸ hthread)).2

/-- Every reachable system is safe, and the world has changed only as programs rely on. -/
theorem Reaches.safe (hrespects : Respects discipline legal initial)
    {system : System Call Reply Err World Tag}
    (hreached : Reaches machine.move legal initial system) :
    system.Safe discipline ∧ discipline.rely initial.world system.world := by
  induction hreached with
  | refl => exact ⟨hrespects.initial_safe, discipline.rely_refl _⟩
  | @step system move hbefore hlegal ih =>
    obtain ⟨hsafe, hrely⟩ := ih
    have hmove : (machine.move system move).Safe discipline ∧
        discipline.rely system.world (machine.move system move).world := by
      cases move with
      | start tag program => exact hsafe.start (hrespects.start_safe hbefore hrely hlegal)
      | advance thread outcome =>
        exact hsafe.advance fun _ _ _ hthread ↦ hrespects.advance_allowed hlegal hthread
      | crash => exact ⟨System.Safe.crash system, hrespects.crash_rely hlegal⟩
      | environment event =>
        have hstep := hrespects.environment_rely hlegal
        exact ⟨hsafe.rely hstep, hstep⟩
    exact ⟨hmove.1, discipline.rely_trans hrely hmove.2⟩

/-- Every advance of a thread in a reachable system changes nothing or is a guaranteed step. -/
theorem Reaches.advance_guarantee (hrespects : Respects discipline legal initial)
    {system : System Call Reply Err World Tag}
    (hreached : Reaches machine.move legal initial system)
    {thread : ℕ} {outcome : Outcome} (hlegal : legal system (.advance thread outcome)) :
    (machine.move system (.advance thread outcome)).world = system.world ∨
      discipline.guarantee system.world
        (machine.move system (.advance thread outcome)).world :=
  (hreached.safe hrespects).1.advance_guarantee
    fun _ _ _ hthread ↦ hrespects.advance_allowed hlegal hthread

end Runs

end VmsLite.Async
