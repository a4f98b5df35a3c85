import VmsLite.Async.Observation
import VmsLite.Media.Footprint

/-!
# Orphan sweeps

Ticks of the scheduler that sweep orphaned paths, one at a time, while previews open and close,
cameras are provisioned, rescheduled and removed, the media server changes by itself, and any
request may fail. An observer notes what every sweep was given and listed, which previews were live
then, and which paths it asked to remove.

`sweepOrphans` runs every listed name through `decodeURIComponent`, and removing a path trims its
name. So a listed name that does not decode stops the sweep, and one that decodes or trims to
another name has that other path removed. In every run that lists plain names only (`PlainNames`)
sweeps are safe and thorough (`sweepsSafe_of_plainNames`).
-/

set_option autoImplicit false

namespace VmsLite.Media

open VmsLite.Async VmsLite.Schedule Program
open Recordings (CameraId RecordingMode)

/-! ### What an observer sees -/

/-- Who makes a call. -/
inductive Party
  | tick | request
  deriving DecidableEq, Repr

/-- A sweep from its listing on: the cameras it was given, the names it was listed, the previews
live then, and the paths it asked to remove. -/
structure Sweep where
  given : List CameraPaths
  listed : List String
  live : List String
  requested : List String := []

namespace Sweep

variable (sweep : Sweep)

/-- The listed paths that belong to no camera and are no live preview. -/
def orphans : List String :=
  sweep.listed.filter fun name ↦ name ∉ ownedPaths sweep.given && name ∉ sweep.live

def ask (name : String) : Sweep := { sweep with requested := sweep.requested ++ [name] }

/-- A sweep asks to remove no path of a camera, no live preview, and only what it and the sweep that
completed before it found orphaned. -/
structure Safe (earlier : Option Sweep) : Prop where
  spares_cameras : ∀ name ∈ sweep.requested, name ∉ ownedPaths sweep.given
  spares_previews : ∀ name ∈ sweep.requested, name ∉ sweep.live
  listed_twice : ∀ name ∈ sweep.requested, name ∈ sweep.orphans ∧
    ∃ last, earlier = some last ∧ name ∈ last.orphans

/-- A sweep asks to remove every path that it and the sweep before found orphaned, unless the one
before has asked already. -/
def Thorough (earlier : Option Sweep) : Prop :=
  ∀ last, earlier = some last → ∀ name ∈ sweep.orphans, name ∈ last.orphans →
    name ∉ last.requested → name ∈ sweep.requested

end Sweep

/-- What the observer remembers. -/
structure Watch where
  /-- The cameras in the database when the tick read its list of cameras. -/
  given : List CameraPaths := []
  /-- The sweep under way. -/
  current : Option Sweep := none
  /-- The sweeps that completed, last one first. -/
  completed : List Sweep := []

def observe : Party → (call : Call) → Reply call → World → Watch → Watch
  | .tick, .listAllCameras, _, world, watch =>
    { watch with given := world.cameras.map fun camera ↦ camera.toCameraPaths }
  | .tick, .listConfigs, .ok listed, world, watch =>
    { watch with current := some { given := watch.given, listed, live := world.livePreviews } }
  | .tick, .deletePath name, _, _, watch =>
    { watch with
      current := some ((watch.current.getD { given := [], listed := [], live := [] }).ask name) }
  | .tick, .setOrphanCandidates _, _, _, watch =>
    { watch with current := none, completed := watch.current.toList ++ watch.completed }
  | _, _, _, _, watch => watch

abbrev watchedMachine : Machine (Party × Call) (fun call ↦ Reply call.2) (World × Watch) Outcome
    EnvironmentChange :=
  machine.watched observe

abbrev SweepSystem : Type :=
  System (Party × Call) (fun call ↦ Reply call.2) Failure (World × Watch) Unit

/-! ### Runs -/

/-- The programs that run beside the ticks; the timer of a preview is a `closePreview`. -/
inductive RequestProgram : Async Unit → Prop
  | openPreview (bytes : List UInt8) (rtspUrl : String) :
    RequestProgram ((openPreview bytes rtspUrl).bind fun _ ↦ done ())
  | closePreview (pathName : String) : RequestProgram (closePreview pathName)
  | provisionCamera (id : CameraId) (name rtspUrl : String) (subStreamUrl : Option String)
    (byte0 byte1 byte2 : UInt8) :
    RequestProgram (provisionCamera id name rtspUrl subStreamUrl byte0 byte1 byte2)
  | removeCamera (id : CameraId) : RequestProgram (removeCamera id)
  | setCameraSchedule (cameraId : CameraId) (schedule : CameraScheduleConfig) :
    RequestProgram ((setCameraSchedule cameraId schedule).bind fun _ ↦ done ())

/-- A name that is its own decoding and has no blanks at its ends. -/
def IsPlain (name : String) : Prop :=
  decodeURIComponent name.toList = some name.toList ∧ cleanName name = name

/-- The media server lists plain names. -/
def PlainNames (world : World) : Prop := ∀ name ∈ (world.paths.map Prod.fst).take 1000, IsPlain name

/-- No tick is in flight. -/
def NoTick (system : SweepSystem) : Prop := ∀ thread ∈ system.threads, ¬ thread.2.Awaits Party.tick

/-- The moves of a run; what a tick is listed meets a condition. -/
inductive SweepMove (condition : World → Prop) (system : SweepSystem) :
    Move (Party × Call) (fun call ↦ Reply call.2) Failure Outcome EnvironmentChange Unit → Prop
  | tick (date : LocalTime) (hsingle : NoTick system) :
    SweepMove condition system (.start () ((evaluateAllCameras date).labelled .tick))
  | request {program : Async Unit} (hprogram : RequestProgram program) :
    SweepMove condition system (.start () (program.labelled .request))
  | advance (thread : ℕ) (outcome : Outcome)
    (hlisting : ∀ next, system.threads[thread]? = some ((), .await (.tick, .listConfigs) next) →
      condition system.world.1) :
    SweepMove condition system (.advance thread outcome)
  | environment (event : EnvironmentChange) : SweepMove condition system (.environment event)

/-- Every sweep under way or completed is safe, the completed ones are thorough, and without a tick
in flight no sweep is under way: each one that got its listing completed. -/
structure SweepsSafe (system : SweepSystem) : Prop where
  current : ∀ sweep, system.world.2.current = some sweep →
    sweep.Safe system.world.2.completed.head?
  completed : ∀ later sweep earlier, system.world.2.completed = later ++ sweep :: earlier →
    sweep.Safe earlier.head? ∧ sweep.Thorough earlier.head?
  completes : NoTick system → system.world.2.current = none

/-- A run from a fresh process, as far as it has come. -/
structure SweepRun (condition : World → Prop) where
  world : World
  system : SweepSystem
  fresh : world.orphanCandidates = []
  reached : Reaches watchedMachine.move (SweepMove condition)
    { threads := [], world := (world, {}) } system

/-! ### The typestate of a tick -/

/-- Where a thread is: a request, or a tick that has yet to read its cameras, evaluates them, has
its listing, or sweeps; with what it was told so far and the orphans of the sweep before. -/
inductive SweepState
  | request
  | finished
  | starting (candidates : List String)
  | evaluating (given : List CameraPaths) (candidates : List String)
  | listed (given : List CameraPaths) (names candidates : List String)
  | sweeping (sweep : Sweep) (candidates : List String)

def SweepState.IsTicking : SweepState → Prop
  | .request | .finished => False
  | _ => True

def tickPermits (state : SweepState) (call : Call) : Prop :=
  match state with
  | .request | .finished => False
  | .starting _ => call = .listAllCameras
  | .evaluating .. => call.evaluates = true ∨ call = .listConfigs
  | .listed .. => call = .getLivePreviews
  | .sweeping sweep candidates =>
    call = .getOrphanCandidates ∨
      (∃ name ∈ sweep.orphans, name ∈ candidates ∧ call = .deletePath name) ∨
      call = .setOrphanCandidates (sweep.orphans.filter (· ∉ sweep.requested)) ∧
        ∀ name ∈ sweep.orphans, name ∈ candidates → name ∈ sweep.requested

def tickExpects : SweepState → (call : Call) → Reply call → Prop
  | .evaluating .., .listConfigs, reply => ∀ names, reply = .ok names → ∀ name ∈ names, IsPlain name
  | .sweeping _ candidates, .getOrphanCandidates, reply => reply = candidates
  | _, _, _ => True

def tickStep : SweepState → (call : Call) → Reply call → SweepState
  | .starting candidates, .listAllCameras, .ok cameras =>
    .evaluating (cameras.map CameraRecordSummary.toCameraPaths) candidates
  | .starting _, .listAllCameras, .error _ => .finished
  | .evaluating given candidates, .listConfigs, .ok names => .listed given names candidates
  | .evaluating .., .listConfigs, .error _ => .finished
  | .listed given names candidates, .getLivePreviews, live =>
    .sweeping { given, listed := names, live } candidates
  | .sweeping sweep candidates, .deletePath name, _ => .sweeping (sweep.ask name) candidates
  | .sweeping .., .setOrphanCandidates _, _ => .finished
  | state, _, _ => state

/-- The typestate of a tick. -/
def tickState : Typestate Call Reply SweepState where
  permits := tickPermits
  expects := tickExpects
  step := tickStep

/-- The typestate of ticks and requests; a request makes no call of a sweep. -/
def sweepState : Typestate (Party × Call) (fun call ↦ Reply call.2) SweepState where
  permits := fun state call ↦
    state = .request ∧ call.1 = .request ∧ OutsideSweeps call.2 ∨
      call.1 = .tick ∧ tickPermits state call.2
  expects := fun state call reply ↦ tickExpects state call.2 reply
  step := fun state call reply ↦ tickStep state call.2 reply

def SweepState.Ends (state : SweepState) : Prop := ¬ state.IsTicking

theorem tickStep_evaluating {call : Call} (hcall : call.evaluates = true)
    (given : List CameraPaths) (candidates : List String) (reply : Reply call) :
    tickStep (.evaluating given candidates) call reply = .evaluating given candidates := by
  cases call <;> first | rfl | cases hcall

theorem tickStep_request (call : Call) (reply : Reply call) :
    tickStep .request call reply = .request := by
  cases call <;> rfl

/-! ### Ticks follow it -/

section Ticks

variable {sweep : Sweep} {candidates : List String}

/-- Where errors are ignored, a program ends as it does with them, and throws nothing. -/
theorem ignoringErrors_follows {program : Async Unit} {kept : SweepState → Prop}
    {state : SweepState}
    (hprogram : program.Follows tickState (fun _ ↦ kept) (fun _ ↦ kept) state) :
    (ignoringErrors program).Follows tickState (fun _ ↦ kept) (fun _ _ ↦ False) state := by
  refine hprogram.catching _ ?_
  intro _ state hkept
  exact hkept

/-- Removing a plain orphan that was one before. -/
theorem removePath_follows {name : String} (hplain : cleanName name = name)
    (horphan : name ∈ sweep.orphans) (hcandidate : name ∈ candidates) :
    (ignoringErrors (removePath name)).Follows tickState
      (fun _ ↦ (· = .sweeping (sweep.ask name) candidates)) (fun _ _ ↦ False)
      (.sweeping sweep candidates) := by
  refine ignoringErrors_follows ?_
  unfold removePath
  rw [hplain]
  refine ⟨Or.inr (Or.inl ⟨name, horphan, hcandidate, rfl⟩), fun reply _ ↦ ?_⟩
  exact Follows.orThrow (fun _ _ ↦ rfl) fun _ _ ↦ rfl

theorem sweepOrphan_follows (removed : List String) {name : String} (hplain : cleanName name = name)
    (horphan : name ∈ sweep.orphans) (hremoved : sweep.requested = removed) :
    (sweepOrphan removed name).Follows tickState
      (fun total state ↦ ∃ later, state = .sweeping later candidates ∧
        later = { sweep with requested := total } ∧ removed ⊆ total ∧
          (name ∈ candidates → name ∈ total))
      (fun _ _ ↦ False) (.sweeping sweep candidates) := by
  refine ⟨Or.inl rfl, fun reply hreply ↦ ?_⟩
  obtain rfl : reply = candidates := hreply
  show ((if name ∈ reply then _ else _ : Async (List String))).Follows _ _ _ _
  split_ifs with hcandidate
  · refine (removePath_follows hplain horphan hcandidate).bind fun _ state hstate ↦ ?_
    obtain rfl := hstate
    refine ⟨_, rfl, ?_, List.subset_append_left _ _, fun _ ↦ by simp⟩
    rw [Sweep.ask, hremoved]
  · refine ⟨_, rfl, ?_, List.Subset.refl _, fun h ↦ absurd h hcandidate⟩
    rw [← hremoved]

/-- The loop over the orphans asks for every one of them that was one before. -/
theorem sweepOrphan_loop {items : List String} {removed : List String}
    (hplain : ∀ name ∈ items, cleanName name = name) (horphans : ∀ name ∈ items, name ∈
      sweep.orphans)
    (hremoved : sweep.requested = removed) :
    (items.foldlM sweepOrphan removed).Follows tickState
      (fun total state ↦ state = .sweeping { sweep with requested := total } candidates ∧
        removed ⊆ total ∧ ∀ name ∈ items, name ∈ candidates → name ∈ total)
      (fun _ _ ↦ False) (.sweeping sweep candidates) := by
  induction items generalizing sweep removed with
  | nil =>
    refine ⟨?_, List.Subset.refl _, fun name hnone ↦ absurd hnone List.not_mem_nil⟩
    rw [← hremoved]
  | cons name rest ih =>
    obtain ⟨hplainName, hplainRest⟩ := List.forall_mem_cons.mp hplain
    obtain ⟨horphan, horphanRest⟩ := List.forall_mem_cons.mp horphans
    rw [List.foldlM_cons]
    refine (sweepOrphan_follows removed hplainName horphan hremoved).bind fun total state hround ↦
      ?_
    obtain ⟨later, rfl, rfl, hsubset, hasked⟩ := hround
    have hrest := @ih { sweep with requested := total } total hplainRest horphanRest rfl
    refine hrest.mono (fun last state hrest ↦ ?_) fun _ _ hfalse ↦ hfalse
    obtain ⟨hstate, hkept, hall⟩ := hrest
    refine ⟨hstate, List.Subset.trans hsubset hkept, fun other hother hcandidate ↦ ?_⟩
    rcases List.mem_cons.mp hother with rfl | hother
    · exact hkept (hasked hcandidate)
    · exact hall other hother hcandidate

theorem decodeNames_of_isPlain {names : List String} (hplain : ∀ name ∈ names, IsPlain name) :
    decodeNames names = some names := by
  unfold decodeNames
  induction names with
  | nil => rfl
  | cons name rest ih =>
    obtain ⟨hname, hrest⟩ := List.forall_mem_cons.mp hplain
    rw [List.mapM_cons, ih hrest, hname.1]
    simp

theorem sweepOrphans_follows (given : List CameraPaths) :
    (sweepOrphans given).Follows tickState (fun _ ↦ SweepState.Ends) (fun _ ↦ SweepState.Ends)
      (.evaluating given candidates) := by
  refine ⟨Or.inr rfl, fun reply hreply ↦ ?_⟩
  cases reply with
  | error error => exact fun h ↦ h
  | ok names =>
    have hplain := hreply names rfl
    simp only [bind_eq, done_bind, orThrow_ok, decodeNames_of_isPlain hplain]
    refine ⟨rfl, fun live _ ↦ ?_⟩
    let sweep : Sweep := { given, listed := names, live }
    have hplainOrphans : ∀ name ∈ sweep.orphans, cleanName name = name :=
      fun name hname ↦ (hplain name (List.mem_filter.mp hname).1).2
    have hloop : (sweep.orphans.foldlM sweepOrphan []).Follows tickState _ _
        (.sweeping sweep candidates) :=
      sweepOrphan_loop hplainOrphans (fun _ hname ↦ hname) rfl
    refine (hloop.mono (fun _ _ h ↦ h) fun _ _ hfalse ↦ hfalse.elim).bind fun removed state hloop ↦
      ?_
    obtain ⟨rfl, -, hall⟩ := hloop
    exact ⟨Or.inr (Or.inr ⟨rfl, hall⟩), fun _ _ ↦ fun h ↦ h⟩

theorem evaluateCaught_follows (date : LocalTime) (camera : CameraRecordSummary)
    (given : List CameraPaths) :
    (evaluateCaught date camera).Follows tickState (fun _ ↦ (· = .evaluating given candidates))
      (fun _ _ ↦ False) (.evaluating given candidates) := by
  have huses : ((evaluateCamera camera date).bind fun _ ↦ (done () : Async Unit)).Uses
      (Call.evaluates · = true) :=
    (evaluateCamera_uses camera date).bind fun _ ↦ trivial
  refine ignoringErrors_follows (Follows.of_uses _ huses (fun call state hcall hstate ↦ ?_) rfl)
  obtain rfl := hstate
  exact ⟨Or.inl hcall, fun reply _ ↦ tickStep_evaluating hcall _ _ reply⟩

theorem evaluateAllCameras_follows (date : LocalTime) :
    (evaluateAllCameras date).Follows tickState (fun _ ↦ SweepState.Ends) (fun _ ↦ SweepState.Ends)
      (.starting candidates) := by
  refine ⟨rfl, fun reply _ ↦ ?_⟩
  cases reply with
  | error error => exact fun h ↦ h
  | ok cameras =>
    let given := cameras.map CameraRecordSummary.toCameraPaths
    have hround : ∀ (total : Unit), ∀ camera ∈ cameras, ∀ state,
        state = .evaluating given candidates → (evaluateCaught date camera).Follows tickState
          (fun _ ↦ (· = .evaluating given candidates)) (fun _ ↦ SweepState.Ends) state := by
      intro _ camera _ state hstate
      obtain rfl := hstate
      exact (evaluateCaught_follows date camera given).mono (fun _ _ h ↦ h) fun _ _ h ↦ h.elim
    refine (Follows.foldlM _ hround rfl).bind fun _ state hstate ↦ ?_
    obtain rfl := hstate
    have hsweep : ((sweepOrphans given).bind fun _ ↦ (done () : Async Unit)).Follows tickState
        (fun _ ↦ SweepState.Ends) (fun _ ↦ SweepState.Ends) (.evaluating given candidates) :=
      (sweepOrphans_follows given).bind fun _ _ hends ↦ hends
    exact (ignoringErrors_follows hsweep).mono (fun _ _ h ↦ h) fun _ _ h ↦ h.elim

end Ticks

/-! ### The world agrees with a tick's state -/

/-- What a sweep leaves to the next one: the orphans it has not asked to remove. -/
def leftover : List Sweep → List String
  | [] => []
  | last :: _ => last.orphans.filter (· ∉ last.requested)

/-- The observer has seen what the tick knows. -/
def SweepState.Mirrors (state : SweepState) (world : World × Watch) : Prop :=
  match state with
  | .request | .finished => world.2.current = none
  | .starting candidates => world.2.current = none ∧ world.1.orphanCandidates = candidates
  | .evaluating given candidates =>
    (world.2.current = none ∧ world.2.given = given) ∧ world.1.orphanCandidates = candidates
  | .listed given names candidates =>
    world.2.current = some { given, listed := names, live := world.1.livePreviews } ∧
      world.1.orphanCandidates = candidates
  | .sweeping sweep candidates =>
    world.2.current = some sweep ∧ world.1.orphanCandidates = candidates

structure Agreed (world : World × Watch) (state : SweepState) : Prop where
  mirrors : state.Mirrors world
  memory : world.1.orphanCandidates = leftover world.2.completed
  current : ∀ sweep, world.2.current = some sweep → sweep.Safe world.2.completed.head?
  completed : ∀ later sweep earlier, world.2.completed = later ++ sweep :: earlier →
    sweep.Safe earlier.head? ∧ sweep.Thorough earlier.head?

section Answers

variable {call : Call} (outcome : Outcome) (world : World)

/-- Only a sweep writes its memory. -/
theorem orphanCandidates_answer (hcall : OutsideSweeps call) :
    (answer call outcome world).2.orphanCandidates = world.orphanCandidates := by
  refine read_answer World.orphanCandidates outcome ?_
  cases call with
  | patchRecord name record => exact read_effect_patchRecord _ _ _ fun _ ↦ rfl
  | setOrphanCandidates names => cases hcall
  | _ => rfl

theorem observe_request (reply : Reply call) (watch : Watch) :
    observe .request call reply world watch = watch := by
  cases call <;> rfl

theorem watch_request (call : Call) (outcome : Outcome) (world : World × Watch) :
    (watchedMachine.answer (.request, call) outcome world).2.2 = world.2 := by
  show observe .request call (answer call outcome world.1).1 world.1 world.2 = world.2
  exact observe_request world.1 _ _

theorem observe_evaluates (hcall : call.evaluates = true) (reply : Reply call) (watch : Watch) :
    observe .tick call reply world watch = watch := by
  cases call <;> first | rfl | cases hcall

end Answers

/-- A call outside the sweeps that the observer does not note keeps the agreement with every state
that does not wait for the live previews. -/
theorem Agreed.outside {state : SweepState} {world : World × Watch} (hagreed : Agreed world state)
    {party : Party} {call : Call} {outcome : Outcome} (hcall : OutsideSweeps call)
    (hwatch : (watchedMachine.answer (party, call) outcome world).2.2 = world.2)
    (hstate : ∀ given names candidates, state ≠ .listed given names candidates) :
    Agreed (watchedMachine.answer (party, call) outcome world).2 state := by
  have hmemory : (watchedMachine.answer (party, call) outcome world).2.1.orphanCandidates =
      world.1.orphanCandidates := orphanCandidates_answer outcome world.1 hcall
  refine ⟨?_, by rw [hmemory, hwatch]; exact hagreed.memory, by rw [hwatch]; exact hagreed.current,
    by rw [hwatch]; exact hagreed.completed⟩
  have hmirrors := hagreed.mirrors
  cases state with
  | listed given names candidates => exact absurd rfl (hstate given names candidates)
  | _ => simpa only [SweepState.Mirrors, hwatch, hmemory] using hmirrors

/-- Asking for an orphan that the sweep before left behind keeps a sweep safe. -/
theorem Sweep.Safe.ask {sweep : Sweep} {completed : List Sweep} (hsafe : sweep.Safe completed.head?)
    {name : String} (horphan : name ∈ sweep.orphans) (hleft : name ∈ leftover completed) :
    (sweep.ask name).Safe completed.head? := by
  obtain ⟨hlisted, hfree⟩ := List.mem_filter.mp horphan
  obtain ⟨hnoCamera, hnoPreview⟩ := (Bool.and_eq_true ..).mp hfree
  have hlast : ∃ last, completed.head? = some last ∧ name ∈ last.orphans := by
    cases completed with
    | nil => cases hleft
    | cons last rest => exact ⟨last, rfl, (List.mem_filter.mp hleft).1⟩
  have hasked : ∀ other ∈ (sweep.ask name).requested, other ∈ sweep.requested ∨ other = name :=
    fun other hother ↦ (List.mem_append.mp hother).imp_right List.mem_singleton.mp
  refine ⟨fun other hother ↦ ?_, fun other hother ↦ ?_, fun other hother ↦ ?_⟩
  · rcases hasked other hother with hold | rfl
    · exact hsafe.spares_cameras other hold
    · exact of_decide_eq_true hnoCamera
  · rcases hasked other hother with hold | rfl
    · exact hsafe.spares_previews other hold
    · exact of_decide_eq_true hnoPreview
  · rcases hasked other hother with hold | rfl
    · exact hsafe.listed_twice other hold
    · exact ⟨horphan, hlast⟩

/-- What a tick may call it is answered as expected, and the world agrees with its next state. -/
theorem agreed_tick {state : SweepState} {world : World × Watch} {call : Call} {outcome : Outcome}
    (hlisting : call = .listConfigs → PlainNames world.1) (hpermits : tickPermits state call)
    (hagreed : Agreed world state) :
    tickExpects state call (watchedMachine.answer (.tick, call) outcome world).1 ∧
      Agreed (watchedMachine.answer (.tick, call) outcome world).2
        (tickStep state call (watchedMachine.answer (.tick, call) outcome world).1) := by
  obtain ⟨hmirrors, hmemory, hcurrent, hcompleted⟩ := hagreed
  cases state with
  | request => exact hpermits.elim
  | finished => exact hpermits.elim
  | starting candidates =>
    obtain rfl := hpermits
    obtain ⟨hnone, hcandidates⟩ := hmirrors
    refine ⟨trivial, ?_⟩
    cases outcome with
    | fail error applied => exact ⟨hnone, hmemory, hcurrent, hcompleted⟩
    | ok =>
      refine ⟨⟨⟨hnone, ?_⟩, hcandidates⟩, hmemory, hcurrent, hcompleted⟩
      show world.1.cameras.map _ = (world.1.cameras.map _).map _
      rw [List.map_map]
      rfl
  | evaluating given candidates =>
    rcases hpermits with hevaluates | rfl
    · have hagreed : Agreed world (.evaluating given candidates) :=
        ⟨hmirrors, hmemory, hcurrent, hcompleted⟩
      rw [tickStep_evaluating hevaluates]
      refine ⟨?_, hagreed.outside (outsideSweeps_of_evaluates hevaluates)
        (observe_evaluates world.1 hevaluates _ _) nofun⟩
      cases call <;> trivial
    · obtain ⟨⟨hnone, hgiven⟩, hcandidates⟩ := hmirrors
      cases outcome with
      | fail error applied =>
        exact ⟨nofun, ⟨hnone, hmemory, hcurrent, hcompleted⟩⟩
      | ok =>
        refine ⟨fun names hnames ↦ ?_, ⟨⟨?_, hcandidates⟩, hmemory, ?_, hcompleted⟩⟩
        · obtain rfl := Except.ok.inj hnames
          exact hlisting rfl
        · show some _ = some _
          rw [← hgiven]
          rfl
        · intro sweep hsweep
          obtain rfl := Option.some.inj hsweep
          exact ⟨nofun, nofun, nofun⟩
  | listed given names candidates =>
    obtain rfl := hpermits
    exact ⟨trivial, ⟨hmirrors, hmemory, hcurrent, hcompleted⟩⟩
  | sweeping sweep candidates =>
    obtain ⟨hsweep, hcandidates⟩ := hmirrors
    have hsafe := hcurrent sweep hsweep
    rcases hpermits with rfl | ⟨name, horphan, hcandidate, rfl⟩ | ⟨rfl, hall⟩
    · exact ⟨hcandidates, ⟨⟨hsweep, hcandidates⟩, hmemory, hcurrent, hcompleted⟩⟩
    · have hmemory' : (answer (.deletePath name) outcome world.1).2.orphanCandidates =
          world.1.orphanCandidates := orphanCandidates_answer outcome world.1 rfl
      have hcurrent' : (watchedMachine.answer (.tick, .deletePath name) outcome world).2.2.current =
          some (sweep.ask name) := by
        show some ((world.2.current.getD _).ask name) = _
        rw [hsweep, Option.getD_some]
      refine ⟨trivial, ⟨⟨hcurrent', hmemory'.trans hcandidates⟩, hmemory'.trans hmemory, ?_,
        hcompleted⟩⟩
      intro other hother
      obtain rfl := Option.some.inj (hcurrent'.symm.trans hother)
      exact hsafe.ask horphan (by rwa [← hmemory, hcandidates])
    · have hcompleted' : (watchedMachine.answer (.tick, .setOrphanCandidates
          (sweep.orphans.filter (· ∉ sweep.requested))) outcome world).2.2.completed =
            sweep :: world.2.completed := by
        show world.2.current.toList ++ world.2.completed = _
        rw [hsweep]
        rfl
      refine ⟨trivial, ⟨rfl, by rw [hcompleted']; rfl, nofun, ?_⟩⟩
      intro later other earlier hsplit
      rw [hcompleted'] at hsplit
      cases later with
      | nil =>
        obtain ⟨rfl, rfl⟩ := List.cons.inj hsplit
        refine ⟨hsafe, fun last hlast name horphan hbefore hnot ↦ hall name horphan ?_⟩
        rw [← hcandidates, hmemory]
        cases hrest : world.2.completed with
        | nil =>
          rw [hrest] at hlast
          cases hlast
        | cons first rest =>
          rw [hrest] at hlast
          obtain rfl := Option.some.inj hlast
          exact List.mem_filter.mpr ⟨hbefore, decide_eq_true hnot⟩
      | cons first later =>
        obtain ⟨-, hrest⟩ := List.cons.inj hsplit
        exact hcompleted later other earlier hrest

/-! ### Runs of ticks and requests -/

/-- Names are plain wherever a tick lists them. -/
def ListsPlain (call : Party × Call) (_ : Outcome) (world : World × Watch) : Prop :=
  call = (.tick, .listConfigs) → PlainNames world.1

theorem agreed_keeps : sweepState.Keeps watchedMachine ListsPlain Agreed := by
  rintro ⟨party, call⟩ outcome world state hlisting hpermits hagreed
  rcases hpermits with ⟨rfl, hparty, hcall⟩ | ⟨hparty, hcall⟩
  · obtain rfl : party = .request := hparty
    refine ⟨by cases call <;> trivial, ?_⟩
    show Agreed _ (tickStep .request call (watchedMachine.answer (.request, call) outcome world).1)
    rw [tickStep_request]
    exact hagreed.outside hcall (watch_request ..) nofun
  · obtain rfl : party = .tick := hparty
    exact agreed_tick (fun hsame ↦ hlisting (congrArg (Prod.mk Party.tick) hsame)) hcall hagreed

/-- At most one thread is a tick under way, and the world agrees with it. -/
def Alone (world : World × Watch) (states : List SweepState) : Prop :=
  (∃ thread state, states[thread]? = some state ∧ state.IsTicking ∧ Agreed world state ∧
    ∀ (other : ℕ) (found : SweepState), other ≠ thread → states[other]? = some found →
      ¬ found.IsTicking) ∨
  (∀ state ∈ states, ¬ state.IsTicking) ∧ Agreed world .finished

theorem Agreed.finished {world : World × Watch} {state : SweepState} (hagreed : Agreed world state)
    (hends : ¬ state.IsTicking) : Agreed world .finished := by
  have hnone : world.2.current = none := by
    cases state with
    | request => exact hagreed.mirrors
    | finished => exact hagreed.mirrors
    | _ => exact absurd trivial hends
  exact ⟨hnone, hagreed.memory, hagreed.current, hagreed.completed⟩

/-- A request keeps what is so of the ticks, where none of them waits for the live previews. -/
theorem alone_keeps {states : List SweepState} {resting : SweepState} (hrests : ¬ resting.IsTicking)
    (hquiet : ∀ given names candidates, SweepState.listed given names candidates ∉ states) :
    sweepState.Keeps watchedMachine ListsPlain
      fun world state ↦ state = resting ∧ Alone world states := by
  rintro ⟨party, call⟩ outcome world state - hpermits ⟨rfl, halone⟩
  rcases hpermits with ⟨rfl, hparty, hcall⟩ | ⟨-, hpermits⟩
  · obtain rfl : party = .request := hparty
    refine ⟨by cases call <;> trivial, tickStep_request call (answer call outcome world.1).1, ?_⟩
    have hwatch := watch_request call outcome world
    rcases halone with ⟨thread, state, hstate, hticks, hagreed, hothers⟩ | ⟨hnone, hagreed⟩
    · refine Or.inl ⟨thread, state, hstate, hticks, hagreed.outside hcall hwatch ?_, hothers⟩
      rintro given names candidates rfl
      exact hquiet given names candidates (List.mem_of_getElem? hstate)
    · exact Or.inr ⟨hnone, hagreed.outside hcall hwatch nofun⟩
  · cases state with
    | request => exact hpermits.elim
    | finished => exact hpermits.elim
    | _ => exact absurd trivial hrests

section Typed

variable {system : SweepSystem} {states : List SweepState}

/-- A thread in the middle of a tick waits for a call of the tick. -/
theorem awaits_of_isTicking
    (htyped : system.Typed watchedMachine sweepState SweepState.Ends states) {thread : ℕ}
    {state : SweepState} (hstate : states[thread]? = some state) (hticks : state.IsTicking) :
    (∃ program, system.threads[thread]? = some ((), program) ∧ program.Awaits Party.tick) ∧
      ∀ given names candidates, state ≠ .listed given names candidates := by
  have hbound : thread < system.threads.length :=
    htyped.length ▸ (List.getElem?_eq_some_iff.mp hstate).1
  obtain ⟨⟨tag, program⟩, hthread⟩ : ∃ entry, system.threads[thread]? = some entry :=
    ⟨_, List.getElem?_eq_getElem hbound⟩
  have hfollows := htyped.follows hstate hthread
  have hsettled := htyped.settled hthread
  cases program with
  | done value => exact absurd hticks hfollows
  | failed error => exact absurd hticks hfollows
  | await call next =>
    obtain ⟨party, call⟩ := call
    rcases hfollows.1 with ⟨rfl, -⟩ | ⟨hparty, hpermits⟩
    · exact hticks.elim
    · obtain rfl : party = .tick := hparty
      refine ⟨⟨_, hthread, call, next, rfl⟩, ?_⟩
      rintro given names candidates rfl
      obtain rfl : call = .getLivePreviews := hpermits
      cases hsettled

theorem not_listed (htyped : system.Typed watchedMachine sweepState SweepState.Ends states)
    (given : List CameraPaths) (names candidates : List String) :
    SweepState.listed given names candidates ∉ states := by
  intro hmem
  obtain ⟨thread, hstate⟩ := List.mem_iff_getElem?.mp hmem
  exact (awaits_of_isTicking htyped hstate trivial).2 given names candidates rfl

/-- Without a tick in flight no thread is in the middle of one. -/
theorem Alone.noTick (halone : Alone system.world states)
    (htyped : system.Typed watchedMachine sweepState SweepState.Ends states)
    (hnone : NoTick system) : (∀ state ∈ states, ¬ state.IsTicking) ∧
        Agreed system.world .finished := by
  rcases halone with ⟨thread, state, hstate, hticks, -, -⟩ | hnoTick
  · obtain ⟨⟨program, hthread, hawaits⟩, -⟩ := awaits_of_isTicking htyped hstate hticks
    exact absurd hawaits (hnone _ (List.mem_of_getElem? hthread))
  · exact hnoTick

end Typed

theorem lists_synchronous (call : Party × Call) (world : World × Watch)
    (hsynchronous : watchedMachine.synchronous call = true) :
    ListsPlain call watchedMachine.calm world := by
  rintro rfl
  cases hsynchronous

/-- A request makes calls of its own only. -/
theorem requestProgram_follows {program : Async Unit} (hprogram : RequestProgram program) :
    (program.labelled Party.request).Follows sweepState (fun _ ↦ SweepState.Ends)
      (fun _ ↦ SweepState.Ends) .request := by
  have huses : program.Uses OutsideSweeps := by
    cases hprogram with
    | openPreview bytes rtspUrl => exact (openPreview_uses bytes rtspUrl).bind fun _ ↦ trivial
    | closePreview pathName => exact closePreview_uses pathName
    | provisionCamera id name rtspUrl subStreamUrl byte0 byte1 byte2 =>
      exact provisionCamera_uses id name rtspUrl subStreamUrl byte0 byte1 byte2
    | removeCamera id => exact removeCamera_uses id
    | setCameraSchedule cameraId schedule =>
      exact (setCameraSchedule_uses cameraId schedule).bind fun _ ↦ trivial
  have hfollows : (program.labelled Party.request).Follows sweepState (fun _ ↦ (· = .request))
      (fun _ ↦ (· = .request)) .request := by
    refine Follows.of_uses _ (huses.labelled Party.request) (fun call state hcall hstate ↦ ?_) rfl
    obtain rfl := hstate
    exact ⟨Or.inl ⟨rfl, hcall⟩, fun reply _ ↦ tickStep_request call.2 reply⟩
  refine hfollows.mono (fun _ state hstate ↦ ?_) fun _ state hstate ↦ ?_
  · obtain rfl := hstate
    exact fun h ↦ h
  · obtain rfl := hstate
    exact fun h ↦ h

theorem evaluateAllCameras_labelled (date : LocalTime) (candidates : List String) :
    ((evaluateAllCameras date).labelled Party.tick).Follows sweepState (fun _ ↦ SweepState.Ends)
      (fun _ ↦ SweepState.Ends) (.starting candidates) :=
  Follows.labelled (fun _ _ hpermits ↦ ⟨Or.inr ⟨rfl, hpermits⟩, fun _ hexpects ↦ ⟨hexpects, rfl⟩⟩)
    (evaluateAllCameras_follows date)

/-- The world agrees with a tick as long as only the clock or the path table change. -/
theorem Agreed.react {world : World × Watch} {state : SweepState} (hagreed : Agreed world state)
    (event : EnvironmentChange) : Agreed (watchedMachine.react event world) state := by
  refine ⟨?_, ?_, hagreed.current, hagreed.completed⟩
  · have hmirrors := hagreed.mirrors
    cases event <;> cases state <;> exact hmirrors
  · have hmemory := hagreed.memory
    cases event <;> exact hmemory

theorem Alone.set {world : World × Watch} {states : List SweepState} {thread : ℕ}
    {state : SweepState} (hagreed : Agreed world state) (hbound : thread < states.length)
    (hothers : ∀ (other : ℕ) (found : SweepState), other ≠ thread → states[other]? = some found →
      ¬ found.IsTicking) : Alone world (states.set thread state) := by
  by_cases hticks : state.IsTicking
  · refine Or.inl ⟨thread, state, List.getElem?_set_self hbound, hticks, hagreed, ?_⟩
    intro other found hne hother
    rw [List.getElem?_set_ne hne.symm] at hother
    exact hothers other found hne hother
  · refine Or.inr ⟨fun other hother ↦ ?_, hagreed.finished hticks⟩
    obtain ⟨index, hindex⟩ := List.mem_iff_getElem?.mp hother
    by_cases hsame : index = thread
    · rw [hsame, List.getElem?_set_self hbound] at hindex
      rwa [← Option.some.inj hindex]
    · rw [List.getElem?_set_ne (Ne.symm hsame)] at hindex
      exact hothers index other hsame hindex

theorem alone_maintained :
    Maintains watchedMachine sweepState SweepState.Ends (SweepMove PlainNames) Alone where
  start := by
    intro system tag program states hlegal htyped halone
    cases hlegal with
    | tick date hsingle =>
      obtain ⟨hnone, hagreed⟩ := halone.noTick htyped hsingle
      refine ⟨states, .starting system.world.1.orphanCandidates, ListsPlain, Agreed, htyped,
        evaluateAllCameras_labelled date _,
        Machine.SettleCalls.of_synchronous _ lists_synchronous _ _, agreed_keeps,
        ⟨⟨hagreed.mirrors, rfl⟩, hagreed.memory, hagreed.current, hagreed.completed⟩, ?_⟩
      intro world state hagreed
      by_cases hticks : state.IsTicking
      · refine Or.inl ⟨states.length,
          state, by simp, hticks, hagreed, fun other found hne hother ↦ ?_⟩
        rcases Nat.lt_or_ge other states.length with hold | hnew
        · rw [List.getElem?_append_left hold] at hother
          exact hnone found (List.mem_of_getElem? hother)
        · rw [List.getElem?_append_right hnew, List.getElem?_singleton, if_neg (by omega)] at hother
          cases hother
      · refine Or.inr ⟨fun other hother ↦ ?_, hagreed.finished hticks⟩
        rcases List.mem_append.mp hother with hold | hnew
        · exact hnone other hold
        · rwa [List.mem_singleton.mp hnew]
    | request hprogram =>
      refine ⟨states, .request, ListsPlain, _, htyped, requestProgram_follows hprogram,
        Machine.SettleCalls.of_synchronous _ lists_synchronous _ _,
        alone_keeps (show ¬ SweepState.request.IsTicking from fun h ↦ h) (not_listed htyped),
        ⟨rfl, halone⟩, ?_⟩
      rintro world state ⟨rfl, halone⟩
      rcases halone with ⟨thread, state, hstate, hticks, hagreed, hothers⟩ | ⟨hnone, hagreed⟩
      · refine Or.inl ⟨thread, state, ?_, hticks, hagreed, fun other found hne hother ↦ ?_⟩
        · rw [List.getElem?_append_left (List.getElem?_eq_some_iff.mp hstate).1]
          exact hstate
        · rcases Nat.lt_or_ge other states.length with hold | hnew
          · rw [List.getElem?_append_left hold] at hother
            exact hothers other found hne hother
          · rw [List.getElem?_append_right hnew, List.getElem?_singleton] at hother
            split_ifs at hother
            obtain rfl := Option.some.inj hother
            exact fun h ↦ h
      · refine Or.inr ⟨fun other hother ↦ ?_, hagreed⟩
        rcases List.mem_append.mp hother with hold | hnew
        · exact hnone other hold
        · rw [List.mem_singleton.mp hnew]
          exact fun h ↦ h
  advance := by
    intro system thread outcome tag program states hlegal hthread htyped halone
    cases hlegal with
    | advance _ _ hlisting =>
      have hcalls : watchedMachine.ResumeCalls ListsPlain outcome program system.world := by
        refine Machine.ResumeCalls.of_awaited _ lists_synchronous ?_
        rintro call next rfl rfl
        exact hlisting next hthread
      have hbound : thread < states.length :=
        htyped.length ▸ (List.getElem?_eq_some_iff.mp hthread).1
      have hstate : states[thread]? = some states[thread] := List.getElem?_eq_getElem hbound
      by_cases hticks : states[thread].IsTicking
      · have hagreed : Agreed system.world states[thread] ∧
            ∀ (other : ℕ) (found : SweepState), other ≠ thread → states[other]? = some found →
              ¬ found.IsTicking := by
          rcases halone with ⟨only, state, honly, -, hagreed, hothers⟩ | ⟨hnone, -⟩
          · obtain rfl : thread = only := by
              by_contra hne
              exact hothers thread _ hne hstate hticks
            rw [Option.some.inj (hstate.symm.trans honly)]
            exact ⟨hagreed, hothers⟩
          · exact absurd hticks (hnone _ (List.getElem_mem hbound))
        refine ⟨states, ListsPlain, Agreed, htyped, hcalls, agreed_keeps, fun state hfound ↦ ?_,
          fun world state hkept ↦ Alone.set hkept hbound hagreed.2⟩
        rw [← Option.some.inj (hstate.symm.trans hfound)]
        exact hagreed.1
      · refine ⟨states, ListsPlain, _, htyped, hcalls, alone_keeps hticks (not_listed htyped),
          fun state hfound ↦ ⟨(Option.some.inj (hstate.symm.trans hfound)).symm, halone⟩, ?_⟩
        rintro world state ⟨rfl, halone⟩
        rwa [List.set_getElem_self]
  crash := nofun
  environment := by
    intro system event states hlegal htyped halone
    rcases halone with ⟨thread, state, hstate, hticks, hagreed, hothers⟩ | ⟨hnone, hagreed⟩
    · exact Or.inl ⟨thread, state, hstate, hticks, hagreed.react event, hothers⟩
    · exact Or.inr ⟨hnone, hagreed.react event⟩

/-- In every run that lists plain names only, sweeps are safe and thorough. -/
theorem sweepsSafe_of_plainNames (run : SweepRun PlainNames) : SweepsSafe run.system := by
  have hinitial : Alone (run.world, {}) [] := by
    refine Or.inr ⟨nofun, ⟨rfl, run.fresh, nofun, ?_⟩⟩
    intro later sweep earlier hsplit
    simp at hsplit
  obtain ⟨states, htyped, halone⟩ := run.reached.typed alone_maintained rfl hinitial
  obtain ⟨state, hagreed⟩ : ∃ state, Agreed run.system.world state := by
    rcases halone with ⟨-, state, -, -, hagreed, -⟩ | ⟨-, hagreed⟩
    · exact ⟨state, hagreed⟩
    · exact ⟨.finished, hagreed⟩
  exact
    { current := hagreed.current
      completed := hagreed.completed
      completes := fun hnone ↦ (halone.noTick htyped hnone).2.mirrors }

/-- A path table with a name that does not decode, and an orphan. -/
def strangeWorld : World where
  paths := [("%", { source := [], sourceOnDemand := false, record := false }),
    ("stray", { source := [], sourceOnDemand := false, record := false })]

/-- A listed name that does not decode stops the sweep. -/
theorem not_sweepsSafe_malformed_name :
    ¬ ∀ run : SweepRun fun _ ↦ True, SweepsSafe run.system := by
  intro hsafe
  let tick : Program (Party × Call) (fun call ↦ Reply call.2) Failure Unit :=
    (evaluateAllCameras midnight).labelled .tick
  let first : SweepSystem := { threads := [], world := (strangeWorld, {}) }
  have hsteps : LegalRun watchedMachine.move (SweepMove fun _ ↦ True) first
      [.start () tick, .advance 0 .ok, .advance 0 .ok] :=
    ⟨.tick _ nofun, .advance _ _ fun _ _ ↦ trivial, .advance _ _ fun _ _ ↦ trivial, trivial⟩
  have hlast := hsafe
    { world := strangeWorld, system := _, fresh := rfl, reached := Reaches.refl.run hsteps }
  have hthreads : (runMoves watchedMachine.move first
      [.start () tick, .advance 0 .ok, .advance 0 .ok]).threads = [((), .done ())] := rfl
  have hnone := hlast.completes (by
    intro thread hthread
    rw [hthreads] at hthread
    rw [List.mem_singleton.mp hthread]
    rintro ⟨call, next, hawaits⟩
    cases hawaits)
  cases hnone

end VmsLite.Media
