import VmsLite.Async.Stages
import VmsLite.Onvif.PullPoints

/-!
# Subscriptions that are replaced while a poll awaits

Calls of `subscribeCamera` and `unsubscribeCamera` for one camera and its poll cycles overlap at
their awaits. In a run whose steps are careful one poll cycle at most is in progress, one timer at
most is pending, and a camera that is unsubscribed owes no pull point an Unsubscribe once the calls
have returned (`eachState_isTidy`). A step is careful when it does not run into what the code leaves
unguarded: a timer that fires beside a cycle of an earlier subscription, an address that comes for a
subscription that is no longer in use, and a cycle that ends, and schedules the next one, for a
camera that is unsubscribed.
-/

set_option autoImplicit false

namespace VmsLite.Onvif

open VmsLite.Async Program

/-! ### Runs -/

/-- What a thread is: a call of the service, or a poll timer that fired. -/
inductive Origin
  | subscribe | unsubscribe | poll
  deriving DecidableEq, Repr

abbrev OnvifSystem := System Call Reply Failure World Origin

inductive SubscriptionStep
  | subscribe (camera : CameraSubscriptionInput)
  | unsubscribe
  | fire (timer : TimerId)
  /-- The call that a thread awaits comes to an end. -/
  | resume (thread : ℕ) (outcome : Outcome)
  | tick (tick : Tick)
  deriving DecidableEq, Repr

/-- A timer fires while it is pending. -/
def step (mockMode : Bool) (system : OnvifSystem) : SubscriptionStep → OnvifSystem
  | .subscribe camera => machine.move system (.start .subscribe (subscribeCamera mockMode camera))
  | .unsubscribe => machine.move system (.start .unsubscribe (unsubscribeCamera mockMode))
  | .fire timer =>
    if timer ∈ system.world.pending then machine.move system (.start .poll (pollTimerFires timer))
    else system
  | .resume thread outcome => machine.move system (.advance thread outcome)
  | .tick tick => machine.move system (.environment tick)

/-- No call has been made yet. -/
def initial : OnvifSystem := { threads := [], world := {} }

/-- The pull points whose addresses came and that since then neither were sent an Unsubscribe nor
failed a request. -/
def owed : List Notice → List Url
  | [] => []
  | .received url :: log => url :: owed log
  | .unsubscribed url :: log | .failed url :: log => (owed log).filter (· ≠ url)

/-- The poll cycles in progress. -/
def cycles (system : OnvifSystem) : List (Origin × Async Unit) :=
  system.threads.filter fun thread ↦ thread.1 = .poll ∧ thread.2.isOver = false

/-- One poll cycle at most is in progress and one timer at most is pending; and once the camera is
unsubscribed and all calls have returned, no timer is pending and no pull point is owed an
Unsubscribe. -/
structure IsTidy (system : OnvifSystem) : Prop where
  cycles : (cycles system).length ≤ 1
  timers : system.world.pending.length ≤ 1
  ended : system.world.subscription = none → (∀ thread ∈ system.threads, thread.2.isOver = true) →
    system.world.pending = [] ∧ owed system.world.log = []

/-! ### The condition -/

/-- The camera has a subscription, and it is in use. -/
def World.IsSubscribed (world : World) : Prop :=
  ∃ sub, world.subscription = some sub ∧ (world.objects sub).active = true

/-- An address comes only for a subscription that is in use, and a cycle whose requests succeed ends
only while the camera is subscribed. -/
structure IsCareful (system : OnvifSystem) (thread : ℕ) (outcome : Outcome) : Prop where
  owned : ∀ tag sub xaddr next,
    system.threads[thread]? = some (tag, .await (.createPullPoint sub xaddr) next) →
      ∀ url, outcome.created = .ok (some url) → url ≠ "" → (system.world.objects sub).active = true
  pulled : ∀ tag url next, system.threads[thread]? = some (tag, .await (.pullMessages url) next) →
    outcome.pulled url = .ok 0 → system.world.subscription ≠ none
  processed : ∀ tag notifications next,
    system.threads[thread]? = some (tag, .await (.processEvents notifications) next) →
      system.world.subscription ≠ none

/-- A timer of a subscribed camera fires only when no poll cycle is in progress. -/
def SubscriptionStep.IsCareful (system : OnvifSystem) : SubscriptionStep → Prop
  | .fire timer => timer ∈ system.world.pending → system.world.IsSubscribed →
      ∀ thread ∈ system.threads, thread.2.isOver = true
  | .resume thread outcome => Onvif.IsCareful system thread outcome
  | _ => True

/-! ### Where a poll cycle waits -/

/-- The call that a thread awaits, or that it is over. -/
inductive Stage
  | creating (sub : SubscriptionId) (xaddr : Url)
  | renewing (sub : SubscriptionId) (url : Url)
  | pulling (sub : SubscriptionId) (url : Option Url)
  | processing (sub : SubscriptionId) (notifications : ℕ)
  | ended

namespace World

def schedulePoll (world : World) : World :=
  { world with
    pending := (match world.pollTimeout with
      | some existing => world.pending.filter (· ≠ existing)
      | none => world.pending) ++ [world.nextTimer]
    pollTimeout := some world.nextTimer
    nextTimer := world.nextTimer + 1 }

def scheduleReconnect (world : World) : World :=
  match world.subscription with
  | none => world
  | some sub => if (world.objects sub).active then world.schedulePoll else world

def pollFailed (world : World) (sub : SubscriptionId) : World :=
  (world.modify sub fun subscription ↦
    { subscription with
      errorCount := subscription.errorCount + 1
      subscriptionUrl := none
      terminationTime := none }).scheduleReconnect

/-- A pull point is established at an address. -/
def establish (world : World) (sub : SubscriptionId) (address : Url) : World :=
  world.modify sub fun subscription ↦
    { subscription with
      subscriptionUrl := some address
      terminationTime := some (world.now + subscriptionLifetimeMs) }

def extend (world : World) (sub : SubscriptionId) : World :=
  world.modify sub fun subscription ↦
    { subscription with terminationTime := some (world.now + subscriptionLifetimeMs) }

def pulled (world : World) (sub : SubscriptionId) : World :=
  world.modify sub fun subscription ↦
    { subscription with lastPoll := some world.now, errorCount := 0 }

/-- The timer of `pollTimeouts` is taken off. -/
def clearPollTimeout (world : World) : World :=
  match world.pollTimeout with
  | some timeout =>
    { world with
      pending := world.pending.filter (· ≠ timeout)
      pollTimeout := none }
  | none => world

/-- The runtime takes a timer off its list. -/
def expire (world : World) (timer : TimerId) : World :=
  { world with pending := world.pending.filter (· ≠ timer) }

def dropSubscription (world : World) (mockMode : Bool) : World :=
  match world.subscription with
  | none => world
  | some sub =>
    let later : World :=
      { world.modify sub fun subscription ↦ { subscription with active := false } with
        subscription := none }
    if mockMode then later else later.note .unsubscribed (later.objects sub).subscriptionUrl

def unsubscribe (world : World) (mockMode : Bool) : World :=
  world.clearPollTimeout.dropSubscription mockMode

/-- The camera gets a new subscription. -/
def subscribed (world : World) (subscription : OnvifEventSubscription) : World :=
  { world with
    objects := Function.update world.objects world.nextSubscription subscription
    nextSubscription := world.nextSubscription + 1
    subscription := some world.nextSubscription }

def subscribe (world : World) (mockMode : Bool) (camera : CameraSubscriptionInput) : World :=
  let later := (world.unsubscribe mockMode).subscribed camera.subscription
  if mockMode then
    later.modify (world.unsubscribe mockMode).nextSubscription fun subscription ↦
      { subscription with
        subscriptionUrl :=
          some s!"http://mock-camera:{(camera.port.filter (· ≠ 0)).getD 80}/onvif/subscription/1"
        terminationTime := some (later.now + 60000) }
  else later.schedulePoll

end World

/-- The failures of a poll cycle are its own. -/
def guarded (sub : SubscriptionId) (program : Async Unit) : Async Unit :=
  (program.catching fun _ ↦ pollFailed sub).catching fun _ ↦ pure ()

namespace Stage

def program : Stage → Async Unit
  | .creating sub xaddr => guarded sub do
      (do
        let address ← orThrow (← call (.createPullPoint sub xaddr))
        takeAddress sub address)
      pullPoint sub
  | .renewing sub url => guarded sub do
      (renewSubscription sub url).catching fun _ ↦ initiatePullPointSubscription sub
      pullPoint sub
  | .pulling sub url => guarded sub do
      let notifications ← orThrow (← call (.pullMessages url))
      takeNotifications sub notifications
  | .processing sub notifications => guarded sub do
      call (.processEvents notifications)
      schedulePoll 100
  | .ended => done ()

/-- The stage of a cycle that has a pull point. -/
def pulls (sub : SubscriptionId) (world : World) : Stage :=
  if (world.objects sub).active then .pulling sub (world.objects sub).subscriptionUrl else .ended

/-- The stage at which a cycle sees to its pull point. -/
def ensures (sub : SubscriptionId) (world : World) : Stage :=
  match truthy (world.objects sub).subscriptionUrl with
  | none => .creating sub (world.objects sub).xaddr
  | some url =>
    if isDue (world.objects sub).terminationTime world.now then .renewing sub url
    else pulls sub world

/-- The stage that a cycle of a subscription begins at. -/
def beginsFor (sub : SubscriptionId) (world : World) : Stage :=
  if (world.objects sub).active then ensures sub world else .ended

/-- The stage that a cycle begins at. -/
def begins (world : World) : Stage :=
  match world.subscription with
  | none => .ended
  | some sub => beginsFor sub world

def next (outcome : Outcome) (world : World) : Stage → Stage × World
  | .creating sub _ =>
    match outcome.created with
    | .ok (some address) =>
      let later := (world.note .received (some address)).establish sub address
      (pulls sub later, later)
    | .ok none => (.ended, world.pollFailed sub)
    | .error _ => (.ended, world.pollFailed sub)
  | .renewing sub url =>
    match outcome.reply with
    | .ok () => (pulls sub (world.extend sub), world.extend sub)
    | .error _ =>
      let later := world.note .failed (some url)
      (.creating sub (later.objects sub).xaddr, later)
  | .pulling sub url =>
    match outcome.pulled url with
    | .ok notifications =>
      if 0 < notifications then (.processing sub notifications, world.pulled sub)
      else (.ended, (world.pulled sub).schedulePoll)
    | .error _ => (.ended, (world.note .failed url).pollFailed sub)
  | .processing _ _ => (.ended, world.schedulePoll)
  | .ended => (.ended, world)

theorem next_pulling_of_error {outcome : Outcome} {world : World} {sub : SubscriptionId}
    {url : Option Url} {failure : Failure} (hpulled : outcome.pulled url = .error failure) :
    next outcome world (.pulling sub url) = (.ended, (world.note .failed url).pollFailed sub) := by
  simp only [next, hpulled]

theorem next_pulling_of_ok {outcome : Outcome} {world : World} {sub : SubscriptionId}
    {url : Option Url} {notifications : ℕ} (hpulled : outcome.pulled url = .ok notifications) :
    next outcome world (.pulling sub url) =
      if 0 < notifications then (.processing sub notifications, world.pulled sub)
      else (.ended, (world.pulled sub).schedulePoll) := by
  simp only [next, hpulled]

end Stage

section Settle

variable {world : World} (sub : SubscriptionId)

theorem settle_schedulePoll (delayMs : ℕ) :
    machine.settle (schedulePoll delayMs) world = (done (), world.schedulePoll) := by
  obtain ⟨subscription, objects, nextSubscription, pollTimeout, pending, nextTimer, now,
      jitter, log⟩ :=
    world
  cases pollTimeout <;> rfl

theorem settle_reconnect (subscription : OnvifEventSubscription) :
    machine.settle (reconnect subscription) world =
      (done (), if subscription.active then world.schedulePoll else world) := by
  unfold reconnect
  split_ifs with hactive
  · exact settle_schedulePoll _
  · rfl

theorem settle_scheduleReconnect :
    machine.settle scheduleReconnect world = (done (), world.scheduleReconnect) := by
  obtain ⟨subscription, objects, nextSubscription, pollTimeout, pending, nextTimer, now,
      jitter, log⟩ :=
    world
  cases subscription with
  | none => rfl
  | some sub => exact settle_reconnect (objects sub)

theorem settle_pollFailed :
    machine.settle (pollFailed sub) world = (done (), world.pollFailed sub) :=
  settle_scheduleReconnect

theorem settle_guarded {program : Async Unit} :
    machine.settle (guarded sub program) world =
      machine.settle (guarded sub (machine.settle program world).1)
          (machine.settle program world).2 := by
  have hinner : machine.settle (program.catching fun _ ↦ pollFailed sub) world =
      machine.settle ((machine.settle program world).1.catching fun _ ↦ pollFailed sub)
        (machine.settle program world).2 := Machine.settle_catching _
  unfold guarded
  rw [Machine.settle_catching, hinner, ← Machine.settle_catching]

/-- A cycle whose last calls are synchronous is over. -/
theorem settle_guarded_of_done {program : Async Unit} {later : World}
    (hprogram : machine.settle program world = (done (), later)) :
    machine.settle (guarded sub program) world = (Stage.program .ended, later) := by
  rw [settle_guarded, hprogram]
  rfl

/-- A cycle that fails is over too. -/
theorem settle_guarded_failed (failure : Failure) :
    machine.settle (guarded sub (failed failure)) world =
        (Stage.program .ended, world.pollFailed sub) := by
  have hfailed : machine.settle (guarded sub (failed failure)) world =
      machine.settle ((pollFailed sub).catching fun _ ↦ done ()) world := rfl
  rw [hfailed, Machine.settle_catching, settle_pollFailed]
  rfl

theorem settle_guarded_pullPoint :
    machine.settle (guarded sub (pullPoint sub)) world =
      ((Stage.pulls sub world).program, world) := by
  have hread : machine.settle (guarded sub (pullPoint sub)) world =
      machine.settle (guarded sub (pullFrom sub (world.objects sub))) world := rfl
  rw [hread]
  unfold Stage.pulls pullFrom
  split_ifs with hactive <;> rfl

/-- A cycle goes on to its pull once the calls before it are made. -/
theorem settle_guarded_then {program : Async Unit} {later : World}
    (hprogram : machine.settle program world = (done (), later)) :
    machine.settle (guarded sub (program.bind fun _ ↦ pullPoint sub)) world =
      ((Stage.pulls sub later).program, later) := by
  have hbody : machine.settle (program.bind fun _ ↦ pullPoint sub) world =
      machine.settle (pullPoint sub) later := Machine.settle_bind_of_done hprogram
  rw [settle_guarded, hbody, ← settle_guarded, settle_guarded_pullPoint]

theorem settle_guarded_takeNotifications (notifications : ℕ) :
    machine.settle (guarded sub (takeNotifications sub notifications)) world =
      if 0 < notifications then ((Stage.processing sub notifications).program, world.pulled sub)
      else (Stage.program .ended, (world.pulled sub).schedulePoll) := by
  by_cases hsome : 0 < notifications
  · rw [if_pos hsome, settle_guarded]
    unfold takeNotifications
    simp only [hsome, if_true]
    rfl
  · rw [if_neg hsome]
    refine settle_guarded_of_done sub ?_
    unfold takeNotifications
    simp only [hsome, if_false]
    exact settle_schedulePoll 100

theorem resume_pulling (url : Option Url) (outcome : Outcome) :
    machine.resume outcome (Stage.program (.pulling sub url)) world =
      ((Stage.next outcome world (.pulling sub url)).1.program,
        (Stage.next outcome world (.pulling sub url)).2) := by
  have hresume : machine.resume outcome (Stage.program (.pulling sub url)) world =
      machine.settle
        (guarded sub ((orThrow (answer (.pullMessages url) outcome world).1).bind
          (takeNotifications sub))) (answer (.pullMessages url) outcome world).2 := rfl
  rw [hresume]
  cases hpulled : outcome.pulled url with
  | error failure =>
    have hanswer : answer (.pullMessages url) outcome world =
        (.error failure, world.note .failed url) := by
      simp only [answer, hpulled]
    rw [hanswer, Stage.next_pulling_of_error hpulled]
    exact settle_guarded_failed sub failure
  | ok notifications =>
    have hanswer : answer (.pullMessages url) outcome world = (.ok notifications, world) := by
      simp only [answer, hpulled]
    rw [hanswer, Stage.next_pulling_of_ok hpulled]
    refine (settle_guarded_takeNotifications sub notifications).trans ?_
    split_ifs <;> rfl

end Settle

def staging : Staging machine Failure Stage where
  program := Stage.program
  next := fun stage outcome world ↦ stage.next outcome world
  resume_program := by
    intro stage outcome world
    obtain ⟨failure, address, notifications⟩ := outcome
    cases stage with
    | creating sub xaddr =>
      cases failure with
      | some failure => exact settle_guarded_failed sub failure
      | none =>
        cases address with
        | none => exact settle_guarded_failed sub noAddress
        | some address => exact settle_guarded_then sub rfl
    | renewing sub url =>
      cases failure with
      | some failure => rfl
      | none => exact settle_guarded_then sub rfl
    | pulling sub url => exact resume_pulling sub url _
    | processing sub notifications => exact settle_guarded_of_done sub (settle_schedulePoll 100)
    | ended => rfl

/-! ### What a step does to the stages -/

abbrev Stages := List (Origin × Stage)

section Steps

variable {stages : Stages} {world : World} (mockMode : Bool)

theorem settle_releasePullPoint (subscription : OnvifEventSubscription) :
    machine.settle (releasePullPoint mockMode subscription) world =
      (done (), if mockMode then world else world.note .unsubscribed
          subscription.subscriptionUrl) := by
  unfold releasePullPoint World.note
  cases hurl : truthy subscription.subscriptionUrl with
  | none => cases mockMode <;> rfl
  | some url =>
    have hsent : world.note .unsubscribed (some url) =
        { world with log := .unsubscribed url :: world.log } := by
      have hne : url ≠ "" := by simpa using (Option.filter_eq_some_iff.mp hurl).2
      simp [World.note, truthy, Option.filter, hne]
    cases mockMode with
    | true => rfl
    | false => exact congrArg (fun later ↦ (done (), later)) hsent

theorem settle_dropSubscription :
    machine.settle (dropSubscription mockMode) world =
        (done (), world.dropSubscription mockMode) := by
  obtain ⟨subscription, objects, nextSubscription, pollTimeout, pending, nextTimer, now,
      jitter, log⟩ :=
    world
  cases subscription with
  | none => rfl
  | some sub => exact settle_releasePullPoint mockMode _

theorem settle_unsubscribeCamera :
    machine.settle (unsubscribeCamera mockMode) world = (done (), world.unsubscribe mockMode) := by
  obtain ⟨subscription, objects, nextSubscription, pollTimeout, pending, nextTimer, now,
      jitter, log⟩ :=
    world
  cases pollTimeout <;> exact settle_dropSubscription mockMode

theorem settle_subscribeCamera (camera : CameraSubscriptionInput) :
    machine.settle (subscribeCamera mockMode camera) world =
      (done (), world.subscribe mockMode camera) := by
  refine (Machine.settle_bind_of_done (settle_unsubscribeCamera mockMode)).trans ?_
  cases mockMode with
  | true => rfl
  | false => exact settle_schedulePoll 100

theorem settle_renewIfDue (sub : SubscriptionId) (url : Url) :
    machine.settle (guarded sub
        ((renewIfDue sub (world.objects sub) url world.now).bind fun _ ↦ pullPoint sub)) world =
      ((if isDue (world.objects sub).terminationTime world.now then Stage.renewing sub url
        else Stage.pulls sub world).program, world) := by
  unfold renewIfDue
  split_ifs with hdue
  · rfl
  · exact settle_guarded_pullPoint sub

theorem settle_ensurePullPoint (sub : SubscriptionId) :
    machine.settle (guarded sub
        ((ensurePullPoint sub (world.objects sub)).bind fun _ ↦ pullPoint sub)) world =
      ((Stage.ensures sub world).program, world) := by
  unfold ensurePullPoint Stage.ensures
  cases truthy (world.objects sub).subscriptionUrl with
  | none => rfl
  | some url => exact settle_renewIfDue sub url

theorem settle_pollCycle (sub : SubscriptionId) :
    machine.settle ((pollCycle sub (world.objects sub)).catching fun _ ↦ pure ()) world =
      ((Stage.beginsFor sub world).program, world) := by
  unfold pollCycle Stage.beginsFor
  by_cases hactive : (world.objects sub).active = true
  · rw [if_pos hactive, if_pos hactive]
    exact settle_ensurePullPoint sub
  · rw [if_neg hactive, if_neg hactive]
    rfl

theorem settle_pollTimerFires (timer : TimerId) :
    machine.settle (pollTimerFires timer) world =
      ((Stage.begins (world.expire timer)).program, world.expire timer) := by
  obtain ⟨subscription, objects, nextSubscription, pollTimeout, pending, nextTimer, now,
      jitter, log⟩ :=
    world
  cases subscription with
  | none => rfl
  | some sub =>
    let world : World :=
      ⟨some sub, objects, nextSubscription, pollTimeout, pending, nextTimer, now, jitter, log⟩
    exact @settle_pollCycle (world.expire timer) sub

/-- What a step makes of the stages and the world. -/
def SubscriptionStep.apply (stages : Stages) (world : World) : SubscriptionStep → Stages × World
  | .subscribe camera => (stages ++ [(.subscribe, .ended)], world.subscribe mockMode camera)
  | .unsubscribe => (stages ++ [(.unsubscribe, .ended)], world.unsubscribe mockMode)
  | .fire timer =>
    if timer ∈ world.pending then
      (stages ++ [(.poll, Stage.begins (world.expire timer))], world.expire timer)
    else (stages, world)
  | .resume thread outcome =>
    match stages[thread]? with
    | some (tag, stage) =>
      (stages.set thread (tag, (stage.next outcome world).1), (stage.next outcome world).2)
    | none => (stages, world)
  | .tick reading => (stages, { world with now := reading.now, jitter := reading.jitter })

theorem step_system (subscriptionStep : SubscriptionStep) :
    step mockMode (staging.system stages world) subscriptionStep =
      staging.system (subscriptionStep.apply mockMode stages world).1
        (subscriptionStep.apply mockMode stages world).2 := by
  cases subscriptionStep with
  | subscribe camera => exact Staging.move_start (settle_subscribeCamera mockMode camera)
  | unsubscribe => exact Staging.move_start (settle_unsubscribeCamera mockMode)
  | fire timer =>
    unfold SubscriptionStep.apply step
    dsimp only
    have hworld : (staging.system stages world).world = world := rfl
    rw [hworld]
    split_ifs with hpending
    · exact Staging.move_start (settle_pollTimerFires timer)
    · rfl
  | resume thread outcome =>
    unfold SubscriptionStep.apply step
    dsimp only
    cases hstage : stages[thread]? with
    | none => exact Staging.move_advance_none hstage
    | some entry => exact Staging.move_advance hstage
  | tick tick => rfl

end Steps

/-! ### What the steps keep -/

/-- The timer that is pending is the one of `pollTimeouts`, and one at most is; the subscription in
use is the one of the camera; and a pull point that is owed an Unsubscribe is the one of this
subscription. -/
structure World.IsOrderly (world : World) : Prop where
  known : ∀ timer ∈ world.pending, world.pollTimeout = some timer
  single : world.pending.length ≤ 1
  unsubscribed : world.subscription = none → world.pending = []
  active : ∀ sub, (world.objects sub).active = true ↔ world.subscription = some sub
  current : ∀ sub, world.subscription = some sub → sub < world.nextSubscription
  owned : ∀ url ∈ owed world.log, url ≠ "" ∧
    ∃ sub, world.subscription = some sub ∧ (world.objects sub).subscriptionUrl = some url

namespace World

variable {world : World} {sub : SubscriptionId}

/-- What is noted of a pull point settles what it is owed. -/
theorem mem_owed_note {notice : Url → Notice}
    (hnotice : ∀ url log, owed (notice url :: log) = (owed log).filter (· ≠ url)) {url : Option Url}
    {other : Url} :
    other ∈ owed (world.note notice url).log ↔ other ∈ owed world.log ∧
        truthy url ≠ some other := by
  unfold note
  cases truthy url with
  | none => simp
  | some found =>
    simp only [hnotice, List.mem_filter, decide_eq_true_eq, ne_eq, Option.some.injEq]
    exact and_congr_right fun _ ↦ not_congr eq_comm

theorem exists_log_note (world : World) (notice : Url → Notice) (url : Option Url) :
    ∃ log, world.note notice url = { world with log := log } := by
  unfold note
  cases truthy url with
  | none => exact ⟨world.log, rfl⟩
  | some found => exact ⟨_, rfl⟩

theorem note_nextSubscription (world : World) (notice : Url → Notice) (url : Option Url) :
    (world.note notice url).nextSubscription = world.nextSubscription := by
  obtain ⟨log, hlog⟩ := world.exists_log_note notice url
  rw [hlog]

theorem note_received_of_empty : world.note .received (some "") = world := rfl

theorem note_received {url : Url} (hurl : url ≠ "") :
    world.note .received (some url) = { world with log := .received url :: world.log } := by
  simp [note, truthy, Option.filter, hurl]

theorem clearPollTimeout_pending (hknown : ∀ timer ∈ world.pending,
    world.pollTimeout = some timer) :
    world.clearPollTimeout.pending = [] := by
  unfold clearPollTimeout
  cases htimeout : world.pollTimeout with
  | none =>
    refine List.eq_nil_iff_forall_not_mem.mpr fun timer htimer ↦ ?_
    rw [hknown timer htimer] at htimeout
    cases htimeout
  | some timeout =>
    refine List.filter_eq_nil_iff.mpr fun timer htimer ↦ ?_
    have hsame := hknown timer htimer
    rw [htimeout] at hsame
    simp [Option.some.inj hsame]

/-- The timer of the next cycle is the only one. -/
theorem schedulePoll_pending (hknown : ∀ timer ∈ world.pending, world.pollTimeout = some timer) :
    world.schedulePoll.pending = [world.nextTimer] := by
  have hcleared : (match world.pollTimeout with
      | some existing => world.pending.filter (· ≠ existing)
      | none => world.pending) = [] := by
    have hnone := clearPollTimeout_pending hknown
    unfold clearPollTimeout at hnone
    cases htimeout : world.pollTimeout <;> simpa [htimeout] using hnone
  unfold schedulePoll
  rw [hcleared, List.nil_append]

namespace IsOrderly

variable (horderly : world.IsOrderly)

include horderly

theorem schedulePoll (hsubscribed : world.subscription ≠ none) : world.schedulePoll.IsOrderly where
  known := by
    rw [schedulePoll_pending horderly.known]
    intro timer htimer
    rw [List.mem_singleton.mp htimer]
    rfl
  single := (congrArg List.length (schedulePoll_pending horderly.known)).le
  unsubscribed := fun hnone ↦ absurd hnone hsubscribed
  active := horderly.active
  current := horderly.current
  owned := horderly.owned

theorem scheduleReconnect : world.scheduleReconnect.IsOrderly := by
  unfold World.scheduleReconnect
  cases hsubscription : world.subscription with
  | none => exact horderly
  | some sub =>
    dsimp only
    split_ifs
    · exact horderly.schedulePoll (by simp [hsubscription])
    · exact horderly

/-- A change of a subscription that leaves it in use or out of use, and its pull point the one that
is owed an Unsubscribe. -/
theorem modify {change : OnvifEventSubscription → OnvifEventSubscription}
    (hactive : (change (world.objects sub)).active = (world.objects sub).active)
    (hurl : (world.objects sub).active = true → ∀ url ∈ owed world.log,
      (change (world.objects sub)).subscriptionUrl = (world.objects sub).subscriptionUrl) :
    (world.modify sub change).IsOrderly where
  known := horderly.known
  single := horderly.single
  unsubscribed := horderly.unsubscribed
  active := by
    intro other
    refine Iff.trans ?_ (horderly.active other)
    by_cases hsame : other = sub
    · subst hsame
      simp only [World.modify, Function.update_self, hactive]
    · simp only [World.modify, Function.update_of_ne hsame]
  current := horderly.current
  owned := by
    intro url hurls
    obtain ⟨hne, other, hcurrent, hother⟩ := horderly.owned url hurls
    refine ⟨hne, other, hcurrent, ?_⟩
    by_cases hsame : other = sub
    · subst hsame
      simp only [World.modify, Function.update_self]
      rw [hurl ((horderly.active other).mpr hcurrent) url hurls, hother]
    · simp only [World.modify, Function.update_of_ne hsame, hother]

/-- A poll cycle that fails when no pull point of its subscription is owed an Unsubscribe. -/
theorem pollFailed (hdropped : (world.objects sub).active = true → owed world.log = []) :
    (world.pollFailed sub).IsOrderly := by
  refine IsOrderly.scheduleReconnect (horderly.modify rfl fun hactive url hurl ↦ ?_)
  rw [hdropped hactive] at hurl
  exact absurd hurl List.not_mem_nil

theorem withLog {log : List Notice} (hlog : ∀ url ∈ owed log, url ∈ owed world.log) :
    { world with log := log }.IsOrderly where
  known := horderly.known
  single := horderly.single
  unsubscribed := horderly.unsubscribed
  active := horderly.active
  current := horderly.current
  owned := fun url hurl ↦ horderly.owned url (hlog url hurl)

theorem note_failed (url : Option Url) : (world.note .failed url).IsOrderly := by
  obtain ⟨log, hlog⟩ := world.exists_log_note .failed url
  have hnoted : (world.note .failed url).log = log := congrArg World.log hlog
  rw [hlog]
  refine horderly.withLog fun other hother ↦ ?_
  rw [← hnoted] at hother
  exact ((mem_owed_note fun _ _ ↦ rfl).mp hother).1

/-- Once the pull point of the camera is noted, none is owed an Unsubscribe. -/
theorem owed_note {notice : Url → Notice}
    (hnotice : ∀ url log, owed (notice url :: log) = (owed log).filter (· ≠ url))
    (hcurrent : world.subscription = some sub) {later : World} (hlog : later.log = world.log) :
    owed (later.note notice (world.objects sub).subscriptionUrl).log = [] := by
  refine List.eq_nil_iff_forall_not_mem.mpr fun other hother ↦ ?_
  obtain ⟨howed, hother⟩ := (mem_owed_note hnotice).mp hother
  rw [hlog] at howed
  obtain ⟨hne, found, hfound, hurl⟩ := horderly.owned other howed
  obtain rfl := Option.some.inj (hcurrent.symm.trans hfound)
  refine hother ?_
  rw [hurl]
  simp [truthy, Option.filter, hne]

/-- A request to the pull point of a subscription failed: it is owed no Unsubscribe any more. -/
theorem owed_note_failed {url : Option Url} (hactive : (world.objects sub).active = true)
    (hurl : (world.objects sub).subscriptionUrl = url) :
        owed (world.note .failed url).log = [] := by
  rw [← hurl]
  exact horderly.owed_note (fun _ _ ↦ rfl) ((horderly.active sub).mp hactive) rfl

theorem extend : (world.extend sub).IsOrderly := horderly.modify rfl fun _ _ _ ↦ rfl

theorem pulled : (world.pulled sub).IsOrderly := horderly.modify rfl fun _ _ _ ↦ rfl

end IsOrderly

/-- Unsubscribing leaves neither a timer nor a pull point that is owed an Unsubscribe. -/
structure IsIdle (world : World) : Prop where
  subscription : world.subscription = none
  pending : world.pending = []
  inactive : ∀ sub, (world.objects sub).active = false
  owed : owed world.log = []

theorem IsIdle.isOrderly (hidle : world.IsIdle) : world.IsOrderly where
  known := by simp [hidle.pending]
  single := by simp [hidle.pending]
  unsubscribed := fun _ ↦ hidle.pending
  active := by simp [hidle.inactive, hidle.subscription]
  current := by simp [hidle.subscription]
  owned := by simp [hidle.owed]

theorem IsOrderly.clearPollTimeout (horderly : world.IsOrderly) :
    world.clearPollTimeout.IsOrderly := by
  have hpending := clearPollTimeout_pending horderly.known
  have hempty : ∀ timer, timer ∉ world.clearPollTimeout.pending := by simp [hpending]
  have hsingle : world.clearPollTimeout.pending.length ≤ 1 := by simp [hpending]
  unfold World.clearPollTimeout at hpending hempty hsingle ⊢
  cases htimeout : world.pollTimeout with
  | none => exact horderly
  | some timeout =>
    rw [htimeout] at hpending hempty hsingle
    exact ⟨fun timer htimer ↦ absurd htimer (hempty timer), hsingle, fun _ ↦ hpending,
      horderly.active, horderly.current, horderly.owned⟩

theorem IsOrderly.dropSubscription (horderly : world.IsOrderly) (hpending : world.pending = [])
    {mockMode : Bool} (hmock : mockMode = true → Onvif.owed world.log = []) :
    (world.dropSubscription mockMode).IsIdle := by
  unfold World.dropSubscription
  cases hcurrent : world.subscription with
  | none =>
    refine ⟨hcurrent, hpending, fun sub ↦ ?_, List.eq_nil_iff_forall_not_mem.mpr fun url hurl ↦ ?_⟩
    · refine Bool.eq_false_iff.mpr fun hactive ↦ ?_
      cases hcurrent.symm.trans ((horderly.active sub).mp hactive)
    · obtain ⟨-, sub, hsub, -⟩ := horderly.owned url hurl
      cases hcurrent.symm.trans hsub
  | some sub =>
    let later : World :=
      { world.modify sub fun subscription ↦ { subscription with active := false } with
        subscription := none }
    have hinactive : ∀ other, (later.objects other).active = false := by
      intro other
      by_cases hsame : other = sub
      · subst hsame
        simp only [later, World.modify, Function.update_self]
      · simp only [later, World.modify, Function.update_of_ne hsame]
        refine Bool.eq_false_iff.mpr fun hactive ↦ hsame ?_
        exact Option.some.inj (((horderly.active other).mp hactive).symm.trans hcurrent)
    cases hmode : mockMode with
    | true => exact ⟨rfl, hpending, hinactive, hmock hmode⟩
    | false =>
      have hurl : (later.objects sub).subscriptionUrl = (world.objects sub).subscriptionUrl := by
        simp only [later, World.modify, Function.update_self]
      have howed : Onvif.owed (later.note .unsubscribed (world.objects sub).subscriptionUrl).log =
          [] :=
        horderly.owed_note (fun _ _ ↦ rfl) hcurrent rfl
      rw [← hurl] at howed
      obtain ⟨log, hlog⟩ := later.exists_log_note .unsubscribed (later.objects sub).subscriptionUrl
      rw [hlog] at howed
      have hdropped : (later.note .unsubscribed (later.objects sub).subscriptionUrl).IsIdle := by
        rw [hlog]
        exact ⟨rfl, hpending, hinactive, howed⟩
      exact hdropped

theorem IsOrderly.unsubscribe (horderly : world.IsOrderly) {mockMode : Bool}
    (hmock : mockMode = true → Onvif.owed world.log = []) :
        (world.unsubscribe mockMode).IsIdle := by
  refine horderly.clearPollTimeout.dropSubscription (clearPollTimeout_pending horderly.known) ?_
  unfold World.clearPollTimeout
  cases world.pollTimeout <;> exact hmock

/-- A new subscription of a camera that has none. -/
theorem IsIdle.subscribed (hidle : world.IsIdle) {subscription : OnvifEventSubscription}
    (hactive : subscription.active = true) : (world.subscribed subscription).IsOrderly where
  known := by
    intro timer htimer
    rw [show (world.subscribed subscription).pending = [] from hidle.pending] at htimer
    exact absurd htimer List.not_mem_nil
  single := by
    rw [show (world.subscribed subscription).pending = [] from hidle.pending]
    exact Nat.zero_le 1
  unsubscribed := nofun
  active := by
    intro sub
    by_cases hsame : sub = world.nextSubscription
    · subst hsame
      simp [World.subscribed, hactive]
    · have hinactive := hidle.inactive sub
      simp [World.subscribed, hsame, hinactive, Ne.symm hsame]
  current := by
    intro sub hsub
    obtain rfl := Option.some.inj hsub
    exact Nat.lt_succ_self _
  owned := by
    intro url hurl
    rw [show (world.subscribed subscription).log = world.log from rfl, hidle.owed] at hurl
    exact absurd hurl List.not_mem_nil

theorem IsOrderly.subscribe (horderly : world.IsOrderly) {mockMode : Bool}
    (hmock : mockMode = true → Onvif.owed world.log = []) (camera : CameraSubscriptionInput) :
    (world.subscribe mockMode camera).IsOrderly := by
  have hidle := horderly.unsubscribe hmock
  have hsubscribed : ((world.unsubscribe mockMode).subscribed camera.subscription).IsOrderly :=
    hidle.subscribed rfl
  unfold World.subscribe
  cases mockMode with
  | false => exact hsubscribed.schedulePoll (Option.some_ne_none _)
  | true =>
    simp only [if_true]
    refine hsubscribed.modify ?_ fun _ url hurl ↦ ?_
    · rfl
    have hnone : Onvif.owed ((world.unsubscribe true).subscribed camera.subscription).log = [] :=
      hidle.owed
    rw [hnone] at hurl
    exact absurd hurl List.not_mem_nil

end World

/-! ### What a cycle keeps -/

namespace Stage

def isOver : Stage → Bool
  | .ended => true
  | _ => false

/-- The subscription that a cycle holds on to. -/
def subscription : Stage → Option SubscriptionId
  | .creating sub _ | .renewing sub _ | .pulling sub _ | .processing sub _ => some sub
  | .ended => none

/-- What a cycle knows of the pull point while its subscription is in use. -/
def Expects (world : World) : Stage → Prop
  | .creating _ _ => owed world.log = []
  | .renewing sub url => (world.objects sub).subscriptionUrl = some url
  | .pulling sub url => (world.objects sub).subscriptionUrl = url
  | _ => True

def Fits (stage : Stage) (world : World) : Prop :=
  ∀ sub, stage.subscription = some sub → sub < world.nextSubscription ∧
    ((world.objects sub).active = true → stage.Expects world)

/-- The condition on the end of a call, by what the cycle awaits. -/
def CarefulEnd (outcome : Outcome) (world : World) : Stage → Prop
  | .creating sub _ => ∀ url, outcome.created = .ok (some url) → url ≠ "" →
      (world.objects sub).active = true
  | .pulling _ url => outcome.pulled url = .ok 0 → world.subscription ≠ none
  | .processing _ _ => world.subscription ≠ none
  | _ => True

variable {world : World} {sub : SubscriptionId} {outcome : Outcome}

theorem isOver_program (stage : Stage) : stage.program.isOver = stage.isOver := by
  cases stage <;> rfl

theorem fits_over : Stage.ended.Fits world := nofun

theorem fits_pulls (hsub : sub < world.nextSubscription) : (pulls sub world).Fits world := by
  unfold pulls
  split_ifs
  · intro other hother
    obtain rfl := Option.some.inj hother
    exact ⟨hsub, fun _ ↦ rfl⟩
  · exact fits_over

/-- A pull point is established for a subscription that is not owed any other. -/
theorem establish_orderly {address : Url} (horderly : world.IsOrderly)
    (hexpects : (world.objects sub).active = true → owed world.log = [])
    (hactive : address ≠ "" → (world.objects sub).active = true) :
    ((world.note .received (some address)).establish sub address).IsOrderly := by
  by_cases hblank : address = ""
  · rw [hblank, World.note_received_of_empty]
    refine horderly.modify rfl fun hactive url hurl ↦ ?_
    rw [hexpects hactive] at hurl
    exact absurd hurl List.not_mem_nil
  · have hcurrent := (horderly.active sub).mp (hactive hblank)
    have hnone := hexpects (hactive hblank)
    rw [World.note_received hblank]
    have hactive : ∀ other,
        (Function.update world.objects sub
          { world.objects sub with
            subscriptionUrl := some address
            terminationTime := some (world.now + subscriptionLifetimeMs) } other).active =
          (world.objects other).active := by
      intro other
      by_cases hsame : other = sub
      · subst hsame
        rw [Function.update_self]
      · rw [Function.update_of_ne hsame]
    refine ⟨horderly.known, horderly.single, horderly.unsubscribed,
      fun other ↦ (Bool.eq_iff_iff.mp (hactive other)).trans (horderly.active other),
      horderly.current, fun url hurl ↦ ?_⟩
    have hurl : url ∈ address :: owed world.log := hurl
    rw [hnone, List.mem_singleton] at hurl
    rw [hurl]
    refine ⟨hblank, sub, hcurrent, ?_⟩
    simp only [World.establish, World.modify, Function.update_self]

theorem next_creating {xaddr : Url} (horderly : world.IsOrderly)
    (hfits : (Stage.creating sub xaddr).Fits world)
    (hcareful : (Stage.creating sub xaddr).CarefulEnd outcome world) :
    ((Stage.creating sub xaddr).next outcome world).2.IsOrderly ∧
      ((Stage.creating sub xaddr).next outcome world).1.Fits
        ((Stage.creating sub xaddr).next outcome world).2 := by
  obtain ⟨hbound, hexpects⟩ := hfits sub rfl
  unfold next
  cases hcreated : outcome.created with
  | error failure => exact ⟨horderly.pollFailed hexpects, fits_over⟩
  | ok found =>
    cases found with
    | none => exact ⟨horderly.pollFailed hexpects, fits_over⟩
    | some address =>
      refine ⟨establish_orderly horderly hexpects (hcareful address hcreated), fits_pulls ?_⟩
      obtain ⟨log, hlog⟩ := world.exists_log_note .received (some address)
      rw [hlog]
      exact hbound

theorem next_renewing {url : Url} (horderly : world.IsOrderly)
    (hfits : (Stage.renewing sub url).Fits world) :
    ((Stage.renewing sub url).next outcome world).2.IsOrderly ∧
      ((Stage.renewing sub url).next outcome world).1.Fits
        ((Stage.renewing sub url).next outcome world).2 := by
  obtain ⟨hbound, hexpects⟩ := hfits sub rfl
  unfold next
  cases outcome.reply with
  | ok reply => exact ⟨horderly.extend, fits_pulls hbound⟩
  | error failure =>
    refine ⟨horderly.note_failed (some url), fun other hother ↦ ?_⟩
    obtain rfl := Option.some.inj hother
    have hnone : (world.objects sub).active = true →
        owed (world.note .failed (some url)).log = [] :=
      fun hactive ↦ horderly.owed_note_failed hactive (hexpects hactive)
    obtain ⟨log, hlog⟩ := world.exists_log_note .failed (some url)
    dsimp only
    rw [hlog] at hnone ⊢
    exact ⟨hbound, hnone⟩

theorem next_pulling {url : Option Url} (horderly : world.IsOrderly)
    (hfits : (Stage.pulling sub url).Fits world)
    (hcareful : (Stage.pulling sub url).CarefulEnd outcome world) :
    ((Stage.pulling sub url).next outcome world).2.IsOrderly ∧
      ((Stage.pulling sub url).next outcome world).1.Fits
        ((Stage.pulling sub url).next outcome world).2 := by
  obtain ⟨hbound, hexpects⟩ := hfits sub rfl
  have hsubscribed : outcome.pulled url = .ok 0 → world.subscription ≠ none := hcareful
  cases hpulled : outcome.pulled url with
  | error failure =>
    rw [next_pulling_of_error hpulled]
    have hnone : (world.objects sub).active = true → owed (world.note .failed url).log = [] :=
      fun hactive ↦ horderly.owed_note_failed hactive (hexpects hactive)
    have horderly := horderly.note_failed url
    obtain ⟨log, hlog⟩ := world.exists_log_note .failed url
    dsimp only
    rw [hlog] at hnone horderly ⊢
    exact ⟨horderly.pollFailed hnone, fits_over⟩
  | ok notifications =>
    rw [next_pulling_of_ok hpulled]
    split_ifs with hsome
    · refine ⟨horderly.pulled, fun other hother ↦ ?_⟩
      obtain rfl := Option.some.inj hother
      exact ⟨hbound, fun _ ↦ trivial⟩
    · obtain rfl := Nat.eq_zero_of_not_pos hsome
      exact ⟨horderly.pulled.schedulePoll (hsubscribed hpulled), fits_over⟩

/-- A call comes to its end, carefully: the world stays in order, and the cycle goes on with what it
knows. -/
theorem next_orderly (stage : Stage) (horderly : world.IsOrderly) (hfits : stage.Fits world)
    (hcareful : stage.CarefulEnd outcome world) :
    (stage.next outcome world).2.IsOrderly ∧
      (stage.next outcome world).1.Fits (stage.next outcome world).2 := by
  cases stage with
  | creating sub xaddr => exact next_creating horderly hfits hcareful
  | renewing sub url => exact next_renewing horderly hfits
  | pulling sub url => exact next_pulling horderly hfits hcareful
  | processing sub notifications => exact ⟨horderly.schedulePoll hcareful, fits_over⟩
  | ended => exact ⟨horderly, fits_over⟩

theorem fits_ensures (horderly : world.IsOrderly) (hcurrent : world.subscription = some sub) :
    (ensures sub world).Fits world := by
  have hbound := horderly.current sub hcurrent
  unfold ensures
  cases hurl : truthy (world.objects sub).subscriptionUrl with
  | none =>
    intro other hother
    obtain rfl := Option.some.inj hother
    refine ⟨hbound, fun _ ↦ List.eq_nil_iff_forall_not_mem.mpr fun url howed ↦ ?_⟩
    obtain ⟨hne, found, hfound, hsame⟩ := horderly.owned url howed
    obtain rfl := Option.some.inj (hcurrent.symm.trans hfound)
    rw [hsame] at hurl
    simp [truthy, Option.filter, hne] at hurl
  | some url =>
    dsimp only
    split_ifs
    · intro other hother
      obtain rfl := Option.some.inj hother
      exact ⟨hbound, fun _ ↦ (Option.filter_eq_some_iff.mp hurl).1⟩
    · exact fits_pulls hbound

theorem fits_begins (horderly : world.IsOrderly) : (begins world).Fits world := by
  unfold begins
  cases hcurrent : world.subscription with
  | none => exact fits_over
  | some sub =>
    unfold beginsFor
    dsimp only
    split_ifs
    · exact fits_ensures horderly hcurrent
    · exact fits_over

/-- A cycle that begins has a subscription in use. -/
theorem begins_over (hnone : ¬ world.IsSubscribed) : begins world = .ended := by
  unfold begins
  cases hcurrent : world.subscription with
  | none => rfl
  | some sub =>
    have hinactive : ¬ (world.objects sub).active = true :=
      fun hactive ↦ hnone ⟨sub, hcurrent, hactive⟩
    exact if_neg hinactive

end Stage

/-! ### Every run -/

section Runs

variable {mockMode : Bool} {stages : Stages} {world : World}

/-- What careful steps keep: one cycle at most is in progress, it knows its pull point, and a
service in mock mode sets no timer and creates no pull point. -/
structure Kept (mockMode : Bool) (stages : Stages) (world : World) :
    Prop extends world.IsOrderly where
  one : (Staging.waiting Stage.isOver stages).length ≤ 1
  fits : ∀ entry ∈ Staging.waiting Stage.isOver stages, entry.2.Fits world
  mock : mockMode = true → world.pending = [] ∧ owed world.log = [] ∧
    Staging.waiting Stage.isOver stages = []

theorem kept_nil (mockMode : Bool) : Kept mockMode [] {} := by
  have hidle : ({} : World).IsIdle := ⟨rfl, rfl, fun _ ↦ rfl, rfl⟩
  exact { hidle.isOrderly with
    one := Nat.zero_le 1
    fits := fun _ hentry ↦ absurd hentry List.not_mem_nil
    mock := fun _ ↦ ⟨rfl, rfl, rfl⟩ }

theorem isTidy_system (hkept : Kept mockMode stages world) :
    IsTidy (staging.system stages world) where
  cycles := by
    have hcycles : (cycles (staging.system stages world)).length ≤
        (Staging.waiting Stage.isOver stages).length := by
      unfold cycles Staging.waiting Staging.system
      rw [List.filter_map, List.length_map, ← List.countP_eq_length_filter,
        ← List.countP_eq_length_filter]
      refine List.countP_mono_left fun entry _ hcycle ↦ ?_
      have hover : entry.2.program.isOver = false := (of_decide_eq_true hcycle).2
      rw [Stage.isOver_program] at hover
      simp [hover]
    exact hcycles.trans hkept.one
  timers := hkept.single
  ended := by
    intro hnone _
    refine ⟨hkept.unsubscribed hnone, List.eq_nil_iff_forall_not_mem.mpr fun url hurl ↦ ?_⟩
    obtain ⟨-, sub, hsub, -⟩ := hkept.owned url hurl
    cases hsub.symm.trans hnone

/-- A call that is over at once, after which a cycle in progress still knows what it knew. -/
theorem Kept.called (hkept : Kept mockMode stages world) {tag : Origin} {later : World}
    (horderly : later.IsOrderly) (hbound : world.nextSubscription ≤ later.nextSubscription)
    (hinactive : ∀ sub, sub < world.nextSubscription → (later.objects sub).active = false)
    (hmock : mockMode = true → later.pending = [] ∧ owed later.log = []) :
    Kept mockMode (stages ++ [(tag, .ended)]) later := by
  have hwaiting : Staging.waiting Stage.isOver (stages ++ [(tag, Stage.ended)]) =
      Staging.waiting Stage.isOver stages := by
    rw [Staging.waiting_append, Staging.waiting_singleton_of_over rfl, List.append_nil]
  refine { horderly with one := ?_, fits := ?_, mock := ?_ }
  · rw [hwaiting]
    exact hkept.one
  · rw [hwaiting]
    intro entry hentry sub hsub
    have hearlier := (hkept.fits entry hentry sub hsub).1
    refine ⟨hearlier.trans_le hbound, fun hactive ↦ ?_⟩
    rw [hinactive sub hearlier] at hactive
    cases hactive
  · rw [hwaiting]
    exact fun hmode ↦ ⟨(hmock hmode).1, (hmock hmode).2, (hkept.mock hmode).2.2⟩

theorem World.unsubscribe_nextSubscription (world : World) (mockMode : Bool) :
    (world.unsubscribe mockMode).nextSubscription = world.nextSubscription := by
  have hclear : world.clearPollTimeout.nextSubscription = world.nextSubscription := by
    unfold World.clearPollTimeout
    cases world.pollTimeout <;> rfl
  rw [← hclear]
  unfold World.unsubscribe World.dropSubscription
  cases world.clearPollTimeout.subscription with
  | none => rfl
  | some sub =>
    cases mockMode with
    | true => rfl
    | false =>
      exact World.note_nextSubscription _ _ _

theorem Kept.unsubscribe (hkept : Kept mockMode stages world) :
    Kept mockMode (stages ++ [(.unsubscribe, .ended)]) (world.unsubscribe mockMode) := by
  have hidle := hkept.toIsOrderly.unsubscribe fun hmode ↦ (hkept.mock hmode).2.1
  exact hkept.called hidle.isOrderly (world.unsubscribe_nextSubscription mockMode).ge
    (fun sub _ ↦ hidle.inactive sub) fun _ ↦ ⟨hidle.pending, hidle.owed⟩

theorem Kept.subscribe (hkept : Kept mockMode stages world) (camera : CameraSubscriptionInput) :
    Kept mockMode (stages ++ [(.subscribe, .ended)]) (world.subscribe mockMode camera) := by
  have howed : mockMode = true → owed world.log = [] := fun hmode ↦ (hkept.mock hmode).2.1
  have hidle := hkept.toIsOrderly.unsubscribe howed
  have horderly := hkept.toIsOrderly.subscribe howed camera
  have hsubscription : (world.subscribe mockMode camera).subscription =
      some world.nextSubscription := by
    rw [← world.unsubscribe_nextSubscription mockMode]
    unfold World.subscribe
    cases mockMode <;> rfl
  have hnext : (world.subscribe mockMode camera).nextSubscription = world.nextSubscription + 1 := by
    rw [← world.unsubscribe_nextSubscription mockMode]
    unfold World.subscribe
    cases mockMode <;> rfl
  refine hkept.called horderly (hnext ▸ Nat.le_succ _) (fun sub hearlier ↦ ?_) fun hmode ↦ ?_
  · refine Bool.eq_false_iff.mpr fun hactive ↦ ?_
    have hsame := (horderly.active sub).mp hactive
    rw [hsubscription] at hsame
    exact hearlier.ne' (Option.some.inj hsame)
  · subst hmode
    exact ⟨hidle.pending, hidle.owed⟩

theorem World.IsOrderly.expire (horderly : world.IsOrderly) (timer : TimerId) :
    (world.expire timer).IsOrderly where
  known := fun other hother ↦ horderly.known other (List.mem_of_mem_filter hother)
  single := (List.length_filter_le _ _).trans horderly.single
  unsubscribed := by
    intro hnone
    unfold World.expire
    rw [horderly.unsubscribed hnone]
    rfl
  active := horderly.active
  current := horderly.current
  owned := horderly.owned

theorem Kept.fire (hkept : Kept mockMode stages world) {timer : TimerId}
    (hpending : timer ∈ world.pending)
    (hcareful : world.IsSubscribed → Staging.waiting Stage.isOver stages = []) :
    Kept mockMode (stages ++ [(.poll, Stage.begins (world.expire timer))])
        (world.expire timer) := by
  have horderly := hkept.toIsOrderly.expire timer
  have hfits : (Stage.begins (world.expire timer)).Fits (world.expire timer) :=
    Stage.fits_begins horderly
  have hmock : mockMode = true → False := by
    intro hmode
    rw [(hkept.mock hmode).1] at hpending
    exact absurd hpending List.not_mem_nil
  by_cases hsubscribed : world.IsSubscribed
  · have hwaiting : Staging.waiting Stage.isOver
        (stages ++ [(Origin.poll, Stage.begins (world.expire timer))]) =
          Staging.waiting Stage.isOver [(Origin.poll, Stage.begins (world.expire timer))] := by
      rw [Staging.waiting_append, hcareful hsubscribed, List.nil_append]
    refine { horderly with one := ?_, fits := ?_, mock := fun hmode ↦ (hmock hmode).elim }
    · rw [hwaiting]
      exact List.length_filter_le _ _
    · rw [hwaiting]
      intro entry hentry
      rw [List.mem_singleton.mp (List.mem_of_mem_filter hentry)]
      exact hfits
  · have hover : Stage.begins (world.expire timer) = .ended := Stage.begins_over hsubscribed
    have hwaiting : Staging.waiting Stage.isOver
        (stages ++ [(Origin.poll, Stage.begins (world.expire timer))]) =
          Staging.waiting Stage.isOver stages := by
      rw [Staging.waiting_append, hover, Staging.waiting_singleton_of_over rfl, List.append_nil]
    refine { horderly with one := ?_, fits := ?_, mock := fun hmode ↦ (hmock hmode).elim }
    · rw [hwaiting]
      exact hkept.one
    · rw [hwaiting]
      exact hkept.fits

theorem Kept.resume (hkept : Kept mockMode stages world) {thread : ℕ} {tag : Origin} {stage : Stage}
    {outcome : Outcome} (hstage : stages[thread]? = some (tag, stage))
    (hcareful : stage.CarefulEnd outcome world) :
    Kept mockMode (stages.set thread (tag, (stage.next outcome world).1))
      (stage.next outcome world).2 := by
  cases hover : stage.isOver with
  | true =>
    have hstay : stage = .ended := by
      cases stage with
      | ended => rfl
      | _ => cases hover
    subst hstay
    have hsame : stages.set thread (tag, .ended) = stages := by
      obtain ⟨hbound, hentry⟩ := List.getElem?_eq_some_iff.mp hstage
      rw [← hentry, List.set_getElem_self]
    rw [show (Stage.ended.next outcome world) = (.ended, world) from rfl, hsame]
    exact hkept
  | false =>
    have hmem : (tag, stage) ∈ Staging.waiting Stage.isOver stages :=
      Staging.mem_waiting.mpr ⟨List.mem_of_getElem? hstage, hover⟩
    obtain ⟨horderly, hfits⟩ :=
      stage.next_orderly hkept.toIsOrderly (hkept.fits _ hmem) hcareful
    have hwaiting := Staging.waiting_set_of_length_le_one hstage hover hkept.one
      (tag, (stage.next outcome world).1)
    refine { horderly with one := ?_, fits := ?_, mock := fun hmode ↦ ?_ }
    · rw [hwaiting]
      exact List.length_filter_le _ _
    · rw [hwaiting]
      intro entry hentry
      rw [List.mem_singleton.mp (List.mem_of_mem_filter hentry)]
      exact hfits
    · rw [(hkept.mock hmode).2.2] at hmem
      exact absurd hmem List.not_mem_nil

theorem carefulEnd_of_isCareful {thread : ℕ} {tag : Origin} {stage : Stage} {outcome : Outcome}
    (hstage : stages[thread]? = some (tag, stage))
    (hcareful : IsCareful (staging.system stages world) thread outcome) :
    stage.CarefulEnd outcome world := by
  have hthread : (staging.system stages world).threads[thread]? = some (tag, stage.program) := by
    rw [Staging.getElem_threads, hstage]
    rfl
  cases stage with
  | creating sub xaddr => exact hcareful.owned _ _ _ _ hthread
  | pulling sub url => exact hcareful.pulled _ _ _ hthread
  | processing sub notifications => exact hcareful.processed _ _ _ hthread
  | renewing sub url => trivial
  | ended => trivial

theorem Kept.step (hkept : Kept mockMode stages world) (subscriptionStep : SubscriptionStep)
    (hcareful : subscriptionStep.IsCareful (staging.system stages world)) :
    Kept mockMode (subscriptionStep.apply mockMode stages world).1
      (subscriptionStep.apply mockMode stages world).2 := by
  cases subscriptionStep with
  | subscribe camera => exact hkept.subscribe camera
  | unsubscribe => exact hkept.unsubscribe
  | fire timer =>
    unfold SubscriptionStep.apply
    dsimp only
    split_ifs with hpending
    · exact hkept.fire hpending fun hsubscribed ↦
        (Staging.forall_thread_iff Stage.isOver_program).mp (hcareful hpending hsubscribed)
    · exact hkept
  | resume thread outcome =>
    unfold SubscriptionStep.apply
    dsimp only
    cases hstage : stages[thread]? with
    | none => exact hkept
    | some entry => exact hkept.resume hstage (carefulEnd_of_isCareful hstage hcareful)
  | tick reading =>
    exact ⟨⟨hkept.known, hkept.single, hkept.unsubscribed, hkept.active,
      hkept.current, hkept.owned⟩, hkept.one, hkept.fits, hkept.mock⟩

/-- The subscriptions of a camera neither leak nor double in a run whose steps are careful. -/
theorem eachState_isTidy (mockMode : Bool) (steps : List SubscriptionStep) :
    EachMove (Onvif.step mockMode) (fun system subscriptionStep ↦ subscriptionStep.IsCareful system)
        initial steps →
      EachState (Onvif.step mockMode) IsTidy initial steps := by
  intro heach
  refine heach.eachState (fun system ↦ ∃ stages world,
    system = staging.system stages world ∧ Kept mockMode stages world)
    ⟨[], {}, rfl, kept_nil mockMode⟩ ?_ ?_
  · rintro _ ⟨stages, world, rfl, hkept⟩
    exact isTidy_system hkept
  · rintro _ subscriptionStep ⟨stages, world, rfl, hkept⟩ hcareful
    exact ⟨_, _, step_system mockMode subscriptionStep, hkept.step subscriptionStep hcareful⟩

end Runs

/-- A camera with an address. -/
def gate : CameraSubscriptionInput where
  name := "gate"
  ip := some "10.0.0.5"
  port := none
  onvifXAddr := none
  username := none
  password := none

/-- A pull point is created, and the camera is unsubscribed. -/
def timelyAddress : List SubscriptionStep :=
  [.subscribe gate, .fire 0, .resume 1 { address := some "http://10.0.0.5/events/7" }, .unsubscribe]

theorem eachState_isTidy_timelyAddress : EachState (step false) IsTidy initial timelyAddress := by
  refine eachState_isTidy false timelyAddress ?_
  refine eachMove_cons.mpr ⟨trivial, eachMove_cons.mpr ⟨fun _ _ ↦ ?_, eachMove_cons.mpr
    ⟨?_, eachMove_cons.mpr ⟨trivial, eachMove_nil⟩⟩⟩⟩
  · have hover : ((step false initial (.subscribe gate)).threads.all fun thread ↦ thread.2.isOver) =
        true := rfl
    exact List.all_eq_true.mp hover
  · have hthread : (step false (step false initial (.subscribe gate)) (.fire 0)).threads[1]? =
        some (.poll, Stage.program (.creating 0 gate.xaddr)) := rfl
    have hcall : ∀ {tag : Origin} {call : Call} {next : Reply call → Async Unit},
        (step false (step false initial (.subscribe gate)) (.fire 0)).threads[1]? =
          some (tag, .await call next) → call = .createPullPoint 0 gate.xaddr := by
      intro tag call next hfound
      rw [hthread] at hfound
      exact (Program.await.inj (Prod.mk.inj (Option.some.inj hfound)).2).1.symm
    refine ⟨fun tag sub xaddr next hfound url _ _ ↦ ?_, fun tag url next hfound ↦ ?_,
      fun tag notifications next hfound ↦ ?_⟩
    · cases hcall hfound
      rfl
    · cases hcall hfound
    · cases hcall hfound

/-- The camera is unsubscribed before the address of the pull point comes. -/
def lateAddress : List SubscriptionStep :=
  [.subscribe gate, .fire 0, .unsubscribe, .resume 1 { address := some "http://10.0.0.5/events/7" }]

theorem not_isTidy_lateAddress : ¬ EachState (step false) IsTidy initial lateAddress := by
  intro heach
  have hended := (heach lateAddress List.prefix_rfl).ended
  have hreturned : ((runMoves (step false) initial lateAddress).threads.all
      fun thread ↦ thread.2.isOver) = true := rfl
  have howed : owed (runMoves (step false) initial lateAddress).world.log =
      ["http://10.0.0.5/events/7"] := rfl
  have hnone := (hended rfl (List.all_eq_true.mp hreturned)).2
  rw [howed] at hnone
  cases hnone

end VmsLite.Onvif
