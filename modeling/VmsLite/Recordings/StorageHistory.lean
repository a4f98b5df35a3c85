import VmsLite.Async.Exclusion
import VmsLite.Recordings.ScanParts

/-!
# The history of the storage events

`getStorageMetrics` compares its reading with the health status and the protected overflow that the
process remembers, and emits an event at each change of one of them. The status is remembered before
its event is emitted, the overflow after. Storage ticks, storage checks and requests for the metrics
overlap, and an event is on the bus only when its row has been written.

The events form a history when each tells a change from where the one before ended (`Linked`). They
do in every run in which a call that finds the status changed finds the event of the last change on
the bus, and an event on protected footage reaches the bus while the overflow it was compared with
is still remembered (`isConsistent_of_upToDate`). The process does not restart in the middle of a
history.
-/

set_option autoImplicit false

namespace VmsLite.Recordings

open VmsLite.Async Program

/-! ### Changes that follow on each other -/

section Linked

variable {α : Type}

/-- Changes, each from a value to another: every one begins where the one before ended. -/
def Linked (initial : α) : List (α × α) → Prop
  | [] => True
  | change :: changes => change.1 = initial ∧ Linked change.2 changes

/-- The value after the changes. -/
def latest (initial : α) (changes : List (α × α)) : α :=
  changes.foldl (fun _ change ↦ change.2) initial

@[simp] theorem latest_concat (initial : α) (changes : List (α × α)) (change : α × α) :
    latest initial (changes ++ [change]) = change.2 := by
  unfold latest
  rw [List.foldl_append]
  rfl

theorem linked_concat {initial : α} {changes : List (α × α)} {change : α × α} :
    Linked initial (changes ++ [change]) ↔
      Linked initial changes ∧ change.1 = latest initial changes := by
  induction changes generalizing initial with
  | nil => exact ⟨fun h ↦ ⟨trivial, h.1⟩, fun h ↦ ⟨h.2, trivial⟩⟩
  | cons first changes ih =>
    show first.1 = initial ∧ Linked first.2 (changes ++ [change]) ↔ _
    rw [ih]
    exact and_assoc.symm

end Linked

/-! ### The property -/

/-- What a `storage.health_changed` event tells. -/
def BusEvent.healthChange : BusEvent → Option (StorageHealthStatus × StorageHealthStatus)
  | .storageHealthChanged previousStatus status _ _ _ => some (previousStatus, status)
  | _ => none

/-- What a `storage.protected_overflow` or `storage.protected_recovered` event tells. -/
def BusEvent.overflowChange : BusEvent → Option (Bool × Bool)
  | .protectedOverflow .. => some (false, true)
  | .protectedRecovered .. => some (true, false)
  | _ => none

def healthChanges (world : World) : List (StorageHealthStatus × StorageHealthStatus) :=
  world.emitted.filterMap BusEvent.healthChange

def overflowChanges (world : World) : List (Bool × Bool) :=
  world.emitted.filterMap BusEvent.overflowChange

/-- Every `storage.health_changed` event tells a change from the status of the one before, or from
the first status; overflow and recovery alternate, beginning with overflow. -/
structure IsConsistent (initial : StorageHealthStatus) (world : World) : Prop where
  health : Linked initial (healthChanges world)
  overflow : Linked false (overflowChanges world)

/-- The requests, checks and ticks of storage controllers, under a condition on the calls made. -/
inductive StorageMove (condition : Call → Outcome → World → Prop)
    (system : System Call Reply Failure World Unit) :
    Move Call Reply Failure Outcome EnvironmentChange Unit → Prop
  | metrics (controller : StorageController) : StorageMove condition system
      (.start () (controller.getStorageMetrics.bind fun _ ↦ done ()))
  | check (controller : StorageController) : StorageMove condition system
      (.start () (controller.checkStorage.bind fun _ ↦ done ()))
  | tick (controller : StorageController) : StorageMove condition system
      (.start () controller.tickStorage)
  | advance (thread : ℕ) (outcome : Outcome)
    (hcalls : ∀ program, system.threads[thread]? = some ((), program) →
      machine.ResumeCalls condition outcome program system.world) :
    StorageMove condition system (.advance thread outcome)
  | environment (event : EnvironmentChange) : StorageMove condition system (.environment event)

/-- A run of storage controllers in one process, as far as it has come. -/
structure StorageRun (condition : StorageHealthStatus → Call → Outcome → World → Prop) where
  world : World
  system : System Call Reply Failure World Unit
  emitted : world.emitted = []
  protectedOverflow : world.protectedOverflow = false
  reached : Reaches machine.move (StorageMove (condition world.lastHealthStatus))
    { threads := [], world := world } system

/-- A call that finds the status changed finds the event of the last change on the bus. An event on
protected footage reaches the bus while the overflow it tells a change from is remembered. -/
def UpToDate (initial : StorageHealthStatus) : Call → Outcome → World → Prop
  | .exchangeHealthStatus status, _, world =>
    status ≠ world.lastHealthStatus → latest initial (healthChanges world) = world.lastHealthStatus
  | .emitEvent event, _, world =>
    ∀ change ∈ event.overflowChange, change.1 = world.protectedOverflow
  | _, _, _ => True

/-! ### The typestate of a thread -/

/-- Where a thread is in its measurement: it may owe the event of a change. -/
inductive MeasureState
  | idle
  | changed (previousStatus status : StorageHealthStatus)
  | told
  | compared (protectedOverflow : Bool)
  | alerted (overflow : Bool)

/-- Calls that neither touch what is remembered nor tell a change of it. -/
def Call.isPlain : Call → Bool
  | .exchangeHealthStatus _ | .getProtectedOverflow | .setProtectedOverflow _ => false
  | .emitEvent event => event.healthChange.isNone && event.overflowChange.isNone
  | _ => true

def measurePermits : MeasureState → Call → Prop
  | .idle, .exchangeHealthStatus _ => True
  | .idle, call => call.isPlain = true
  | .changed previousStatus status, .emitEvent event =>
    event.healthChange = some (previousStatus, status) ∧ event.overflowChange = none
  | .told, .getProtectedOverflow => True
  | .compared protectedOverflow, .emitEvent event =>
    event.healthChange = none ∧ event.overflowChange = some (protectedOverflow, !protectedOverflow)
  | .compared protectedOverflow, .setProtectedOverflow overflow => overflow = protectedOverflow
  | .alerted overflow, .setProtectedOverflow remembered => remembered = overflow
  | _, _ => False

def measureStep : MeasureState → (call : Call) → Reply call → MeasureState
  | .idle, .exchangeHealthStatus status, previousStatus =>
    if status ≠ previousStatus then .changed previousStatus status else .told
  | .changed _ _, _, _ => .told
  | .told, .getProtectedOverflow, protectedOverflow => .compared protectedOverflow
  | .compared protectedOverflow, .emitEvent _, _ => .alerted !protectedOverflow
  | .compared _, .setProtectedOverflow _, _ => .idle
  | .alerted _, _, _ => .idle
  | state, _, _ => state

def measurement : Typestate Call Reply MeasureState where
  permits := measurePermits
  expects := fun _ _ _ ↦ True
  step := measureStep

theorem measurePermits_of_isPlain {call : Call} (hcall : call.isPlain = true) :
    measurePermits .idle call := by
  cases call <;> first | exact hcall | trivial

/-- What a thread may do, state by state. -/
theorem measurePermits_cases {state : MeasureState} {call : Call} (h : measurePermits state call) :
    (state = .idle ∧ call.isPlain = true) ∨
    (∃ status, state = .idle ∧ call = .exchangeHealthStatus status) ∨
    (∃ previousStatus status event, state = .changed previousStatus status ∧ call =
      .emitEvent event ∧
      event.healthChange = some (previousStatus, status) ∧ event.overflowChange = none) ∨
    (state = .told ∧ call = .getProtectedOverflow) ∨
    (∃ protectedOverflow event, state = .compared protectedOverflow ∧ call = .emitEvent event ∧
      event.healthChange = none ∧
        event.overflowChange = some (protectedOverflow, !protectedOverflow)) ∨
    (∃ overflow, state = .compared overflow ∧ call = .setProtectedOverflow overflow) ∨
    (∃ overflow, state = .alerted overflow ∧ call = .setProtectedOverflow overflow) := by
  cases state with
  | idle =>
    cases call with
    | exchangeHealthStatus status => exact Or.inr (Or.inl ⟨status, rfl, rfl⟩)
    | _ => exact Or.inl ⟨rfl, h⟩
  | changed previousStatus status =>
    cases call with
    | emitEvent event =>
      exact Or.inr (Or.inr (Or.inl ⟨previousStatus, status, event, rfl, rfl, h.1, h.2⟩))
    | _ => exact h.elim
  | told =>
    cases call with
    | getProtectedOverflow => exact Or.inr (Or.inr (Or.inr (Or.inl ⟨rfl, rfl⟩)))
    | _ => exact h.elim
  | compared protectedOverflow =>
    cases call with
    | emitEvent event =>
      exact Or.inr (Or.inr
        (Or.inr (Or.inr (Or.inl ⟨protectedOverflow, event, rfl, rfl, h.1, h.2⟩))))
    | setProtectedOverflow overflow =>
      obtain rfl : overflow = protectedOverflow := h
      exact Or.inr (Or.inr (Or.inr (Or.inr (Or.inr (Or.inl ⟨overflow, rfl, rfl⟩)))))
    | _ => exact h.elim
  | alerted overflow =>
    cases call with
    | setProtectedOverflow remembered =>
      obtain rfl : remembered = overflow := h
      exact Or.inr (Or.inr (Or.inr (Or.inr (Or.inr (Or.inr ⟨remembered, rfl, rfl⟩)))))
    | _ => exact h.elim

theorem measureStep_of_isPlain {call : Call} (hcall : call.isPlain = true) (reply : Reply call) :
    measureStep .idle call reply = .idle := by
  cases call <;> first | rfl | cases hcall

/-! ### The programs follow it -/

/-- A program that is between measurements at its start and at its end. -/
abbrev Measures {α : Type} (program : Async α) : Prop := Settles measurement (· = .idle) program

theorem Measures.of_plain {α : Type} {program : Async α}
    (huses : program.Uses (Call.isPlain · = true)) :
    Measures program := by
  refine Settles.of_uses huses fun call state hcall hidle ↦ ?_
  obtain rfl := hidle
  exact ⟨measurePermits_of_isPlain hcall, fun reply _ ↦ measureStep_of_isPlain hcall reply⟩

theorem Call.isPlain_of_consults {call : Call} (hcall : call.consults = true) :
    call.isPlain = true := by
  cases call <;> first | rfl | cases hcall

theorem Call.isPlain_of_deletes {call : Call} (hcall : call.deletes = true) :
    call.isPlain = true := by
  cases call <;> first | rfl | cases hcall

namespace StorageController

variable (controller : StorageController)

/-- The event of a change of the status is emitted when there is one. -/
theorem emitHealth_follows {event : Option BusEvent} {previousStatus status : StorageHealthStatus}
    (hnone : event = none → status = previousStatus)
    (hsome : ∀ emitted ∈ event, status ≠ previousStatus ∧
      emitted.healthChange = some (previousStatus, status) ∧ emitted.overflowChange = none) :
    (emitSome event).Follows measurement (fun _ ↦ (· = .told)) (fun _ ↦ (· = .idle))
      (measureStep .idle (.exchangeHealthStatus status) previousStatus) := by
  cases event with
  | none => exact if_neg (not_not.mpr (hnone rfl))
  | some emitted =>
    obtain ⟨hchanged, hevent⟩ := hsome emitted rfl
    have hstep : measureStep .idle (.exchangeHealthStatus status) previousStatus =
        .changed previousStatus status := if_pos hchanged
    rw [hstep]
    exact ⟨hevent, fun _ _ ↦ rfl⟩

/-- The overflow is remembered once the event of its change, if there is one, is on the bus. -/
theorem emitOverflow_follows {α : Type} {rest : Unit → Async α} {event : Option BusEvent}
    {overflow protectedOverflow : Bool} (hnone : event = none → overflow = protectedOverflow)
    (hsome : ∀ emitted ∈ event, overflow = !protectedOverflow ∧ emitted.healthChange = none ∧
      emitted.overflowChange = some (protectedOverflow, !protectedOverflow))
    (hrest : Measures (rest ())) :
    ((emitSome event).bind fun _ ↦ (call (.setProtectedOverflow overflow)).bind rest).Follows
      measurement (fun _ ↦ (· = .idle)) (fun _ ↦ (· = .idle)) (.compared protectedOverflow) := by
  cases event with
  | none => exact ⟨hnone rfl, fun _ _ ↦ hrest _ rfl⟩
  | some emitted =>
    obtain ⟨rfl, hevent⟩ := hsome emitted rfl
    exact ⟨hevent, fun _ _ ↦ ⟨rfl, fun _ _ ↦ hrest _ rfl⟩⟩

theorem getStorageMetrics_measures : Measures controller.getStorageMetrics := by
  unfold getStorageMetrics
  refine Settles.bind (Measures.of_plain (Uses.request rfl)) fun _ ↦ ?_
  refine Settles.bind (Settles.catching (Settles.bind (Measures.of_plain
    ((statfsUpwards_uses _ _).mono fun _ ↦ Call.isPlain_of_consults)) fun _ ↦ Settles.done _)
      fun _ ↦ Settles.done _) fun reading ↦ ?_
  refine Settles.bind (Settles.catching (Measures.of_plain
    (controller.retention.protectedBytes_uses.mono fun _ ↦ Call.isPlain_of_consults))
      fun _ ↦ Settles.done _) fun protectedBytes ↦ ?_
  refine Settles.bind (Settles.bind (Measures.of_plain (Uses.request rfl)) fun reply ↦ ?_)
    fun canary ↦ ?_
  · cases reply with
    | ok latencyMs => exact Settles.done _
    | error _ => exact Settles.done _
  rintro state rfl
  refine ⟨trivial, fun previousStatus _ ↦ ?_⟩
  refine (emitHealth_follows (fun hnone ↦ ?_) fun emitted hemitted ↦ ?_).bind ?_
  · by_contra hchanged
    rw [if_pos hchanged] at hnone
    cases hnone
  · split_ifs at hemitted with hchanged
    · cases hemitted
      exact ⟨hchanged, rfl, rfl⟩
    · cases hemitted
  rintro _ state rfl
  refine ⟨trivial, fun protectedOverflow _ ↦ ?_⟩
  dsimp only
  generalize decide (controller.maxProtectedThresholdPercent ≤ _) = overflow
  refine emitOverflow_follows (fun hnone ↦ ?_) (fun emitted hemitted ↦ ?_) (Settles.done _)
  · cases overflow <;> cases protectedOverflow <;> first | rfl | cases hnone
  · cases overflow <;> cases protectedOverflow <;> cases hemitted
    · exact ⟨rfl, rfl, rfl⟩
    · exact ⟨rfl, rfl, rfl⟩

theorem purgePass_measures {opts : PurgeOptions} (hcontinue : Measures (continues opts))
    (statuses : Option (List SegmentStatus)) (iterations : ℕ) (progress : PurgeProgress) :
    Measures (controller.purgePass opts statuses iterations progress) := by
  induction iterations generalizing progress with
  | zero => exact Settles.done _
  | succ iterations ih =>
    refine Settles.bind (Settles.bind (Measures.of_plain (Uses.request rfl)) fun _ ↦
      Settles.orThrow _) fun candidates ↦ ?_
    split_ifs
    · exact Settles.done _
    refine hcontinue.bind fun goesOn ↦ ?_
    split_ifs
    · refine Settles.bind (Measures.of_plain ((controller.retention.deletable_consults _ _ _).mono
        fun _ ↦ Call.isPlain_of_consults)) fun deletable ↦ ?_
      refine Settles.bind (Settles.foldlM (fun progress segment _ ↦ Measures.of_plain ?_) _)
        fun progress ↦ ?_
      · exact controller.deleteCandidate_uses (fun _ ↦ Call.isPlain_of_deletes) _ progress segment
      · split_ifs
        · exact Settles.done _
        · exact ih _
    · exact Settles.done _

theorem deleteOldestSegments_measures {opts : PurgeOptions}
    (hcontinue : Measures (continues opts)) :
    Measures (controller.deleteOldestSegments opts) := by
  unfold deleteOldestSegments
  generalize PurgeProgress.mk 0 0 false 0 0 = progress
  induction passes opts.mode generalizing progress with
  | nil => exact Settles.done _
  | cons statuses passes ih =>
    refine Settles.bind (controller.purgePass_measures hcontinue _ _ _) fun passed ↦ ?_
    dsimp only
    split_ifs
    · exact Settles.done _
    · exact ih _

theorem rollover_measures (initialMetrics : StorageMetrics) :
    Measures (controller.rollover initialMetrics) := by
  have hplain : ∀ event : Option BusEvent,
    (∀ emitted ∈ event, (Call.emitEvent emitted).isPlain = true) →
      Measures (emitSome event) := fun event hevent ↦ Measures.of_plain (emitSome_uses hevent)
  unfold rollover
  refine Settles.bind (Measures.of_plain (Uses.request rfl)) fun _ ↦ ?_
  refine Settles.bind (Measures.of_plain
    (reconcilePendingDeletions_uses.mono fun _ ↦ Call.isPlain_of_deletes)) fun _ ↦ ?_
  refine Settles.bind (controller.deleteOldestSegments_measures
    (controller.getStorageMetrics_measures.bind fun _ ↦ Settles.done _)) fun purged ↦ ?_
  refine Settles.bind controller.getStorageMetrics_measures fun currentMetrics ↦ ?_
  refine Settles.bind (hplain _ fun event hevent ↦ ?_) fun _ ↦ ?_
  · split_ifs at hevent <;> cases hevent
    rfl
  exact Settles.bind (Measures.of_plain (Uses.request rfl)) fun _ ↦ Settles.done _

theorem checkStorage_measures : Measures controller.checkStorage := by
  unfold checkStorage
  refine Settles.bind controller.getStorageMetrics_measures fun initialMetrics ↦ ?_
  dsimp only
  split_ifs
  · exact Settles.done _
  · exact Settles.done _
  · exact Settles.done _
  · exact Settles.done _
  · exact Settles.bind (Measures.of_plain (Uses.request rfl)) fun _ ↦ Settles.done _
  · exact controller.rollover_measures initialMetrics

theorem tickStorage_measures : Measures controller.tickStorage := by
  unfold tickStorage
  refine Settles.catching ?_ fun _ ↦ Settles.done _
  refine Settles.bind (controller.deleteOldestSegments_measures (Settles.done _)) fun _ ↦ ?_
  exact Settles.bind controller.checkStorage_measures fun _ ↦ Settles.done _

/-- A tick first asks for the oldest rows, or for the metrics if it may not ask once. -/
theorem tickStorage_settleCalls (condition : Call → Outcome → World → Prop) (world : World) :
    machine.SettleCalls condition controller.tickStorage world := by
  rcases controller with ⟨_, _, _, _, _, _, _, _ | iterations⟩
  · exact nofun
  · exact nofun

end StorageController

/-! ### What the calls keep -/

/-- What is remembered and what was told. -/
def storageView (world : World) :=
  (world.lastHealthStatus, world.protectedOverflow, healthChanges world, overflowChanges world)

theorem storageView_answer {call : Call} (hcall : call.isPlain = true) (outcome : Outcome)
    (world : World) : storageView (answer call outcome world).2 = storageView world := by
  cases call with
  | createRecording data =>
    rcases World.answerCreate_cases world data outcome with ⟨_, hanswer⟩ | ⟨_, hanswer⟩
    all_goals simp only [Recordings.answer, hanswer] <;> rfl
  | updateRecordingTier id tier =>
    rcases World.answerUpdate_cases world id { retentionTier := some tier } outcome with
      ⟨_, hanswer⟩ | ⟨_, hanswer⟩
    all_goals simp only [Recordings.answer, hanswer] <;> rfl
  | updateRecordingStatus id status errorReason =>
    rcases World.answerUpdate_cases world id
      { status := some status, errorReason := some errorReason } outcome with
      ⟨_, hanswer⟩ | ⟨_, hanswer⟩
    all_goals simp only [Recordings.answer, hanswer] <;> rfl
  | deleteRecording id =>
    rcases World.answerDelete_cases world id outcome with hanswer | ⟨_, hanswer⟩
    all_goals simp only [Recordings.answer, hanswer] <;> rfl
  | unlink path =>
    rcases World.answerUnlink_cases world path outcome with ⟨_, hanswer⟩ | ⟨_, hanswer, -⟩
    all_goals simp only [Recordings.answer, hanswer] <;> rfl
  | deleteCamera cameraId =>
    simp only [Recordings.answer, World.answerDeleteCamera]
    split
    · rfl
    · split_ifs <;> rfl
  | emitEvent event =>
    obtain ⟨hhealth, hoverflow⟩ := Bool.and_eq_true_iff.mp hcall
    simp only [storageView, healthChanges, overflowChanges, Recordings.answer,
      List.filterMap_append,
      List.filterMap_cons, List.filterMap_nil, Option.isNone_iff_eq_none.mp hhealth,
      Option.isNone_iff_eq_none.mp hoverflow, List.append_nil]
  | exchangeHealthStatus status => cases hcall
  | getProtectedOverflow => cases hcall
  | setProtectedOverflow overflow => cases hcall
  | _ => rfl

/-- A thread that owes the event of a change of the status. -/
def MeasureState.IsChanged : MeasureState → Prop
  | .changed _ _ => True
  | _ => False

/-- The change it owes is the next to tell. -/
def MeasureState.Owes (initial : StorageHealthStatus) (world : World) : MeasureState → Prop
  | .changed previousStatus status => previousStatus = latest initial (healthChanges world) ∧
      status = world.lastHealthStatus ∧ status ≠ previousStatus
  | _ => False

/-- What a thread in the middle of its comparison knows of the overflow. -/
def MeasureState.Recalls (world : World) : MeasureState → Prop
  | .alerted overflow => latest false (overflowChanges world) = overflow
  | .compared protectedOverflow => latest false (overflowChanges world) = world.protectedOverflow ∧
      world.protectedOverflow = protectedOverflow
  | _ => latest false (overflowChanges world) = world.protectedOverflow

/-- The history is consistent, and at most one thread owes the event of a change of the status. -/
structure Tells (initial : StorageHealthStatus) (world : World) (states : List MeasureState) :
    Prop where
  consistent : IsConsistent initial world
  exclusive : Exclusive MeasureState.IsChanged (MeasureState.Owes initial world)
    (latest initial (healthChanges world) = world.lastHealthStatus) states

theorem Tells.of_view {initial : StorageHealthStatus} {world later : World}
    {states : List MeasureState}
    (h : Tells initial world states) (hview : storageView later = storageView world) :
    Tells initial later states := by
  obtain ⟨hstatus, hview⟩ := Prod.mk.inj hview
  obtain ⟨-, hview⟩ := Prod.mk.inj hview
  obtain ⟨hhealth, hoverflow⟩ := Prod.mk.inj hview
  refine ⟨⟨?_, ?_⟩, h.exclusive.mono (fun state _ _ howes ↦ ?_) fun hfree ↦ ?_⟩
  · exact hhealth ▸ h.consistent.health
  · exact hoverflow ▸ h.consistent.overflow
  · cases state with
    | changed previousStatus status =>
      unfold MeasureState.Owes at howes ⊢
      rwa [hhealth, hstatus]
    | _ => exact howes
  · rwa [hhealth, hstatus]

theorem MeasureState.Recalls.of_view {world later : World} {state : MeasureState}
    (h : state.Recalls world) (hview : storageView later = storageView world) :
        state.Recalls later := by
  obtain ⟨-, hview⟩ := Prod.mk.inj hview
  obtain ⟨hremembered, hview⟩ := Prod.mk.inj hview
  obtain ⟨-, hoverflow⟩ := Prod.mk.inj hview
  cases state with
  | alerted overflow => exact (congrArg (latest false) hoverflow).trans h
  | compared protectedOverflow => exact ⟨hoverflow ▸ hremembered ▸ h.1, hremembered.trans h.2⟩
  | _ => exact (congrArg (latest false) hoverflow).trans (h.trans hremembered.symm)

section Answers

variable {initial : StorageHealthStatus} {world : World} {states : List MeasureState} {thread : ℕ}

/-- A reading is compared with the status that is remembered. -/
theorem Tells.exchange (hbound : thread < states.length) {status : StorageHealthStatus}
    (hlatest : status ≠ world.lastHealthStatus →
      latest initial (healthChanges world) = world.lastHealthStatus)
    (h : Tells initial world (states.set thread .idle)) :
    Tells initial { world with lastHealthStatus := status } (states.set thread
      (measureStep .idle (.exchangeHealthStatus status) world.lastHealthStatus)) := by
  refine ⟨⟨h.consistent.health, h.consistent.overflow⟩, ?_⟩
  by_cases hchanged : status ≠ world.lastHealthStatus
  · have hstep : measureStep .idle (.exchangeHealthStatus status) world.lastHealthStatus =
        .changed world.lastHealthStatus status := if_pos hchanged
    rw [hstep]
    refine h.exclusive.replace hbound (fun _ hnot ↦ absurd trivial hnot) (fun hidle ↦ hidle.elim)
      (fun hidle ↦ hidle.elim) fun _ _ ↦ ⟨fun other found hne hother hholds ↦ ?_, fun _ ↦ ?_⟩
    · -- another that owed its event would tell a change that is told already
      rw [← List.getElem?_set_ne hne.symm] at hother
      obtain ⟨howes, -⟩ := h.exclusive.of_holds hother hholds
      cases found with
      | changed previousStatus later =>
        obtain ⟨hprevious, hlater, hne⟩ := howes
        exact hne (hlater.trans (hprevious.trans (hlatest hchanged)).symm)
      | _ => exact hholds
    · exact ⟨(hlatest hchanged).symm, rfl, hchanged⟩
  · rw [not_not] at hchanged
    have hstep : measureStep .idle (.exchangeHealthStatus status) world.lastHealthStatus = .told :=
      if_neg (not_not.mpr hchanged)
    rw [hstep, hchanged]
    exact h.exclusive.replace hbound (fun _ _ ↦ ⟨fun _ _ howes ↦ howes, id⟩)
      (fun hidle ↦ hidle.elim)
      (fun hidle ↦ hidle.elim) fun _ htold ↦ htold.elim

/-- The change that is owed is told. -/
theorem Tells.tell (hbound : thread < states.length) {event : BusEvent}
    {previousStatus status : StorageHealthStatus}
    (hhealth : event.healthChange = some (previousStatus, status))
    (hoverflow : event.overflowChange = none)
    (h : Tells initial world (states.set thread (.changed previousStatus status))) :
    Tells initial { world with emitted := world.emitted ++ [event] } (states.set thread .told) := by
  have hchanges : healthChanges { world with emitted := world.emitted ++ [event] } =
      healthChanges world ++ [(previousStatus, status)] := by
    simp only [healthChanges, List.filterMap_append, List.filterMap_cons, hhealth,
      List.filterMap_nil]
  have hsame : overflowChanges { world with emitted := world.emitted ++ [event] } =
      overflowChanges world := by
    simp only [overflowChanges, List.filterMap_append, List.filterMap_cons, hoverflow,
      List.filterMap_nil, List.append_nil]
  obtain ⟨⟨hprevious, hstatus, -⟩, -⟩ :=
    h.exclusive.of_holds (List.getElem?_set_self hbound) trivial
  refine ⟨⟨?_, ?_⟩, ?_⟩
  · rw [hchanges]
    exact linked_concat.mpr ⟨h.consistent.health, hprevious⟩
  · rw [hsame]
    exact h.consistent.overflow
  · refine h.exclusive.replace hbound (fun hnot ↦ absurd trivial hnot) (fun _ _ _ ↦ ?_)
      (fun _ _ htold ↦ htold.elim) fun hnot ↦ absurd trivial hnot
    rw [hchanges, latest_concat]
    exact hstatus

/-- A thread goes on with the overflow, which no owed event of the status depends on. -/
theorem Tells.goOn {state next : MeasureState} (h : Tells initial world (states.set thread state))
    (hbound : thread < states.length) (hstate : ¬ state.IsChanged) (hnext : ¬ next.IsChanged)
    {later : World} (hstatus : later.lastHealthStatus = world.lastHealthStatus)
    (hhealth : healthChanges later = healthChanges world)
    (hoverflow : Linked false (overflowChanges later)) :
    Tells initial later (states.set thread next) := by
  refine ⟨⟨hhealth ▸ h.consistent.health, hoverflow⟩, ?_⟩
  refine h.exclusive.replace hbound (fun _ _ ↦ ⟨fun found _ howes ↦ ?_, fun hfree ↦ ?_⟩)
    (fun hchanged ↦ absurd hchanged hstate) (fun hchanged ↦ absurd hchanged hstate)
    fun _ hchanged ↦ absurd hchanged hnext
  · cases found with
    | changed previousStatus status =>
      unfold MeasureState.Owes at howes ⊢
      rwa [hhealth, hstatus]
    | _ => exact howes
  · rwa [hhealth, hstatus]

theorem tells_keeps (hbound : thread < states.length) :
    measurement.Keeps machine (UpToDate initial)
      fun world state ↦ Tells initial world (states.set thread state) ∧ state.Recalls world := by
  rintro call outcome world state hcondition hpermits ⟨h, hrecalls⟩
  refine ⟨trivial, ?_⟩
  rcases measurePermits_cases hpermits with ⟨rfl, hcall⟩ | ⟨status, rfl, rfl⟩ |
    ⟨previousStatus, status, event, rfl, rfl, hhealth, hoverflow⟩ | ⟨rfl, rfl⟩ |
    ⟨protectedOverflow, event, rfl, rfl, hhealth, hoverflow⟩ | ⟨overflow, rfl, rfl⟩ |
    ⟨overflow, rfl, rfl⟩
  · have hview := storageView_answer hcall outcome world
    show Tells initial _ (states.set thread (measureStep .idle call _)) ∧
      (measureStep .idle call _).Recalls _
    rw [measureStep_of_isPlain hcall]
    exact ⟨h.of_view hview, hrecalls.of_view hview⟩
  · refine ⟨h.exchange hbound hcondition, ?_⟩
    show (if status ≠ world.lastHealthStatus then MeasureState.changed world.lastHealthStatus status
      else MeasureState.told).Recalls { world with lastHealthStatus := status }
    split_ifs
    · exact hrecalls
    · exact hrecalls
  · refine ⟨h.tell hbound hhealth hoverflow, ?_⟩
    show latest false (overflowChanges { world with emitted := world.emitted ++ [event] }) = _
    have hsame : overflowChanges { world with emitted := world.emitted ++ [event] } =
        overflowChanges world := by
      simp only [overflowChanges, List.filterMap_append, List.filterMap_cons, hoverflow,
        List.filterMap_nil, List.append_nil]
    rw [hsame]
    exact hrecalls
  · exact ⟨h.goOn hbound (by exact id) (by exact id) rfl rfl h.consistent.overflow,
      hrecalls, rfl⟩
  · obtain ⟨hlatest, rfl⟩ := hrecalls
    have hchanges : overflowChanges { world with emitted := world.emitted ++ [event] } =
        overflowChanges world ++ [(world.protectedOverflow, !world.protectedOverflow)] := by
      simp only [overflowChanges, List.filterMap_append, List.filterMap_cons, hoverflow,
        List.filterMap_nil]
    have hsame : healthChanges { world with emitted := world.emitted ++ [event] } =
        healthChanges world := by
      simp only [healthChanges, List.filterMap_append, List.filterMap_cons, hhealth,
        List.filterMap_nil, List.append_nil]
    refine ⟨h.goOn hbound (by exact id) (by exact id) rfl hsame ?_, ?_⟩
    · show Linked false (overflowChanges { world with emitted := world.emitted ++ [event] })
      rw [hchanges]
      exact linked_concat.mpr ⟨h.consistent.overflow, hlatest.symm⟩
    · show latest false (overflowChanges { world with emitted := world.emitted ++ [event] }) = _
      rw [hchanges, latest_concat]
  · obtain ⟨hlatest, rfl⟩ := hrecalls
    exact ⟨h.goOn hbound (by exact id) (by exact id) rfl rfl h.consistent.overflow, hlatest⟩
  · exact ⟨h.goOn hbound (by exact id) (by exact id) rfl rfl h.consistent.overflow, hrecalls⟩

end Answers

/-! ### Every run -/

/-- Beside the history: the overflow that is remembered is the one told last, unless a thread is
just about to remember another. -/
def Tells.Settled (initial : StorageHealthStatus) (world : World) (states : List MeasureState) :
    Prop :=
  Tells initial world states ∧
    ((∃ overflow, .alerted overflow ∈ states) ∨
      latest false (overflowChanges world) = world.protectedOverflow)

section Runs

variable {initial : StorageHealthStatus} {system : System Call Reply Failure World Unit}
  {states : List MeasureState} {thread : ℕ}

abbrev Follow (system : System Call Reply Failure World Unit) (states : List MeasureState) : Prop :=
  system.Typed machine measurement (· = .idle) states

/-- No thread waits before it remembers the overflow it has told. -/
theorem not_alerted (htyped : Follow system states) (overflow : Bool) :
    .alerted overflow ∉ states := by
  intro hmem
  obtain ⟨thread, hstate⟩ := List.mem_iff_getElem?.mp hmem
  have hbound : thread < system.threads.length :=
    htyped.length ▸ (List.getElem?_eq_some_iff.mp hstate).1
  have hthread := List.getElem?_eq_getElem hbound
  have hfollows := htyped.follows hstate hthread
  have hsettled := htyped.settled hthread
  generalize system.threads[thread].2 = program at hfollows hsettled
  cases program with
  | done value => cases hfollows
  | failed error => cases hfollows
  | await call next =>
    rcases measurePermits_cases hfollows.1 with ⟨hstate, -⟩ | ⟨_, hstate, -⟩ | ⟨_, _,
      _, hstate, -⟩ |
      ⟨hstate, -⟩ | ⟨_, _, hstate, -⟩ | ⟨_, hstate, -⟩ | ⟨_, -, rfl⟩
    · cases hstate
    · cases hstate
    · cases hstate
    · cases hstate
    · cases hstate
    · cases hstate
    · cases hsettled

/-- A thread that goes on knows what is remembered. -/
theorem recalls_of_resume {outcome : Outcome} {program : Async Unit} {state : MeasureState}
    (hfollows : program.Follows measurement (fun _ ↦ (· = .idle)) (fun _ ↦ (· = .idle)) state)
    (hsettled : program.IsSettled machine.synchronous)
    (hcalls : machine.ResumeCalls (UpToDate initial) outcome program system.world)
    (hlatest : latest false (overflowChanges system.world) = system.world.protectedOverflow) :
    state.Recalls system.world := by
  cases state with
  | idle => exact hlatest
  | changed previousStatus status => exact hlatest
  | told => exact hlatest
  | compared protectedOverflow =>
    refine ⟨hlatest, ?_⟩
    cases program with
    | done value => cases hfollows
    | failed error => cases hfollows
    | await call next =>
      cases call with
      | emitEvent event => exact (hcalls.1 _ hfollows.1.2).symm
      | setProtectedOverflow overflow => cases hsettled
      | _ => exact hfollows.1.elim
  | alerted overflow =>
    cases program with
    | done value => cases hfollows
    | failed error => cases hfollows
    | await call next =>
      cases call with
      | setProtectedOverflow overflow => cases hsettled
      | _ => exact hfollows.1.elim

theorem tells_maintained : Maintains machine measurement (· = .idle)
    (StorageMove (UpToDate initial)) (Tells.Settled initial) where
  start := by
    rintro system tag program states hlegal htyped ⟨htells, hrecalls⟩
    have hlatest := hrecalls.resolve_left fun ⟨overflow, hmem⟩ ↦ not_alerted htyped overflow hmem
    have hstart : Tells initial system.world (states ++ [.idle]) :=
      ⟨htells.consistent, htells.exclusive.append_of_not fun hidle ↦ hidle⟩
    have hkept : ∀ world state, Tells initial world (states ++ [state]) ∧
        latest false (overflowChanges world) = world.protectedOverflow →
          Tells.Settled initial world (states ++ [state]) :=
      fun world state hkept ↦ ⟨hkept.1, Or.inr hkept.2⟩
    -- a program waits for a call before it compares anything with what is remembered
    cases hlegal with
    | metrics controller =>
      exact ⟨states, .idle, fun _ _ _ ↦ False, _, htyped,
        (controller.getStorageMetrics_measures.bind fun _ ↦ Settles.done ()) .idle rfl, nofun,
        fun _ _ _ _ h ↦ h.elim, ⟨hstart, hlatest⟩, hkept⟩
    | check controller =>
      exact ⟨states, .idle, fun _ _ _ ↦ False, _, htyped,
        (controller.checkStorage_measures.bind fun _ ↦ Settles.done ()) .idle rfl, nofun,
        fun _ _ _ _ h ↦ h.elim, ⟨hstart, hlatest⟩, hkept⟩
    | tick controller =>
      exact ⟨states, .idle, fun _ _ _ ↦ False, _, htyped, controller.tickStorage_measures .idle rfl,
        controller.tickStorage_settleCalls _ _, fun _ _ _ _ h ↦ h.elim, ⟨hstart, hlatest⟩, hkept⟩
  advance := by
    rintro system thread outcome tag program states hlegal hthread htyped ⟨htells, hrecalls⟩
    have hlatest := hrecalls.resolve_left fun ⟨overflow, hmem⟩ ↦ not_alerted htyped overflow hmem
    have hbound : thread < states.length :=
      htyped.length ▸ (List.getElem?_eq_some_iff.mp hthread).1
    cases hlegal with
    | advance _ _ hcalls =>
      have hresume := hcalls program hthread
      refine ⟨states, _, _, htyped, hresume, tells_keeps hbound, fun state hstate ↦ ⟨?_, ?_⟩,
        fun world state hkept ↦ ⟨hkept.1, ?_⟩⟩
      · rw [← Option.some.inj ((List.getElem?_eq_getElem hbound).symm.trans hstate),
          List.set_getElem_self]
        exact htells
      · exact recalls_of_resume (htyped.follows hstate hthread) (htyped.settled hthread)
          hresume hlatest
      · cases state with
        | alerted overflow => exact Or.inl ⟨overflow, List.mem_set hbound _⟩
        | compared protectedOverflow => exact Or.inr hkept.2.1
        | _ => exact Or.inr hkept.2
  crash := by
    intro system states hlegal
    cases hlegal
  environment := by
    rintro system event states hlegal htyped ⟨htells, hrecalls⟩
    have hview : storageView (react event system.world) = storageView system.world := by
      cases event <;> rfl
    refine ⟨htells.of_view hview, hrecalls.imp id fun hlatest ↦ ?_⟩
    have hidle : MeasureState.idle.Recalls system.world := hlatest
    exact hidle.of_view hview

end Runs

/-- In a run in which every call finds what it compares with up to date, the events form a
history. -/
theorem isConsistent_of_upToDate (run : StorageRun UpToDate) :
    IsConsistent run.world.lastHealthStatus run.system.world := by
  have hhealth : healthChanges run.world = [] := by rw [healthChanges, run.emitted]; rfl
  have hoverflow : overflowChanges run.world = [] := by rw [overflowChanges, run.emitted]; rfl
  obtain ⟨states, -, htells, -⟩ := run.reached.typed tells_maintained rfl
    ⟨⟨⟨hhealth ▸ trivial, hoverflow ▸ trivial⟩, .nil (by rw [hhealth]; rfl)⟩,
      Or.inr (by rw [hoverflow, run.protectedOverflow]; rfl)⟩
  exact htells.consistent

/-! ### Two requests at once -/

/-- Half of the volume is protected footage. -/
def protectedWorld : World where
  recordings := { rows := [{ yardSegment with isProtected := true }], nextId := 1 }
  volume := { statfs := [(["rec"], { bsize := 1, blocks := 200, bfree := 100 })] }

def recController : StorageController := { recordingsRoot := ["rec"] }

/-- Two requests for the metrics have compared the protected footage before either has its event on
the bus. -/
def overlappingRequests : List (Move Call Reply Failure Outcome EnvironmentChange Unit) :=
  let start := .start () (recController.getStorageMetrics.bind fun _ ↦ done ())
  [start, start] ++ List.replicate 7 (.advance 0 .ok) ++ List.replicate 7 (.advance 1 .ok) ++
    [.advance 0 .ok, .advance 1 .ok]

/-- Both tell the overflow. -/
theorem not_isConsistent_overlapping : ¬ ∀ run : StorageRun fun _ _ _ _ ↦ True,
    IsConsistent run.world.lastHealthStatus run.system.world := by
  intro h
  have hlegal : ∀ move ∈ overlappingRequests, ∀ system,
      StorageMove (fun _ _ _ ↦ True) system move := by
    intro move hmove system
    have hadvance : ∀ thread outcome,
        StorageMove (fun _ _ _ ↦ True) system (.advance thread outcome) :=
      fun thread outcome ↦ .advance thread outcome fun program _ ↦
        Machine.ResumeCalls.of_awaited machine (fun _ _ _ ↦ trivial) fun _ _ _ ↦ trivial
    simp only [overlappingRequests, List.mem_append, List.mem_cons, List.not_mem_nil, or_false,
      List.mem_replicate] at hmove
    rcases hmove with ((hmove | ⟨-, rfl⟩) | ⟨-, rfl⟩) | hmove
    · rcases hmove with rfl | rfl
      · exact .metrics recController
      · exact .metrics recController
    · exact hadvance _ _
    · exact hadvance _ _
    · rcases hmove with rfl | rfl
      · exact hadvance _ _
      · exact hadvance _ _
  have hoverflow := (h ⟨protectedWorld, _, rfl, rfl,
    Reaches.refl.run (LegalRun.of_forall hlegal _)⟩).overflow
  have htold : overflowChanges (runMoves machine.move { threads := [], world := protectedWorld }
      overlappingRequests).world = [(false, true), (false, true)] := by decide +kernel
  rw [htold] at hoverflow
  exact absurd hoverflow.2.1 (by decide)

end VmsLite.Recordings
