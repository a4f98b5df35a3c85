import VmsLite.Analysis.PipelineCoordinator

/-!
# Completed analyses

Deliveries of a segment may be repeated and overlap, calls may fail, and the process may crash
between any two of them. A pair of a recording and a worker whose job is COMPLETED should not be
analysed again, nor saved, nor failed, and no worker should touch another's job.

The coordinator does not look at the status of the job that it is given, and it fails a job that it
has completed when the event cannot be emitted. All is well in every run in which a segment is
delivered only while no delivery of it is under way and no job of a worker for it is COMPLETED
(`Fresh`), and the events of a pair whose job is COMPLETED are emitted (`Emits`,
`staysCompleted_of_fresh`).
-/

set_option autoImplicit false

namespace VmsLite.Analysis

open VmsLite.Async Program
open Recordings (RecordingId Failure)

/-! ### The property -/

/-- A recording and the name of a worker. -/
abbrev Pair := RecordingId × String

/-- The key of the job of a pair. -/
def jobKey (pair : Pair) : RecordingId × String := (pair.1, jobTypeOf pair.2)

/-- The job of a pair is COMPLETED. -/
def World.IsCompleted (world : World) (pair : Pair) : Prop :=
  ∃ job ∈ world.jobs.findByKey (jobKey pair), job.status = .completed

instance (world : World) (pair : Pair) : Decidable (world.IsCompleted pair) :=
  inferInstanceAs (Decidable (∃ job ∈ _, _))

/-- What went wrong: pairs analysed or saved when they were COMPLETED, jobs that were COMPLETED and
are not any more, and pairs whose turn changed the job of another. -/
structure AnalysisLedger where
  repeated : List Pair := []
  reopened : List JobId := []
  strayed : List Pair := []

def AnalysisLedger.repeat (ledger : AnalysisLedger) (world : World) (pair : Pair) :
    AnalysisLedger :=
  if world.IsCompleted pair then { ledger with repeated := pair :: ledger.repeated } else ledger

def observeAnalysis (pair : Pair) : (call : Call) → Reply call → World → AnalysisLedger →
    AnalysisLedger
  | .processSegment .., _, world, ledger => ledger.repeat world pair
  | .createDetection _, .ok _, world, ledger => ledger.repeat world pair
  | .updateJob id data, .ok _, world, ledger =>
    { ledger with
      reopened :=
        if ∃ job ∈ world.jobs.find id, job.status = .completed ∧
            (data.apply job).status ≠ .completed then
          id :: ledger.reopened
        else ledger.reopened
      strayed :=
        if ∃ job ∈ world.jobs.find id, job.key ≠ jobKey pair then pair :: ledger.strayed
        else ledger.strayed }
  | _, _, _, ledger => ledger

/-- The analysis and its ledger. -/
def analysisMachine :
    Machine (Pair × Call) (fun call ↦ Reply call.2) (World × AnalysisLedger) Outcome
        EnvironmentChange :=
  machine.watched observeAnalysis

abbrev AnalysisSystem :=
  System (Pair × Call) (fun call ↦ Reply call.2) Failure (World × AnalysisLedger) Unit

structure StaysCompleted (world : World × AnalysisLedger) : Prop where
  repeated : world.2.repeated = []
  reopened : world.2.reopened = []
  strayed : world.2.strayed = []

/-- Deliveries of segments to coordinators, under a condition on those that are taken up and one on
the calls that are made. -/
inductive AnalysisMove (taken : AnalysisSystem → AiPipelineCoordinator → SegmentCreated → Prop)
    (condition : Pair × Call → Outcome → World → Prop) (system : AnalysisSystem) :
    Move (Pair × Call) (fun call ↦ Reply call.2) Failure Outcome EnvironmentChange Unit → Prop
  | deliver (coordinator : AiPipelineCoordinator) (segment : SegmentCreated)
    (htaken : taken system coordinator segment) : AnalysisMove taken condition system
      (.start () ((coordinator.handleLabelled segment).bind fun _ ↦ done ()))
  | advance (thread : ℕ) (outcome : Outcome)
    (hcall : ∀ call next, system.threads[thread]? = some ((), .await call next) →
      condition call outcome system.world.1) :
      AnalysisMove taken condition system (.advance thread outcome)
  | crash : AnalysisMove taken condition system .crash
  | environment (event : EnvironmentChange) :
    AnalysisMove taken condition system (.environment event)

/-- A run over an empty database, as far as it has come. -/
structure AnalysisRun (taken : AnalysisSystem → AiPipelineCoordinator → SegmentCreated → Prop)
    (condition : Pair × Call → Outcome → World → Prop) where
  now : ℤ
  system : AnalysisSystem
  reached : Reaches analysisMachine.move (AnalysisMove taken condition)
    { threads := [], world := ({ now }, {}) } system

/-- No delivery of the segment is under way, and no job of a worker for it is COMPLETED. -/
def Fresh (system : AnalysisSystem) (coordinator : AiPipelineCoordinator)
    (segment : SegmentCreated) :
    Prop :=
  (∀ (thread : ℕ) (pair : Pair) call next, system.threads[thread]? =
    some ((), .await (pair, call) next) →
    pair.1 ≠ segment.recordingId) ∧
  ∀ worker ∈ coordinator.workers, ¬ system.world.1.IsCompleted (segment.recordingId, worker.name)

/-- The event of a pair whose job is COMPLETED is emitted. -/
def Emits : Pair × Call → Outcome → World → Prop
  | (pair, .emitEvent _), outcome, world => world.IsCompleted pair → outcome.passes = true
  | _, _, _ => True

/-! ### The typestate of a delivery -/

/-- A delivery of a recording: the workers whose jobs it has not completed, and the job it was given
last, with its worker. -/
inductive DeliveryState
  | idle
  | handling (recordingId : RecordingId) (pending : List String) (current : Option (JobId × String))

def deliveryPermits : DeliveryState → Pair → Call → Prop
  | .idle, _, _ => False
  | .handling recordingId pending current, pair, call => pair.1 = recordingId ∧
    match call with
    | .findJobByKey recordingId jobType => pair.2 ∈ pending ∧ (recordingId, jobType) = jobKey pair
    | .createJob data => pair.2 ∈ pending ∧ data.key = jobKey pair
    | .updateJob _ (.claim ..) => False
    | .updateJob id _ => pair.2 ∈ pending ∧ current = some (id, pair.2)
    | .processSegment .. | .createDetection _ => pair.2 ∈ pending
    | .findQueuedJobs .. => False
    | .emitEvent _ => pair.2 ∈ pending ∨ ∃ id, current = some (id, pair.2)
    | _ => True

/-- Only the event of a pair that is pending may fail to be emitted. -/
def deliveryExpects : DeliveryState → Pair → (call : Call) → Reply call → Prop
  | .handling _ pending _, pair, .emitEvent _, reply => reply = .ok () ∨ pair.2 ∈ pending
  | _, _, _, _ => True

def deliveryStep : DeliveryState → Pair → (call : Call) → Reply call → DeliveryState
  | .handling recordingId pending _, pair, .findJobByKey .., .ok (some job) =>
    .handling recordingId pending (some (job.id, pair.2))
  | .handling recordingId pending _, pair, .createJob _, .ok job =>
    .handling recordingId pending (some (job.id, pair.2))
  | .handling recordingId pending current, pair, .updateJob _ (.complete ..), .ok _ =>
    .handling recordingId (pending.filter (· ≠ pair.2)) current
  | state, _, _, _ => state

/-- The typestate of the turn of a pair. -/
def turn (pair : Pair) : Typestate Call Reply DeliveryState where
  permits := fun state call ↦ deliveryPermits state pair call
  expects := fun state call ↦ deliveryExpects state pair call
  step := fun state call ↦ deliveryStep state pair call

def delivery : Typestate (Pair × Call) (fun call ↦ Reply call.2) DeliveryState where
  permits := fun state call ↦ deliveryPermits state call.1 call.2
  expects := fun state call ↦ deliveryExpects state call.1 call.2
  step := fun state call ↦ deliveryStep state call.1 call.2

/-! ### A turn follows it -/

section Turn

variable (coordinator : AiPipelineCoordinator) {segment : SegmentCreated} {worker : AiWorker}
  {pending : List String} {current : Option (JobId × String)}

/-- The state of a delivery of the segment. -/
abbrev stateOf (segment : SegmentCreated) (pending : List String)
    (current : Option (JobId × String)) :
    DeliveryState :=
  .handling segment.recordingId pending current

abbrev pairOf (segment : SegmentCreated) (worker : AiWorker) : Pair :=
  (segment.recordingId, worker.name)

/-- The job of the turn, if there is one, is the current one. -/
def IsCurrent (worker : AiWorker) (jobId : Option JobId) (current : Option (JobId × String)) :
    Prop :=
  ∀ id ∈ jobId, current = some (id, worker.name)

theorem enqueueJob_follows (hpending : worker.name ∈ pending) :
    (coordinator.enqueueJob segment worker).Follows (turn (pairOf segment worker))
      (fun jobId state ↦ ∃ current, state = stateOf segment pending current ∧
        IsCurrent worker jobId current)
      (fun _ _ ↦ False) (stateOf segment pending current) := by
  have hnone : ∀ current, ∃ other, stateOf segment pending current = stateOf segment pending other ∧
      IsCurrent worker none other := fun current ↦ ⟨current, rfl, nofun⟩
  have hsome : ∀ id, IsCurrent worker (some id) (some (id, worker.name)) := by
    rintro id other hother
    rw [← Option.some.inj hother]
  unfold AiPipelineCoordinator.enqueueJob
  split_ifs
  · refine Follows.catching (fun _ state ↦ ∃ current, state = stateOf segment pending current) ?_ ?_
    · refine ⟨⟨rfl, trivial⟩, fun now _ ↦ ⟨⟨rfl, hpending, rfl⟩, fun found _ ↦ ?_⟩⟩
      cases found with
      | error error => exact ⟨_, rfl⟩
      | ok existing =>
        cases existing with
        | some job => exact ⟨_, rfl, hsome job.id⟩
        | none =>
          refine ⟨⟨rfl, hpending, rfl⟩, fun created _ ↦ ?_⟩
          cases created with
          | error error => exact ⟨_, rfl⟩
          | ok job => exact ⟨_, rfl, hsome job.id⟩
    · rintro error state ⟨current, rfl⟩
      exact hnone current
  · exact hnone current

theorem analyse_follows (hpending : worker.name ∈ pending) :
    (AiPipelineCoordinator.analyse segment worker).Follows (turn (pairOf segment worker))
      (fun _ state ↦ state = stateOf segment pending current)
      (fun _ state ↦ state = stateOf segment pending current)
      (stateOf segment pending current) := by
  refine ⟨⟨rfl, trivial⟩, fun ready _ ↦ ?_⟩
  cases ready with
  | error error => rfl
  | ok ready =>
    cases ready with
    | false => rfl
    | true =>
      refine ⟨⟨rfl, hpending⟩, fun result _ ↦ ?_⟩
      cases result with
      | error error => rfl
      | ok result => rfl

theorem recordFailure_follows (hpending : worker.name ∈ pending) {jobId : Option JobId}
    (hcurrent : IsCurrent worker jobId current) (error : Failure) :
    (AiPipelineCoordinator.recordFailure jobId error).Follows (turn (pairOf segment worker))
      (fun _ state ↦ state = stateOf segment pending current) (fun _ _ ↦ False)
      (stateOf segment pending current) := by
  cases jobId with
  | none => exact rfl
  | some id =>
    have hid : current = some (id, worker.name) := hcurrent id rfl
    refine Follows.catching (fun _ state ↦ state = stateOf segment pending current) ?_
      fun _ state hstate ↦ hstate
    refine ⟨⟨rfl, trivial⟩, fun found _ ↦ ?_⟩
    cases found with
    | error error => rfl
    | ok found =>
      cases found with
      | none => rfl
      | some job =>
        refine ⟨⟨rfl, trivial⟩, fun now _ ↦ ?_⟩
        dsimp only
        split_ifs
        all_goals
          refine ⟨⟨rfl, hpending, hid⟩, fun updated _ ↦ ?_⟩
          cases updated <;> rfl

theorem saveDetections_follows (hpending : worker.name ∈ pending)
    (result : AiSegmentAnalysisResult) :
    (saveDetections segment result).Follows (turn (pairOf segment worker))
      (fun _ state ↦ state = stateOf segment pending current)
      (fun _ state ↦ state = stateOf segment pending current)
      (stateOf segment pending current) := by
  refine Follows.foldlM (fun _ state ↦ state = stateOf segment pending current)
    (fun _ item _ state hstate ↦ ?_) rfl
  rw [hstate]
  refine ⟨⟨rfl, hpending⟩, fun created _ ↦ ?_⟩
  cases created <;> rfl

/-- A job that is completed makes its worker pending no more. -/
theorem completeJob_follows (hpending : worker.name ∈ pending) {jobId : Option JobId}
    (hcurrent : IsCurrent worker jobId current) (result : AiSegmentAnalysisResult) :
    (AiPipelineCoordinator.completeJob jobId result).Follows (turn (pairOf segment worker))
      (fun _ state ↦ state = stateOf segment pending current ∨
        state = stateOf segment (pending.filter (· ≠ worker.name)) current ∧
          ∃ id, current = some (id, worker.name))
      (fun _ state ↦ state = stateOf segment pending current)
      (stateOf segment pending current) := by
  cases jobId with
  | none => exact Or.inl rfl
  | some id =>
    have hid : current = some (id, worker.name) := hcurrent id rfl
    refine ⟨⟨rfl, trivial⟩, fun now _ ↦ ⟨⟨rfl, hpending, hid⟩, fun updated _ ↦ ?_⟩⟩
    cases updated with
    | error error => rfl
    | ok job => exact Or.inr ⟨rfl, id, hid⟩

/-- A result is delivered: the worker may be pending no more then. After an error it still is. -/
theorem deliverResult_follows (hpending : worker.name ∈ pending) {jobId : Option JobId}
    (hcurrent : IsCurrent worker jobId current) (result : AiSegmentAnalysisResult) :
    (coordinator.deliverResult segment worker jobId result).Follows (turn (pairOf segment worker))
      (fun _ state ↦ ∃ left, state = stateOf segment left current ∧
        ∀ name ∈ pending, name ≠ worker.name → name ∈ left)
      (fun _ state ↦ state = stateOf segment pending current)
      (stateOf segment pending current) := by
  have hsave : (coordinator.saveResult segment result).Follows (turn (pairOf segment worker))
      (fun _ state ↦ state = stateOf segment pending current)
      (fun _ state ↦ state = stateOf segment pending current)
      (stateOf segment pending current) := by
    unfold AiPipelineCoordinator.saveResult
    split_ifs
    · exact saveDetections_follows hpending result
    · rfl
  refine hsave.bind ?_
  rintro _ state rfl
  refine (completeJob_follows hpending hcurrent result).bind ?_
  unfold AiPipelineCoordinator.emitResult
  rintro _ state (rfl | ⟨rfl, hid⟩)
  · split_ifs
    · refine ⟨⟨rfl, Or.inl hpending⟩, fun emitted _ ↦ ?_⟩
      cases emitted with
      | error error => rfl
      | ok _ => exact ⟨pending, rfl, fun _ hname _ ↦ hname⟩
    · exact ⟨pending, rfl, fun _ hname _ ↦ hname⟩
  · have hleft : ∀ name ∈ pending, name ≠ worker.name → name ∈ pending.filter (· ≠ worker.name) :=
      fun name hname hother ↦ List.mem_filter.mpr ⟨hname, by simpa using hother⟩
    split_ifs
    · refine ⟨⟨rfl, Or.inr hid⟩, fun emitted hemitted ↦ ?_⟩
      have hgone : worker.name ∉ pending.filter (· ≠ worker.name) := by simp
      obtain rfl : emitted = .ok () := hemitted.resolve_right hgone
      exact ⟨_, rfl, hleft⟩
    · exact ⟨_, rfl, hleft⟩

/-- A turn leaves the other workers pending. -/
theorem runWorker_follows (hpending : worker.name ∈ pending)
    (results : List AiSegmentAnalysisResult) :
    (coordinator.runWorker segment worker results).Follows (turn (pairOf segment worker))
      (fun _ state ↦ ∃ left current, state = stateOf segment left current ∧
        ∀ name ∈ pending, name ≠ worker.name → name ∈ left)
      (fun _ _ ↦ False) (stateOf segment pending current) := by
  unfold AiPipelineCoordinator.runWorker
  refine (enqueueJob_follows coordinator hpending).bind ?_
  rintro jobId state ⟨current, rfl, hcurrent⟩
  have hanalysed : ((AiPipelineCoordinator.analyse segment worker).bind fun result ↦
      done (some result)).Follows (turn (pairOf segment worker))
        (fun _ state ↦ state = stateOf segment pending current)
        (fun _ state ↦ state = stateOf segment pending current) (stateOf segment pending current) :=
    (analyse_follows hpending).bind fun result state hstate ↦ hstate
  refine Follows.bind (Follows.catching _ hanalysed ?_) ?_
  · rintro error state rfl
    exact (recordFailure_follows hpending hcurrent error).bind fun _ state hstate ↦ hstate
  rintro analysed state rfl
  cases analysed with
  | none => exact ⟨pending, current, rfl, fun _ hname _ ↦ hname⟩
  | some result =>
    refine Follows.bind (Follows.catching
      _ (deliverResult_follows coordinator hpending hcurrent result)
      ?_) ?_
    · rintro error state rfl
      exact (recordFailure_follows hpending hcurrent error).mono
        (fun _ state hstate ↦ ⟨pending, hstate, fun _ hname _ ↦ hname⟩) fun _ _ h ↦ h
    · rintro _ state ⟨left, rfl, hleft⟩
      exact ⟨left, current, rfl, hleft⟩

end Turn

/-- A delivery follows the typestate, all its workers pending at first. -/
theorem handleLabelled_follows (coordinator : AiPipelineCoordinator) (segment : SegmentCreated) :
    (coordinator.handleLabelled segment).Follows delivery (fun _ _ ↦ True) (fun _ _ ↦ True)
      (stateOf segment (coordinator.workers.map AiWorker.name) none) := by
  have hworkers : ∀ (workers : List AiWorker) results pending current,
      (workers.map AiWorker.name).Nodup → (∀ worker ∈ workers, worker.name ∈ pending) →
      (workers.foldlM (fun results worker ↦
        (coordinator.runWorker segment worker results).labelled (segment.recordingId, worker.name))
          results).Follows delivery (fun _ _ ↦ True) (fun _ _ ↦ True)
              (stateOf segment pending current) := by
    intro workers
    induction workers with
    | nil => exact fun _ _ _ _ _ ↦ trivial
    | cons worker workers ih =>
      intro results pending current hnodup hpending
      obtain ⟨hworker, hworkers⟩ := List.forall_mem_cons.mp hpending
      obtain ⟨hfresh, hnodup⟩ := List.nodup_cons.mp hnodup
      have hturn : ((coordinator.runWorker segment worker results).labelled
          (pairOf segment worker)).Follows delivery
            (fun _ state ↦ ∃ left current, state = stateOf segment left current ∧
              ∀ name ∈ pending, name ≠ worker.name → name ∈ left)
            (fun _ _ ↦ False) (stateOf segment pending current) :=
        Follows.labelled (fun _ _ hpermits ↦ ⟨hpermits, fun _ hexpects ↦ ⟨hexpects, rfl⟩⟩)
          (runWorker_follows coordinator hworker results)
      rw [List.foldlM_cons]
      refine (hturn.mono (fun _ _ h ↦ h) fun _ _ h ↦ h.elim).bind ?_
      rintro later state ⟨left, current, rfl, hleft⟩
      refine ih later left current hnodup fun other hother ↦
        hleft _ (hworkers other hother) fun hsame ↦ ?_
      exact hfresh (hsame ▸ List.mem_map_of_mem hother)
  exact hworkers coordinator.workers [] _ none coordinator.names_nodup
    fun worker hworker ↦ List.mem_map_of_mem hworker

/-! ### What the calls keep -/

theorem isCompleted_iff {world : World} {pair : Pair} :
    world.IsCompleted pair ↔ ∃ job ∈ world.jobs.rows, job.key = jobKey pair ∧ job.status =
        .completed := by
  constructor
  · rintro ⟨job, hfind, hstatus⟩
    obtain ⟨hjob, hkey⟩ := JobTable.findByKey_eq_some_iff.mp hfind
    exact ⟨job, hjob, hkey, hstatus⟩
  · rintro ⟨job, hjob, hkey, hstatus⟩
    exact ⟨job, JobTable.findByKey_eq_some_iff.mpr ⟨hjob, hkey⟩, hstatus⟩

theorem jobKey_inj {first second : Pair} (h : jobKey first = jobKey second) : first = second := by
  obtain ⟨hrecording, htype⟩ := Prod.mk.inj h
  have hname : first.2 = second.2 := by
    have hlists := congrArg String.toList htype
    exact String.toList_inj.mp (by simpa [jobTypeOf, String.toList_append] using hlists)
  exact Prod.ext hrecording hname

/-- The recording that is handled. -/
def DeliveryState.recordingId : DeliveryState → Option RecordingId
  | .idle => none
  | .handling recordingId _ _ => some recordingId

/-- The job with an id is that of a pair, whether there is one or not. -/
def IsJobOf (world : World) (id : JobId) (pair : Pair) : Prop :=
  id < world.jobs.nextId ∧ ∀ job ∈ world.jobs.rows, job.id = id → job.key = jobKey pair

/-- No pending pair is COMPLETED, and the current job is that of its pair, which is pending or
COMPLETED. -/
def DeliveryState.Holds (world : World) : DeliveryState → Prop
  | .idle => True
  | .handling recordingId pending current =>
    (∀ name ∈ pending, ¬ world.IsCompleted (recordingId, name)) ∧
      ∀ id name, current = some (id, name) → IsJobOf world id (recordingId, name) ∧
        (name ∈ pending ∨ world.IsCompleted (recordingId, name))

/-- Jobs with the same rows hold the same states. -/
theorem DeliveryState.Holds.of_jobs {world later : World} {state : DeliveryState}
    (h : state.Holds world) (hjobs : later.jobs = world.jobs) : state.Holds later := by
  cases state with
  | idle => trivial
  | handling recordingId pending current =>
    unfold Holds World.IsCompleted IsJobOf
    rw [hjobs]
    exact h

section Insert

variable {world : World} {data : NewJob} (hfree : world.jobs.findByKey data.key = none)

theorem isCompleted_insert {pair : Pair} :
    World.IsCompleted { world with jobs := world.jobs.insert data hfree } pair ↔
      world.IsCompleted pair := by
  rw [isCompleted_iff, isCompleted_iff]
  constructor
  · rintro ⟨job, hjob, hkey, hstatus⟩
    rcases (@JobTable.mem_insert world.jobs data hfree job).mp hjob with hold | rfl
    · exact ⟨job, hold, hkey, hstatus⟩
    · cases hstatus
  · rintro ⟨job, hjob, hkey, hstatus⟩
    exact ⟨job, (@JobTable.mem_insert world.jobs data hfree job).mpr (Or.inl hjob), hkey, hstatus⟩

theorem IsJobOf.insert {id : JobId} {pair : Pair} (h : IsJobOf world id pair) :
    IsJobOf { world with jobs := world.jobs.insert data hfree } id pair := by
  refine ⟨Nat.lt_succ_of_lt h.1, fun job hjob hid ↦ ?_⟩
  rcases (@JobTable.mem_insert world.jobs data hfree job).mp hjob with hold | rfl
  · exact h.2 job hold hid
  · exact absurd (hid ▸ h.1) (Nat.lt_irrefl _)

theorem isJobOf_created {pair : Pair} (hkey : data.key = jobKey pair) :
    IsJobOf { world with jobs := world.jobs.insert data hfree } world.jobs.nextId pair := by
  refine ⟨Nat.lt_succ_self _, fun job hjob hid ↦ ?_⟩
  rcases (@JobTable.mem_insert world.jobs data hfree job).mp hjob with hold | rfl
  · exact absurd (hid ▸ world.jobs.ids_lt job hold) (Nat.lt_irrefl _)
  · exact hkey

theorem DeliveryState.Holds.insert {state : DeliveryState} (h : state.Holds world) :
    state.Holds { world with jobs := world.jobs.insert data hfree } := by
  cases state with
  | idle => trivial
  | handling recordingId pending current =>
    refine ⟨fun name hname ↦ ?_, fun id name hcurrent ↦ ?_⟩
    · rw [isCompleted_insert]
      exact h.1 name hname
    · obtain ⟨hjob, hcompleted⟩ := h.2 id name hcurrent
      rw [isCompleted_insert]
      exact ⟨hjob.insert hfree, hcompleted⟩

end Insert

section Update

variable {world : World} {id : JobId} {data : JobUpdate}

/-- An update of a pair's job leaves the other pairs as they are. -/
theorem isCompleted_update_other {pair other : Pair} (hjob : IsJobOf world id pair)
    (hother : other ≠ pair) :
    World.IsCompleted { world with jobs := world.jobs.update id data } other ↔
      world.IsCompleted other := by
  have hkeep : ∀ job ∈ world.jobs.rows, job.id = id → job.key ≠ jobKey other :=
    fun job hmem hid hkey ↦ hother (jobKey_inj (hkey.symm.trans (hjob.2 job hmem hid)))
  rw [isCompleted_iff, isCompleted_iff]
  constructor
  · rintro ⟨job, hmem, hkey, hstatus⟩
    obtain ⟨old, hold, rfl⟩ := JobTable.mem_update.mp hmem
    split_ifs at hkey hstatus with hid
    · exact absurd ((data.apply_key old).symm.trans hkey) (hkeep old hold hid)
    · exact ⟨old, hold, hkey, hstatus⟩
  · rintro ⟨job, hmem, hkey, hstatus⟩
    have hid : job.id ≠ id := fun hid ↦ hkeep job hmem hid hkey
    exact ⟨job, JobTable.mem_update.mpr ⟨job, hmem, by rw [if_neg hid]⟩, hkey, hstatus⟩

/-- After an update the pair of its job is COMPLETED or not as the job is. -/
theorem isCompleted_update_self {pair : Pair} (hjob : IsJobOf world id pair) {job : ProcessingJob}
    (hfind : world.jobs.find id = some job) :
    World.IsCompleted { world with jobs := world.jobs.update id data } pair ↔
      (data.apply job).status = .completed := by
  obtain ⟨hmem, hid⟩ := JobTable.find_eq_some_iff.mp hfind
  have hkey : (data.apply job).key = jobKey pair := by
    rw [data.apply_key]
    exact hjob.2 job hmem hid
  have hupdated : data.apply job ∈ (world.jobs.update id data).rows :=
    JobTable.mem_update.mpr ⟨job, hmem, by rw [if_pos hid]⟩
  rw [isCompleted_iff]
  constructor
  · rintro ⟨other, hother, hsame, hstatus⟩
    rw [JobTable.eq_of_key_eq hupdated hother (hkey.trans hsame.symm)]
    exact hstatus
  · exact fun hstatus ↦ ⟨data.apply job, hupdated, hkey, hstatus⟩

theorem IsJobOf.update {other : JobId} {pair : Pair} (h : IsJobOf world other pair) :
    IsJobOf { world with jobs := world.jobs.update id data } other pair := by
  refine ⟨h.1, fun job hmem hid ↦ ?_⟩
  obtain ⟨old, hold, rfl⟩ := JobTable.mem_update.mp hmem
  split_ifs at hid ⊢ with hsame
  · rw [data.apply_key]
    exact h.2 old hold ((data.apply_id old).symm.trans hid)
  · exact h.2 old hold hid

/-- A delivery of another recording does not notice. -/
theorem DeliveryState.Holds.update_other {state : DeliveryState} {pair : Pair}
    (h : state.Holds world) (hjob : IsJobOf world id pair)
    (hother : state.recordingId ≠ some pair.1) :
    state.Holds { world with jobs := world.jobs.update id data } := by
  cases state with
  | idle => trivial
  | handling recordingId pending current =>
    have hsame : ∀ name, World.IsCompleted { world with jobs := world.jobs.update id data }
        (recordingId, name) ↔ world.IsCompleted (recordingId, name) := by
      refine fun name ↦ isCompleted_update_other hjob ?_
      rintro rfl
      exact hother rfl
    refine ⟨fun name hname ↦ ?_, fun id name hcurrent ↦ ?_⟩
    · rw [hsame]
      exact h.1 name hname
    · obtain ⟨hof, hcompleted⟩ := h.2 id name hcurrent
      rw [hsame]
      exact ⟨hof.update, hcompleted⟩

end Update

/-! ### What a call keeps -/

/-- What a call of a delivery is to keep: the ledger is clean, the state after it holds, handling
the same recording, and so does that of any delivery of another one. -/
structure Kept (state : DeliveryState) (pair : Pair) (call : Call)
    (before : World) (answered : Reply call × (World × AnalysisLedger)) : Prop where
  expected : deliveryExpects state pair call answered.1
  clean : StaysCompleted answered.2
  holds : (deliveryStep state pair call answered.1).Holds answered.2.1
  same : (deliveryStep state pair call answered.1).recordingId = state.recordingId
  others : ∀ other : DeliveryState, other.recordingId ≠ some pair.1 → other.Holds before →
    other.Holds answered.2.1

section Answers

variable {world : World × AnalysisLedger} {pair : Pair} {outcome : Outcome} {pending : List String}
  {current : Option (JobId × String)}

/-- A call that changes no job and leaves no trace in the ledger. -/
theorem Kept.of_same {state : DeliveryState} {call : Call}
    {answered : Reply call × (World × AnalysisLedger)} (hclean : StaysCompleted world)
    (hholds : state.Holds world.1) (hexpected : deliveryExpects state pair call answered.1)
    (hjobs : answered.2.1.jobs = world.1.jobs) (hledger : answered.2.2 = world.2)
    (hstep : deliveryStep state pair call answered.1 = state) :
    Kept state pair call world.1 answered where
  expected := hexpected
  clean := by
    refine ⟨?_, ?_, ?_⟩ <;> rw [hledger]
    · exact hclean.repeated
    · exact hclean.reopened
    · exact hclean.strayed
  holds := by
    rw [hstep]
    exact hholds.of_jobs hjobs
  same := by rw [hstep]
  others := fun _ _ hother ↦ hother.of_jobs hjobs

theorem kept_findJobByKey {recordingId : RecordingId} {jobType : String}
    (hclean : StaysCompleted world)
    (hholds : (DeliveryState.handling pair.1 pending current).Holds world.1)
    (hpending : pair.2 ∈ pending)
    (hkey : (recordingId, jobType) = jobKey pair) :
    Kept (.handling pair.1 pending current) pair (.findJobByKey recordingId jobType) world.1
      (analysisMachine.answer (pair, .findJobByKey recordingId jobType) outcome world) := by
  have hanswer : analysisMachine.answer (pair, .findJobByKey recordingId jobType) outcome world =
      (outcome.orFail (world.1.jobs.findByKey (recordingId, jobType)), world) := rfl
  rw [hanswer]
  rcases outcome.orFail_cases (world.1.jobs.findByKey (recordingId, jobType)) with
    hreply | ⟨error, -, hreply⟩
  · rw [hreply]
    cases hfind : world.1.jobs.findByKey (recordingId, jobType) with
    | none => exact Kept.of_same hclean hholds trivial rfl rfl rfl
    | some job =>
      obtain ⟨hjob, hsame⟩ := JobTable.findByKey_eq_some_iff.mp hfind
      have hof : IsJobOf world.1 job.id pair := by
        refine ⟨world.1.jobs.ids_lt job hjob, fun other hother hid ↦ ?_⟩
        rw [JobTable.eq_of_id_eq hother hjob hid, hsame, hkey]
      refine ⟨trivial, hclean, ⟨hholds.1, fun id name hcurrent ↦ ?_⟩, rfl, fun _ _ hother ↦ hother⟩
      obtain ⟨rfl, rfl⟩ := Prod.mk.inj (Option.some.inj hcurrent)
      exact ⟨hof, Or.inl hpending⟩
  · rw [hreply]
    exact Kept.of_same hclean hholds trivial rfl rfl rfl

theorem kept_createJob {data : NewJob} (hclean : StaysCompleted world)
    (hholds : (DeliveryState.handling pair.1 pending current).Holds world.1)
    (hpending : pair.2 ∈ pending)
    (hkey : data.key = jobKey pair) :
    Kept (.handling pair.1 pending current) pair (.createJob data) world.1
      (analysisMachine.answer (pair, .createJob data) outcome world) := by
  have hanswer : analysisMachine.answer (pair, .createJob data) outcome world =
      ((world.1.answerCreate data outcome).1, (world.1.answerCreate data outcome).2, world.2) := rfl
  rw [hanswer]
  rcases world.1.answerCreate_cases data outcome with ⟨error, hcreate⟩ | ⟨hfree, hcreate⟩
  · rw [hcreate]
    exact Kept.of_same hclean hholds trivial rfl rfl rfl
  · rw [hcreate]
    refine ⟨trivial, ⟨hclean.repeated, hclean.reopened, hclean.strayed⟩, ⟨fun name hname ↦ ?_,
      fun id name hcurrent ↦ ?_⟩, rfl, fun _ _ hother ↦ hother.insert hfree⟩
    · rw [isCompleted_insert]
      exact hholds.1 name hname
    · obtain ⟨rfl, rfl⟩ := Prod.mk.inj (Option.some.inj hcurrent)
      exact ⟨isJobOf_created hfree hkey, Or.inl hpending⟩

/-- The state after an update of the current job. -/
theorem deliveryStep_updateJob (id : JobId) (data : JobUpdate) (job updated : ProcessingJob) :
    deliveryStep (.handling pair.1 pending current) pair (.updateJob id data) (.ok updated) =
        .handling pair.1 pending current ∧ (data.apply job).status ≠ .completed ∨
      deliveryStep (.handling pair.1 pending current) pair (.updateJob id data) (.ok updated) =
          .handling pair.1 (pending.filter (· ≠ pair.2)) current ∧
        (data.apply job).status = .completed := by
  cases data with
  | complete completedAt modelVersion => exact Or.inr ⟨rfl, rfl⟩
  | _ => exact Or.inl ⟨rfl, nofun⟩

theorem kept_updateJob {id : JobId} {data : JobUpdate} (hclean : StaysCompleted world)
    (hholds : (DeliveryState.handling pair.1 pending current).Holds world.1)
    (hpending : pair.2 ∈ pending)
    (hcurrent : current = some (id, pair.2)) :
    Kept (.handling pair.1 pending current) pair (.updateJob id data) world.1
      (analysisMachine.answer (pair, .updateJob id data) outcome world) := by
  have hanswer : analysisMachine.answer (pair, .updateJob id data) outcome world =
      ((world.1.answerUpdate id data outcome).1, (world.1.answerUpdate id data outcome).2,
        observeAnalysis pair (.updateJob id data) (world.1.answerUpdate id data outcome).1 world.1
          world.2) := rfl
  rw [hanswer]
  rcases world.1.answerUpdate_cases id data outcome with ⟨error, hupdate⟩ | ⟨job, hfind, hupdate⟩
  · rw [hupdate]
    refine Kept.of_same hclean hholds trivial rfl rfl ?_
    cases data <;> rfl
  · obtain ⟨hmem, hid⟩ := JobTable.find_eq_some_iff.mp hfind
    have hof : IsJobOf world.1 id pair := (hholds.2 id pair.2 hcurrent).1
    have hkey : job.key = jobKey pair := hof.2 job hmem hid
    have hstatus : job.status ≠ .completed :=
      fun hcompleted ↦ hholds.1 pair.2 hpending (isCompleted_iff.mpr ⟨job, hmem, hkey, hcompleted⟩)
    have hself : World.IsCompleted { world.1 with jobs := world.1.jobs.update id data } pair ↔
        (data.apply job).status = .completed := isCompleted_update_self hof hfind
    have hname : ∀ name, name ≠ pair.2 →
        (World.IsCompleted { world.1 with jobs := world.1.jobs.update id data } (pair.1, name) ↔
          world.1.IsCompleted (pair.1, name)) :=
      fun name hne ↦ isCompleted_update_other hof fun hsame ↦ hne (congrArg Prod.snd hsame)
    rw [hupdate]
    refine ⟨trivial, ⟨hclean.repeated, ?_, ?_⟩, ?_, ?_,
      fun other hother hbefore ↦ hbefore.update_other hof hother⟩
    · show (if _ then _ else _) = _
      rw [if_neg]
      · exact hclean.reopened
      · rintro ⟨found, hfound, hcompleted, -⟩
        obtain rfl := Option.some.inj (hfind.symm.trans hfound)
        exact hstatus hcompleted
    · show (if _ then _ else _) = _
      rw [if_neg]
      · exact hclean.strayed
      · rintro ⟨found, hfound, hstrayed⟩
        obtain rfl := Option.some.inj (hfind.symm.trans hfound)
        exact hstrayed hkey
    · have hcurrentOf : ∀ other name, current = some (other, name) → other = id ∧ name = pair.2 :=
        fun other name hother ↦ Prod.mk.inj (Option.some.inj (hother.symm.trans hcurrent))
      rcases deliveryStep_updateJob id data job (data.apply job) with
        ⟨hstep, hopen⟩ | ⟨hstep, hdone⟩
      · rw [hstep]
        refine ⟨fun name hmember ↦ ?_, fun other name hother ↦ ?_⟩
        · by_cases hsame : name = pair.2
          · rw [hsame, hself]
            exact hopen
          · rw [hname name hsame]
            exact hholds.1 name hmember
        · obtain ⟨rfl, rfl⟩ := hcurrentOf other name hother
          exact ⟨hof.update, Or.inl hpending⟩
      · rw [hstep]
        refine ⟨fun name hmember ↦ ?_, fun other name hother ↦ ?_⟩
        · obtain ⟨hmember, hne⟩ := List.mem_filter.mp hmember
          rw [hname name (by simpa using hne)]
          exact hholds.1 name hmember
        · obtain ⟨rfl, rfl⟩ := hcurrentOf other name hother
          exact ⟨hof.update, Or.inr (hself.mpr hdone)⟩
    · rcases deliveryStep_updateJob id data job (data.apply job) with ⟨hstep, -⟩ | ⟨hstep, -⟩
      · rw [hstep]
      · rw [hstep]
        rfl

theorem kept_answer {state : DeliveryState} {call : Call}
    (hemits : Emits (pair, call) outcome world.1)
    (hpermits : deliveryPermits state pair call) (hclean : StaysCompleted world)
    (hholds : state.Holds world.1) :
    state.recordingId = some pair.1 ∧
      Kept state pair call world.1 (analysisMachine.answer (pair, call) outcome world) := by
  cases state with
  | idle => exact hpermits.elim
  | handling recordingId pending current =>
    obtain ⟨rfl, hpermits⟩ := hpermits
    refine ⟨rfl, ?_⟩
    have hrepeat : pair.2 ∈ pending → world.2.repeat world.1 pair = world.2 :=
      fun hpending ↦ if_neg (hholds.1 pair.2 hpending)
    cases call with
    | findJobByKey recordingId jobType =>
      exact kept_findJobByKey hclean hholds hpermits.1 hpermits.2
    | createJob data => exact kept_createJob hclean hholds hpermits.1 hpermits.2
    | findQueuedJobs jobTypes now limit => exact hpermits.elim
    | updateJob id data =>
      cases data with
      | claim startedAt attempts => exact hpermits.elim
      | _ => exact kept_updateJob hclean hholds hpermits.1 hpermits.2
    | processSegment worker segment =>
      exact Kept.of_same hclean hholds trivial rfl (hrepeat hpermits) rfl
    | createDetection data =>
      cases outcome with
      | fail error => exact Kept.of_same hclean hholds trivial rfl rfl rfl
      | _ => exact Kept.of_same hclean hholds trivial rfl (hrepeat hpermits) rfl
    | emitEvent event =>
      have hpending : outcome.passes = false → pair.2 ∈ pending := by
        intro hfails
        rcases hpermits with hpending | ⟨id, hcurrent⟩
        · exact hpending
        · refine (hholds.2 id pair.2 hcurrent).2.resolve_right fun hcompleted ↦ ?_
          exact Bool.false_ne_true (hfails.symm.trans (hemits hcompleted))
      cases outcome with
      | fail error => exact Kept.of_same hclean hholds (Or.inr (hpending rfl)) rfl rfl rfl
      | _ => exact Kept.of_same hclean hholds (Or.inl rfl) rfl rfl rfl
    | _ => exact Kept.of_same hclean hholds trivial rfl rfl rfl

end Answers

/-! ### Every run -/

/-- No two states handle the same recording. -/
def Apart (states : List DeliveryState) : Prop :=
  ∀ (first second : ℕ) (one other : DeliveryState), states[first]? = some one →
    states[second]? = some other → ∀ recordingId, one.recordingId = some recordingId →
      other.recordingId = some recordingId → first = second

structure Undisturbed (world : World × AnalysisLedger) (states : List DeliveryState) : Prop where
  clean : StaysCompleted world
  holds : ∀ state ∈ states, state.Holds world.1
  apart : Apart states

section Runs

variable {world : World × AnalysisLedger} {states : List DeliveryState} {thread : ℕ}
  {state : DeliveryState}

/-- A state of the same recording takes the place of one. -/
theorem Apart.set {next : DeliveryState} (hbound : thread < states.length)
    (h : Apart (states.set thread state)) (hsame : next.recordingId = state.recordingId) :
    Apart (states.set thread next) := by
  have hback : ∀ (index : ℕ) (found : DeliveryState),
    (states.set thread next)[index]? = some found →
      ∃ before, (states.set thread state)[index]? = some before ∧
        before.recordingId = found.recordingId := by
    intro index found hfound
    by_cases hindex : thread = index
    · subst hindex
      rw [List.getElem?_set_self hbound] at hfound
      exact ⟨state, List.getElem?_set_self hbound, Option.some.inj hfound ▸ hsame.symm⟩
    · rw [List.getElem?_set_ne hindex] at hfound
      exact ⟨found, by rw [List.getElem?_set_ne hindex, hfound], rfl⟩
  intro first second one other hone hother recordingId hfirst hsecond
  obtain ⟨oneBefore, honeBefore, honeSame⟩ := hback first one hone
  obtain ⟨otherBefore, hotherBefore, hotherSame⟩ := hback second other hother
  exact h first second oneBefore otherBefore honeBefore hotherBefore recordingId
    (honeSame.trans hfirst) (hotherSame.trans hsecond)

/-- A state that takes a place takes over what is known of it, if the others do not handle the
recording of the call. -/
theorem Undisturbed.answer {pair : Pair} {call : Call} {outcome : Outcome}
    (hbound : thread < states.length)
    (hemits : Emits (pair, call) outcome world.1) (hpermits : deliveryPermits state pair call)
    (h : Undisturbed world (states.set thread state)) :
    deliveryExpects state pair call (analysisMachine.answer (pair, call) outcome world).1 ∧
      Undisturbed (analysisMachine.answer (pair, call) outcome world).2
        (states.set thread
          (deliveryStep state pair call
              (analysisMachine.answer (pair, call) outcome world).1)) := by
  have hself : (states.set thread state)[thread]? = some state := List.getElem?_set_self hbound
  obtain ⟨hrecording, hkept⟩ :=
    kept_answer hemits hpermits h.clean (h.holds state (List.mem_of_getElem? hself))
  refine ⟨hkept.expected, hkept.clean, fun found hfound ↦ ?_, h.apart.set hbound hkept.same⟩
  obtain ⟨index, hindex⟩ := List.mem_iff_getElem?.mp hfound
  by_cases hthread : thread = index
  · subst hthread
    rw [List.getElem?_set_self hbound] at hindex
    rw [← Option.some.inj hindex]
    exact hkept.holds
  · have hbefore : (states.set thread state)[index]? = some found := by
      rw [List.getElem?_set_ne hthread] at hindex ⊢
      exact hindex
    refine hkept.others found (fun hsame ↦ hthread ?_)
      (h.holds found (List.mem_of_getElem? hbefore))
    exact h.apart thread index state found hself hbefore pair.1 hrecording hsame

theorem delivery_keeps (hbound : thread < states.length) :
    delivery.Keeps analysisMachine (fun call outcome world ↦ Emits call outcome world.1)
      fun world state ↦ Undisturbed world (states.set thread state) :=
  fun _ _ _ _ hemits hpermits h ↦ h.answer hbound hemits hpermits

theorem emits_synchronous (call : Pair × Call) (world : World × AnalysisLedger)
    (_ : analysisMachine.synchronous call = true) :
    Emits call analysisMachine.calm world.1 := by
  obtain ⟨pair, call⟩ := call
  cases call with
  | emitEvent event => exact fun _ ↦ rfl
  | _ => trivial

/-- The deliveries of a recording that are over may be taken to handle none. -/
theorem exists_others {system : AnalysisSystem} {recordingId : RecordingId}
    (hfresh : ∀ (thread : ℕ) (pair : Pair) call next,
      system.threads[thread]? = some ((), .await (pair, call) next) → pair.1 ≠ recordingId)
    (htyped : system.Typed analysisMachine delivery (fun _ ↦ True) states)
    (h : Undisturbed system.world states) :
    ∃ others, system.Typed analysisMachine delivery (fun _ ↦ True) others ∧
      Undisturbed system.world others ∧ ∀ other ∈ others, other.recordingId ≠ some recordingId := by
  let leave (state : DeliveryState) : DeliveryState :=
    if state.recordingId = some recordingId then .idle else state
  have hleave : ∀ (thread : ℕ) (found : DeliveryState), (states.map leave)[thread]? = some found →
      ∃ state, states[thread]? = some state ∧
        (state.recordingId = some recordingId ∧ found = .idle ∨
        state.recordingId ≠ some recordingId ∧ found = state) := by
    intro thread found hfound
    rw [List.getElem?_map] at hfound
    obtain ⟨state, hstate, rfl⟩ := Option.map_eq_some_iff.mp hfound
    refine ⟨state, hstate, ?_⟩
    by_cases hsame : state.recordingId = some recordingId
    · exact Or.inl ⟨hsame, if_pos hsame⟩
    · exact Or.inr ⟨hsame, if_neg hsame⟩
  refine ⟨states.map leave, ⟨by rw [List.length_map, htyped.length], ?_, htyped.settled⟩,
    ⟨h.clean, fun found hfound ↦ ?_, ?_⟩, fun found hfound ↦ ?_⟩
  · intro thread found tag program hfound hthread
    obtain ⟨state, hstate, ⟨hsame, rfl⟩ | ⟨-, rfl⟩⟩ := hleave thread found hfound
    · have hfollows := htyped.follows hstate hthread
      cases program with
      | done value => trivial
      | failed error => trivial
      | await call next =>
        obtain ⟨pair, call⟩ := call
        cases state with
        | idle => cases hsame
        | handling other pending current =>
          have hpair : pair.1 = recordingId := hfollows.1.1.trans (Option.some.inj hsame)
          exact absurd hpair (hfresh thread pair call next hthread)
    · exact htyped.follows hstate hthread
  · obtain ⟨index, hindex⟩ := List.mem_iff_getElem?.mp hfound
    obtain ⟨state, hstate, ⟨-, rfl⟩ | ⟨-, rfl⟩⟩ := hleave index found hindex
    · trivial
    · exact h.holds _ (List.mem_of_getElem? hstate)
  · intro first second one other hone hother recordingId hfirst hsecond
    obtain ⟨_, hbefore, ⟨-, rfl⟩ | ⟨-, rfl⟩⟩ := hleave first one hone
    · cases hfirst
    obtain ⟨_, hafter, ⟨-, rfl⟩ | ⟨-, rfl⟩⟩ := hleave second other hother
    · cases hsecond
    exact h.apart first second _ _ hbefore hafter recordingId hfirst hsecond
  · obtain ⟨index, hindex⟩ := List.mem_iff_getElem?.mp hfound
    obtain ⟨state, -, ⟨-, rfl⟩ | ⟨hne, rfl⟩⟩ := hleave index found hindex
    · exact nofun
    · exact hne

/-- A delivery starts while no other of its recording is under way. -/
theorem Undisturbed.append (h : Undisturbed world states) (hstate : state.Holds world.1)
    (hothers : ∀ other ∈ states, ∀ recordingId, state.recordingId = some recordingId →
      other.recordingId ≠ some recordingId) :
    Undisturbed world (states ++ [state]) where
  clean := h.clean
  holds := by
    intro found hfound
    rcases List.mem_append.mp hfound with hold | hnew
    · exact h.holds found hold
    · rw [List.mem_singleton.mp hnew]
      exact hstate
  apart := by
    have hplace : ∀ (index : ℕ) (found : DeliveryState), (states ++ [state])[index]? = some found →
        states[index]? = some found ∨ index = states.length ∧ found = state := by
      intro index found hfound
      rcases Nat.lt_or_ge index states.length with hold | hnew
      · rw [List.getElem?_append_left hold] at hfound
        exact Or.inl hfound
      · rw [List.getElem?_append_right hnew, List.getElem?_singleton] at hfound
        split_ifs at hfound with hindex
        exact Or.inr ⟨by omega, (Option.some.inj hfound).symm⟩
    intro first second one other hone hother recordingId hfirst hsecond
    rcases hplace first one hone with hfirstOld | ⟨rfl, rfl⟩
    · rcases hplace second other hother with hsecondOld | ⟨rfl, rfl⟩
      · exact h.apart first second one other hfirstOld hsecondOld recordingId hfirst hsecond
      · exact absurd hfirst (hothers one (List.mem_of_getElem? hfirstOld) recordingId hsecond)
    · rcases hplace second other hother with hsecondOld | ⟨rfl, rfl⟩
      · exact absurd hsecond (hothers other (List.mem_of_getElem? hsecondOld) recordingId hfirst)
      · rfl

theorem undisturbed_maintained :
    Maintains analysisMachine delivery (fun _ ↦ True) (AnalysisMove Fresh Emits) Undisturbed where
  start := by
    intro system tag program states hlegal htyped h
    cases hlegal with
    | deliver coordinator segment hfresh =>
      obtain ⟨others, hothers, hundisturbed, hapart⟩ := exists_others hfresh.1 htyped h
      let begin := stateOf segment (coordinator.workers.map AiWorker.name) none
      have hholds : begin.Holds system.world.1 := by
        refine ⟨fun name hname ↦ ?_, nofun⟩
        obtain ⟨worker, hworker, rfl⟩ := List.mem_map.mp hname
        exact hfresh.2 worker hworker
      have hstart : Undisturbed system.world (others ++ [begin]) := by
        refine hundisturbed.append hholds fun other hother recordingId hsame ↦ ?_
        rw [← Option.some.inj hsame]
        exact hapart other hother
      have hset : ∀ state, (others ++ [begin]).set others.length state = others ++ [state] := by
        intro state
        rw [List.set_append_right _ _ (Nat.le_refl _), Nat.sub_self, List.set_cons_zero]
      have hbound : others.length < (others ++ [begin]).length := by simp
      refine ⟨others, begin, _, _, hothers, ?_,
        Machine.SettleCalls.of_synchronous analysisMachine emits_synchronous _ _,
        delivery_keeps hbound, ?_, fun world state hkept ↦ hset state ▸ hkept⟩
      · exact (handleLabelled_follows coordinator segment).bind fun _ _ _ ↦ trivial
      · rw [hset]
        exact hstart
  advance := by
    intro system thread outcome tag program states hlegal hthread htyped h
    cases hlegal with
    | advance _ _ hcall =>
      have hbound : thread < states.length :=
        htyped.length ▸ (List.getElem?_eq_some_iff.mp hthread).1
      refine ⟨states, _, _, htyped, ?_, delivery_keeps hbound, fun state hstate ↦ ?_,
        fun _ _ hkept ↦ hkept⟩
      · refine Machine.ResumeCalls.of_awaited analysisMachine emits_synchronous
          fun call next hprogram ↦ ?_
        exact hcall call next (hprogram ▸ hthread)
      · have hsame : states.set thread state = states := by
          rw [← Option.some.inj ((List.getElem?_eq_getElem hbound).symm.trans hstate),
            List.set_getElem_self]
        rw [hsame]
        exact h
  crash := by
    intro system states hlegal h
    exact ⟨h.clean, fun _ hstate ↦ absurd hstate List.not_mem_nil, nofun⟩
  environment := by
    intro system event states hlegal htyped h
    exact ⟨⟨h.clean.repeated, h.clean.reopened, h.clean.strayed⟩,
      fun state hstate ↦ (h.holds state hstate).of_jobs rfl, h.apart⟩

end Runs

/-- As long as segments are fresh and the events of COMPLETED jobs are emitted, no pair is analysed
or saved when it is COMPLETED, nor does its job become another again, no turn touches the job of
another pair, and every worker gets its turn. -/
theorem staysCompleted_of_fresh (run : AnalysisRun Fresh Emits) :
    StaysCompleted run.system.world ∧
      ∀ (coordinator : AiPipelineCoordinator) (segment : SegmentCreated),
        (coordinator.handleLabelled segment).unlabelled = coordinator.handleSegmentCreated segment ∧
          (coordinator.handleSegmentCreated segment).Returns fun _ _ ↦ True := by
  obtain ⟨states, -, hundisturbed⟩ := run.reached.typed undisturbed_maintained rfl
    ⟨⟨rfl, rfl, rfl⟩, fun _ hstate ↦ absurd hstate List.not_mem_nil, nofun⟩
  exact ⟨hundisturbed.clean, fun coordinator segment ↦
    ⟨coordinator.unlabelled_handleLabelled segment,
    coordinator.handleSegmentCreated_returns segment⟩⟩

/-! ### A duplicate -/

/-- One worker, and the same segment delivered again once its job is COMPLETED. -/
def duplicateDelivery :
    List (Move (Pair × Call) (fun call ↦ Reply call.2) Failure Outcome EnvironmentChange Unit) :=
  let coordinator : AiPipelineCoordinator :=
    { workers := [{ name := "motion", version := "1" }], names_nodup := by decide }
  let segment : SegmentCreated := { recordingId := 0, cameraId := "cam", startTime := 0 }
  let delivery := (coordinator.handleLabelled segment).bind fun _ ↦ done ()
  [.start () delivery, .advance 0 .ok, .advance 0 .ok, .advance 0 .ok, .advance 0 .ok,
    .advance 0 .ok, .start () delivery, .advance 1 .ok, .advance 1 .ok, .advance 1 .ok]

/-- It is analysed again. -/
theorem not_staysCompleted_duplicate :
    ¬ ∀ run : AnalysisRun (fun _ _ _ ↦ True) fun _ _ _ ↦ True, StaysCompleted run.system.world := by
  intro h
  have hadvance : ∀ system thread outcome,
      AnalysisMove (fun _ _ _ ↦ True) (fun _ _ _ ↦ True) system (.advance thread outcome) :=
    fun _ thread outcome ↦ .advance thread outcome fun _ _ _ ↦ trivial
  have hlegal : LegalRun analysisMachine.move (AnalysisMove (fun _ _ _ ↦ True) fun _ _ _ ↦ True)
      { threads := [], world := ({ now := 0 }, {}) } duplicateDelivery :=
    ⟨.deliver _ _ trivial, hadvance _ _ _, hadvance _ _ _, hadvance _ _ _, hadvance _ _ _,
      hadvance _ _ _, .deliver _ _ trivial, hadvance _ _ _, hadvance _ _ _, hadvance _ _ _, trivial⟩
  have hcompleted := h ⟨0, _, Reaches.refl.run hlegal⟩
  have hrepeated : (runMoves analysisMachine.move { threads := [], world := ({ now := 0 }, {}) }
      duplicateDelivery).world.2.repeated = [(0, "motion")] := by decide +kernel
  exact absurd (hrepeated.symm.trans hcompleted.repeated) (List.cons_ne_nil _ _)

end VmsLite.Analysis
