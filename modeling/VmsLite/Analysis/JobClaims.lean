import VmsLite.Analysis.ProcessingJobQueue

/-!
# Claims on jobs

Any number of workers enqueue, claim, complete and fail jobs, and their calls overlap. Beside the
world stands a ledger of who holds which job since a claim of theirs, of the jobs whose creation was
refused because there was one already, and of the jobs that left COMPLETED or FAILED. No code reads
it.

A job is held by one worker at a time, attempts stay within their maximum, no creation is refused
and no job leaves a final status, in every run whose calls are `Orderly` (`isSound_of_orderly`). The
queue does not see to that: between the query of `claimNext` and its update, of `enqueue` and its
creation, of `fail` and its update another call may come, and neither `complete` nor `fail` looks at
the status.
-/

set_option autoImplicit false

namespace VmsLite.Analysis

open VmsLite.Async Program

/-! ### The ledger -/

abbrev WorkerId := ℕ

structure Ledger where
  holders : List (WorkerId × JobId) := []
  refused : List NewJob := []
  reopened : List JobId := []

/-- Who holds the jobs after an update by a worker. -/
def Ledger.holdersAfter (ledger : Ledger) (worker : WorkerId) (id : JobId) :
    JobUpdate → List (WorkerId × JobId)
  | .claim .. => (worker, id) :: ledger.holders
  | _ => ledger.holders.filter (· ≠ (worker, id))

/-- An update changes a status that is final. -/
def JobUpdate.Reopens (data : JobUpdate) (job : ProcessingJob) : Prop :=
  job.status.isFinal = true ∧ (data.apply job).status ≠ job.status

instance (data : JobUpdate) (job : ProcessingJob) : Decidable (data.Reopens job) :=
  inferInstanceAs (Decidable (_ ∧ _))

def observe (worker : WorkerId) : (call : Call) → Reply call → World → Ledger → Ledger
  | .createJob data, .error error, world, ledger =>
    if error.code = .p2002 ∧ (world.jobs.findByKey data.key).isSome then
      { ledger with refused := data :: ledger.refused }
    else ledger
  | .updateJob id data, .ok _, world, ledger =>
    { ledger with
      holders := ledger.holdersAfter worker id data
      reopened := if ∃ job ∈ world.jobs.find id, data.Reopens job then id :: ledger.reopened
        else ledger.reopened }
  | _, _, _, ledger => ledger

/-- The queue and its ledger. -/
def queueMachine :
    Machine (WorkerId × Call) (fun call ↦ Reply call.2) (World × Ledger) Outcome
        EnvironmentChange :=
  machine.watched observe

abbrev QueueSystem := System (WorkerId × Call) (fun call ↦ Reply call.2) Recordings.Failure
  (World × Ledger) Unit

/-! ### The property -/

structure IsSound (world : World × Ledger) : Prop where
  exclusive : ∀ first second id, (first, id) ∈ world.2.holders → (second, id) ∈ world.2.holders →
    first = second
  bounded : ∀ job ∈ world.1.jobs.rows, job.attempts ≤ job.maxAttempts
  unique : ∀ first ∈ world.1.jobs.rows, ∀ second ∈ world.1.jobs.rows, first.key = second.key →
    first = second
  answered : world.2.refused = []
  final : world.2.reopened = []

/-- The calls of the queue by workers, under a condition on the calls that are made. -/
inductive QueueMove (condition : WorkerId × Call → Outcome → World × Ledger → Prop)
    (system : QueueSystem) :
    Move (WorkerId × Call) (fun call ↦ Reply call.2) Recordings.Failure Outcome
      EnvironmentChange Unit →
      Prop
  | enqueue (worker : WorkerId) (input : EnqueueJobInput) : QueueMove condition system
      (.start () (((enqueue input).bind fun _ ↦ done ()).labelled worker))
  | claimNext (worker : WorkerId) (jobTypes : List String) (limit : ℕ) : QueueMove condition system
      (.start () (((claimNext jobTypes limit).bind fun _ ↦ done ()).labelled worker))
  | complete (worker : WorkerId) (id : JobId) (modelVersion : Option String) :
      QueueMove condition system (.start () ((complete id modelVersion).labelled worker))
  | fail (worker : WorkerId) (id : JobId) (errorMessage : String) : QueueMove condition system
      (.start () (((fail id errorMessage).bind fun _ ↦ done ()).labelled worker))
  | advance (thread : ℕ) (outcome : Outcome)
    (hcall : ∀ call next, system.threads[thread]? = some ((), .await call next) →
      condition call outcome system.world) : QueueMove condition system (.advance thread outcome)
  | crash : QueueMove condition system .crash
  | environment (event : EnvironmentChange) : QueueMove condition system (.environment event)

/-- A run over an empty table, as far as it has come. -/
structure QueueRun (condition : WorkerId × Call → Outcome → World × Ledger → Prop) where
  now : ℤ
  system : QueueSystem
  reached : Reaches queueMachine.move (QueueMove condition)
    { threads := [], world := ({ now }, {}) } system

/-- A job is created with an attempt to make and while there is none of its key. It is claimed while
it is neither finished nor held by another worker, completed unless it has FAILED, and failed while
it is not finished: it is neither read so nor updated then, unless it FAILED in between and has no
attempt left. -/
def Orderly : WorkerId × Call → Outcome → World × Ledger → Prop
  | (_, .createJob data), _, world => 0 < data.maxAttempts ∧ world.1.jobs.findByKey data.key = none
  | (_, .findJob id), _, world => ∀ job ∈ world.1.jobs.find id, job.status.isFinal = false
  | (worker, .updateJob id (.claim ..)), _, world =>
    (∀ job ∈ world.1.jobs.find id, job.status.isFinal = false) ∧
      ∀ other, (other, id) ∈ world.2.holders → other = worker
  | (_, .updateJob id (.complete ..)), _, world =>
    ∀ job ∈ world.1.jobs.find id, job.status ≠ .failed
  | (_, .updateJob id (.requeue ..)), _, world =>
    ∀ job ∈ world.1.jobs.find id, job.status.isFinal = false
  | (_, .updateJob id (.giveUp ..)), _, world =>
    ∀ job ∈ world.1.jobs.find id, job.status ≠ .completed
  | _, _, _ => True

/-! ### The typestate of a thread -/

/-- What a thread has read. -/
inductive QueueState
  | idle
  | choosing (candidates : List ProcessingJob)
  | failing (job : ProcessingJob)

/-- The attempts that `fail` counts for a job as it was read. -/
def ProcessingJob.attemptsFailed (job : ProcessingJob) : ℤ :=
  job.attempts + (if job.status = .claimed then 0 else 1)

def queuePermits : QueueState → Call → Prop
  | _, .updateJob _ (.complete ..) => True
  | .choosing candidates, .updateJob id (.claim _ attempts) =>
    ∃ job ∈ candidates, job.id = id ∧ attempts = job.attempts + 1
  | .failing job, .updateJob id (.requeue attempts ..) =>
    job.id = id ∧ attempts = job.attemptsFailed ∧ attempts < job.maxAttempts
  | .failing job, .updateJob id (.giveUp attempts ..) => job.id = id ∧ attempts = job.attemptsFailed
  | _, .updateJob .. => False
  | _, _ => True

def queueExpects : QueueState → (call : Call) → Reply call → Prop
  | _, .findJob id, reply => ∀ job, reply = .ok (some job) → job.id = id
  | _, _, _ => True

def queueStep : QueueState → (call : Call) → Reply call → QueueState
  | _, .findQueuedJobs .., .ok candidates => .choosing candidates
  | _, .findJob _, .ok (some job) => .failing job
  | state, _, _ => state

def plainQueue : Typestate Call Reply QueueState where
  permits := queuePermits
  expects := queueExpects
  step := queueStep

/-- The typestate of a worker's thread. -/
def queue : Typestate (WorkerId × Call) (fun call ↦ Reply call.2) QueueState where
  permits := fun state call ↦ queuePermits state call.2
  expects := fun state call ↦ queueExpects state call.2
  step := fun state call ↦ queueStep state call.2

/-! ### The functions follow it -/

abbrev Queues {α : Type} (program : Async α) (state : QueueState) : Prop :=
  program.Follows plainQueue (fun _ _ ↦ True) (fun _ _ ↦ True) state

theorem orThrow_queues {α : Type} (reply : Except Recordings.Failure α) (state : QueueState) :
    Queues (orThrow reply) state :=
  Follows.orThrow (fun _ _ ↦ trivial) fun _ _ ↦ trivial

theorem enqueue_queues (input : EnqueueJobInput) : Queues (enqueue input) .idle := by
  refine ⟨trivial, fun now _ ↦ ⟨trivial, fun found _ ↦ ?_⟩⟩
  cases found with
  | error error => trivial
  | ok existing =>
    cases existing with
    | some job => trivial
    | none => exact ⟨trivial, fun created _ ↦ orThrow_queues created _⟩

theorem claimNext_queues (jobTypes : List String) (limit : ℕ) :
    Queues (claimNext jobTypes limit) .idle := by
  refine ⟨trivial, fun now _ ↦ ⟨trivial, fun found _ ↦ ?_⟩⟩
  cases found with
  | error error => trivial
  | ok candidates =>
    refine (Follows.foldlM (fun _ state ↦ state = .choosing candidates)
      (fun claimed job hjob state hstate ↦ ?_)
      rfl).mono (fun _ _ _ ↦ trivial) fun _ _ h ↦ h
    rw [hstate]
    refine ⟨⟨job, hjob, rfl, rfl⟩, fun updated _ ↦ ?_⟩
    cases updated with
    | error error => trivial
    | ok updated => rfl

theorem complete_queues (id : JobId) (modelVersion : Option String) :
    Queues (complete id modelVersion) .idle := by
  refine ⟨trivial, fun now _ ↦ ⟨trivial, fun updated _ ↦ ?_⟩⟩
  cases updated <;> trivial

theorem fail_queues (id : JobId) (errorMessage : String) : Queues (fail id errorMessage) .idle := by
  refine ⟨trivial, fun found hfound ↦ ?_⟩
  cases found with
  | error error => trivial
  | ok found =>
    cases found with
    | none => trivial
    | some job =>
      have hid : job.id = id := hfound job rfl
      refine ⟨trivial, fun now _ ↦ ?_⟩
      show Queues (if job.attemptsFailed < job.maxAttempts then _ else _) (.failing job)
      by_cases hretry : job.attemptsFailed < job.maxAttempts
      · rw [if_pos hretry]
        refine ⟨⟨hid, rfl, hretry⟩, fun updated _ ↦ ?_⟩
        cases updated <;> trivial
      · rw [if_neg hretry]
        refine ⟨⟨hid, rfl⟩, fun updated _ ↦ ?_⟩
        cases updated <;> trivial

theorem queues_labelled {α : Type} {program : Async α} {state : QueueState} (worker : WorkerId)
    (h : Queues program state) :
    (program.labelled worker).Follows queue (fun _ _ ↦ True) (fun _ _ ↦ True) state :=
  h.labelled fun _ _ hpermits ↦ ⟨hpermits, fun _ hexpects ↦ ⟨hexpects, rfl⟩⟩

/-! ### What the calls keep -/

/-- A job as it was read: the row of its id allows as many attempts. -/
def Known (table : JobTable) (job : ProcessingJob) : Prop :=
  ∀ row ∈ table.rows, row.id = job.id → row.maxAttempts = job.maxAttempts

/-- What is so of the jobs that a thread has read. -/
def QueueState.Knows (table : JobTable) : QueueState → Prop
  | .idle => True
  | .choosing candidates => ∀ job ∈ candidates, Known table job ∧ job.id < table.nextId ∧
      job.attempts < job.maxAttempts
  | .failing job => Known table job ∧ job.id < table.nextId ∧ job.attemptsFailed ≤ job.maxAttempts

/-- Attempts are left to a job that is QUEUED, and no job is PROCESSING. -/
def JobsFit (table : JobTable) : Prop :=
  ∀ job ∈ table.rows, job.attempts ≤ job.maxAttempts ∧ job.status ≠ .processing ∧
    (job.status = .queued → job.attempts < job.maxAttempts)

/-- Ids are drawn afresh and jobs keep their maximum. -/
structure Grows (before after : JobTable) : Prop where
  nextId : before.nextId ≤ after.nextId
  rows : ∀ job ∈ after.rows, job.id < before.nextId →
    ∃ old ∈ before.rows, old.id = job.id ∧ old.maxAttempts = job.maxAttempts

theorem Grows.refl (table : JobTable) : Grows table table :=
  ⟨Nat.le_refl _, fun job hjob _ ↦ ⟨job, hjob, rfl, rfl⟩⟩

theorem Grows.known {before after : JobTable} (h : Grows before after) {job : ProcessingJob}
    (hid : job.id < before.nextId) (hknown : Known before job) : Known after job := by
  intro row hrow hsame
  obtain ⟨old, hold, hid, hmax⟩ := h.rows row hrow (hsame ▸ hid)
  rw [← hmax]
  exact hknown old hold (hid.trans hsame)

theorem Grows.knows {before after : JobTable} (h : Grows before after) {state : QueueState}
    (hknows : state.Knows before) : state.Knows after := by
  cases state with
  | idle => trivial
  | choosing candidates =>
    intro job hjob
    obtain ⟨hknown, hid, hattempts⟩ := hknows job hjob
    exact ⟨h.known hid hknown, Nat.lt_of_lt_of_le hid h.nextId, hattempts⟩
  | failing job =>
    obtain ⟨hknown, hid, hattempts⟩ := hknows
    exact ⟨h.known hid hknown, Nat.lt_of_lt_of_le hid h.nextId, hattempts⟩

theorem known_of_mem {table : JobTable} {job : ProcessingJob} (hjob : job ∈ table.rows) :
    Known table job ∧ job.id < table.nextId := by
  refine ⟨fun row hrow hid ↦ ?_, table.ids_lt job hjob⟩
  rw [JobTable.eq_of_id_eq hrow hjob hid]

theorem grows_insert (table : JobTable) (data : NewJob) (hfree : table.findByKey data.key = none) :
    Grows table (table.insert data hfree) := by
  refine ⟨Nat.le_succ _, fun job hjob hid ↦ ?_⟩
  rcases JobTable.mem_insert.mp hjob with hold | rfl
  · exact ⟨job, hold, rfl, rfl⟩
  · exact absurd hid (Nat.lt_irrefl _)

theorem grows_update (table : JobTable) (id : JobId) (data : JobUpdate) :
    Grows table (table.update id data) := by
  refine ⟨Nat.le_refl _, fun job hjob _ ↦ ?_⟩
  obtain ⟨old, hold, rfl⟩ := JobTable.mem_update.mp hjob
  refine ⟨old, hold, ?_⟩
  split_ifs
  · exact ⟨(data.apply_id old).symm, (data.apply_maxAttempts old).symm⟩
  · exact ⟨rfl, rfl⟩

/-- An update of one job keeps the jobs fit when it leaves that one fit. -/
theorem JobsFit.update {table : JobTable} (h : JobsFit table) {id : JobId} {data : JobUpdate}
    (hjob : ∀ job ∈ table.rows, job.id = id → (data.apply job).attempts ≤ job.maxAttempts ∧
      (data.apply job).status ≠ .processing ∧
        ((data.apply job).status = .queued → (data.apply job).attempts < job.maxAttempts)) :
    JobsFit (table.update id data) := by
  intro job hmem
  obtain ⟨old, hold, rfl⟩ := JobTable.mem_update.mp hmem
  split_ifs with hid
  · rw [data.apply_maxAttempts]
    exact hjob old hold hid
  · exact h old hold

theorem JobsFit.insert {table : JobTable} (h : JobsFit table) {data : NewJob}
    (hfree : table.findByKey data.key = none) (hmax : 0 < data.maxAttempts) :
    JobsFit (table.insert data hfree) := by
  intro job hjob
  rcases JobTable.mem_insert.mp hjob with hold | rfl
  · exact h job hold
  · exact ⟨hmax.le, by simp [NewJob.toJob], fun _ ↦ hmax⟩

/-- The jobs and the ledger are sound, and the jobs are fit to go on. -/
structure Settled (world : World × Ledger) : Prop where
  sound : IsSound world
  fit : JobsFit world.1.jobs

section Answers

variable {world : World × Ledger} {worker : WorkerId} {outcome : Outcome}

/-- An update fails without effect, or changes the row of the id. -/
theorem answer_updateJob (worker : WorkerId) (id : JobId) (data : JobUpdate) (outcome : Outcome)
    (world : World × Ledger) :
    (queueMachine.answer (worker, .updateJob id data) outcome world).2 = world ∨
      ∃ job, world.1.jobs.find id = some job ∧
        (queueMachine.answer (worker, .updateJob id data) outcome world).2 =
          ({ world.1 with jobs := world.1.jobs.update id data },
            { world.2 with
              holders := world.2.holdersAfter worker id data
              reopened := if data.Reopens job then id ::
                  world.2.reopened else world.2.reopened }) := by
  rcases world.1.answerUpdate_cases id data outcome with ⟨error, hanswer⟩ | ⟨job, hfind, hanswer⟩
  · left
    simp only [queueMachine, Machine.watched, machine, answer, hanswer, observe]
  · refine Or.inr ⟨job, hfind, ?_⟩
    simp only [queueMachine, Machine.watched, machine, answer, hanswer, observe, hfind,
      Option.mem_def, Option.some.injEq, exists_eq_left']

/-- A creation of a job of a free key fails without effect, or adds the row. -/
theorem answer_createJob (worker : WorkerId) (data : NewJob) (outcome : Outcome)
    {world : World × Ledger}
    (hfree : world.1.jobs.findByKey data.key = none) :
    (queueMachine.answer (worker, .createJob data) outcome world).2 = world ∨
      (queueMachine.answer (worker, .createJob data) outcome world).2 =
        ({ world.1 with jobs := world.1.jobs.insert data hfree }, world.2) := by
  cases outcome with
  | fail error =>
    left
    have hnone : ¬ (error.code = .p2002 ∧ (world.1.jobs.findByKey data.key).isSome = true) := by
      rw [hfree]
      exact fun h ↦ absurd h.2 (by decide)
    simp only [queueMachine, Machine.watched, machine, answer, World.answerCreate,
      observe, if_neg hnone]
  | _ =>
    right
    simp only [queueMachine, Machine.watched, machine, answer, World.answerCreate,
      dif_pos hfree, observe]

/-- Other calls leave the jobs and the ledger alone. -/
theorem answer_other {call : Call} (hcreate : ∀ data, call ≠ .createJob data)
    (hupdate : ∀ id data, call ≠ .updateJob id data) (worker : WorkerId) (outcome : Outcome)
    (world : World × Ledger) :
    (queueMachine.answer (worker, call) outcome world).2.1.jobs = world.1.jobs ∧
      (queueMachine.answer (worker, call) outcome world).2.2 = world.2 := by
  cases call with
  | createJob data => exact absurd rfl (hcreate data)
  | updateJob id data => exact absurd rfl (hupdate id data)
  | createDetection data => cases outcome <;> exact ⟨rfl, rfl⟩
  | emitEvent event => cases outcome <;> exact ⟨rfl, rfl⟩
  | _ => exact ⟨rfl, rfl⟩

theorem Settled.of_same {later : World × Ledger} (h : Settled world)
    (hjobs : later.1.jobs = world.1.jobs) (hledger : later.2 = world.2) : Settled later := by
  refine ⟨⟨?_, ?_, ?_, ?_, ?_⟩, ?_⟩
  · rw [hledger]
    exact h.sound.exclusive
  · rw [hjobs]
    exact h.sound.bounded
  · rw [hjobs]
    exact h.sound.unique
  · rw [hledger]
    exact h.sound.answered
  · rw [hledger]
    exact h.sound.final
  · rw [hjobs]
    exact h.fit

theorem unique_rows (table : JobTable) : ∀ first ∈ table.rows, ∀ second ∈ table.rows,
    first.key = second.key → first = second :=
  fun _ hfirst _ hsecond hkey ↦ JobTable.eq_of_key_eq hfirst hsecond hkey

/-- The holders after an orderly claim, or after any other update, hold alone. -/
theorem exclusive_holdersAfter {ledger : Ledger} {id : JobId} {data : JobUpdate}
    (h : ∀ first second id, (first, id) ∈ ledger.holders → (second, id) ∈ ledger.holders →
      first = second)
    (hclaim : ∀ startedAt attempts, data = .claim startedAt attempts →
      ∀ other, (other, id) ∈ ledger.holders → other = worker) :
    ∀ first second other, (first, other) ∈ ledger.holdersAfter worker id data →
      (second, other) ∈ ledger.holdersAfter worker id data → first = second := by
  intro first second other hfirst hsecond
  cases data with
  | claim startedAt attempts =>
    have halone := hclaim startedAt attempts rfl
    rcases List.mem_cons.mp hfirst with hnew | hold
    · obtain ⟨rfl, rfl⟩ := Prod.mk.inj hnew
      rcases List.mem_cons.mp hsecond with hnew | hother
      · exact (Prod.mk.inj hnew).1.symm
      · exact (halone second hother).symm
    · rcases List.mem_cons.mp hsecond with hnew | hother
      · obtain ⟨rfl, rfl⟩ := Prod.mk.inj hnew
        exact halone first hold
      · exact h first second other hold hother
  | _ => exact h first second other (List.mem_filter.mp hfirst).1 (List.mem_filter.mp hsecond).1

/-- An update that reopens nothing and leaves its job fit. -/
theorem Settled.update (h : Settled world) {id : JobId} {data : JobUpdate} {job : ProcessingJob}
    (hfind : world.1.jobs.find id = some job)
    (hclaim : ∀ startedAt attempts, data = .claim startedAt attempts →
      ∀ other, (other, id) ∈ world.2.holders → other = worker)
    (hreopens : ¬ data.Reopens job)
    (hfit : (data.apply job).attempts ≤ job.maxAttempts ∧ (data.apply job).status ≠ .processing ∧
      ((data.apply job).status = .queued → (data.apply job).attempts < job.maxAttempts)) :
    Settled ({ world.1 with jobs := world.1.jobs.update id data },
      { world.2 with
        holders := world.2.holdersAfter worker id data
        reopened := if data.Reopens job then id :: world.2.reopened else world.2.reopened }) := by
  obtain ⟨hjob, hid⟩ := JobTable.find_eq_some_iff.mp hfind
  have hfits : JobsFit (world.1.jobs.update id data) := by
    refine h.fit.update fun other hother hsame ↦ ?_
    rw [JobTable.eq_of_id_eq hother hjob (hsame.trans hid.symm)]
    exact hfit
  refine ⟨⟨?_, fun other hother ↦ (hfits other hother).1, unique_rows _, h.sound.answered, ?_⟩,
    hfits⟩
  · exact exclusive_holdersAfter h.sound.exclusive hclaim
  · rw [if_neg hreopens]
    exact h.sound.final

/-- An orderly update by a thread that knows what it has read. -/
theorem update_orderly {state : QueueState} {id : JobId} {data : JobUpdate} {job : ProcessingJob}
    (h : Settled world) (hpermits : queuePermits state (.updateJob id data))
    (hknows : state.Knows world.1.jobs)
    (horderly : Orderly (worker, .updateJob id data) outcome world)
    (hfind : world.1.jobs.find id = some job) :
    (∀ startedAt attempts, data = .claim startedAt attempts →
      ∀ other, (other, id) ∈ world.2.holders → other = worker) ∧ ¬ data.Reopens job ∧
    (data.apply job).attempts ≤ job.maxAttempts ∧ (data.apply job).status ≠ .processing ∧
      ((data.apply job).status = .queued → (data.apply job).attempts < job.maxAttempts) := by
  obtain ⟨hjob, hid⟩ := JobTable.find_eq_some_iff.mp hfind
  have hfit := h.fit job hjob
  have hopen : job.status.isFinal = false → ¬ data.Reopens job :=
    fun hstatus hreopens ↦ absurd (hstatus.symm.trans hreopens.1) (by decide)
  cases data with
  | claim startedAt attempts =>
    obtain ⟨hstatus, halone⟩ := horderly
    have hattempts : attempts ≤ job.maxAttempts := by
      cases state with
      | choosing candidates =>
        obtain ⟨candidate, hcandidate, hsame, rfl⟩ := hpermits
        obtain ⟨hknown, -, hleft⟩ := hknows candidate hcandidate
        rw [hknown job hjob (hid.trans hsame.symm)]
        exact hleft
      | idle => exact hpermits.elim
      | failing _ => exact hpermits.elim
    exact ⟨fun _ _ _ ↦ halone, hopen (hstatus job hfind), hattempts, nofun, nofun⟩
  | complete completedAt modelVersion =>
    have hstatus : job.status ≠ .failed := horderly job hfind
    refine ⟨nofun, fun hreopens ↦ ?_, hfit.1, nofun, nofun⟩
    obtain ⟨hfinal, hchanged⟩ := hreopens
    cases hcase : job.status with
    | completed => exact hchanged hcase.symm
    | failed => exact hstatus hcase
    | _ => rw [hcase] at hfinal; cases hfinal
  | requeue attempts availableAt lastError =>
    have hattempts : attempts < job.maxAttempts := by
      cases state with
      | failing read =>
        obtain ⟨hsame, -, hleft⟩ := hpermits
        rw [hknows.1 job hjob (hid.trans hsame.symm)]
        exact hleft
      | idle => exact hpermits.elim
      | choosing _ => exact hpermits.elim
    exact ⟨nofun, hopen (horderly job hfind), hattempts.le, nofun, fun _ ↦ hattempts⟩
  | giveUp attempts completedAt lastError =>
    have hattempts : attempts ≤ job.maxAttempts := by
      cases state with
      | failing read =>
        obtain ⟨hsame, rfl⟩ := hpermits
        obtain ⟨hknown, -, hleft⟩ := hknows
        rw [hknown job hjob (hid.trans hsame.symm)]
        exact hleft
      | idle => exact hpermits.elim
      | choosing _ => exact hpermits.elim
    have hstatus : job.status ≠ .completed := horderly job hfind
    refine ⟨nofun, fun hreopens ↦ ?_, hattempts, nofun, nofun⟩
    obtain ⟨hfinal, hchanged⟩ := hreopens
    cases hcase : job.status with
    | completed => exact hstatus hcase
    | failed => exact hchanged hcase.symm
    | _ => rw [hcase] at hfinal; cases hfinal

/-- A job that is failed while it is not finished has the attempts left that this counts. -/
theorem attemptsFailed_le {job : ProcessingJob} (hjob : job ∈ world.1.jobs.rows) (h : Settled world)
    (hstatus : job.status.isFinal = false) : job.attemptsFailed ≤ job.maxAttempts := by
  obtain ⟨hattempts, hprocessing, hqueued⟩ := h.fit job hjob
  unfold ProcessingJob.attemptsFailed
  cases hcase : job.status with
  | queued =>
    have hleft := hqueued hcase
    simp only [reduceCtorEq, if_false]
    omega
  | claimed => simpa using hattempts
  | processing => exact absurd hcase hprocessing
  | completed => rw [hcase] at hstatus; cases hstatus
  | failed => rw [hcase] at hstatus; cases hstatus

/-- What a thread knows once it has looked a job up. -/
theorem knows_found {table : JobTable} {state : QueueState} (hknows : state.Knows table)
    (outcome : Outcome) {id : JobId} {found : Option ProcessingJob}
    (hfound : ∀ job, found = some job → (QueueState.failing job).Knows table ∧ job.id = id) :
    queueExpects state (.findJob id) (outcome.orFail found) ∧
      (queueStep state (.findJob id) (outcome.orFail found)).Knows table := by
  have hexpects : ∀ reply : Except Recordings.Failure (Option ProcessingJob),
      (∀ job, reply = .ok (some job) → job.id = id) → queueExpects state (.findJob id) reply := by
    intro reply hreply
    cases state <;> exact hreply
  rcases outcome.orFail_cases found with hreply | ⟨error, -, hreply⟩
  · rw [hreply]
    cases found with
    | none =>
      refine ⟨hexpects _ fun job hjob ↦ ?_, by cases state <;> exact hknows⟩
      cases Except.ok.inj hjob
    | some job =>
      obtain ⟨hfailing, hid⟩ := hfound job rfl
      refine ⟨hexpects _ fun other hother ↦ ?_, by cases state <;> exact hfailing⟩
      rw [← Option.some.inj (Except.ok.inj hother)]
      exact hid
  · rw [hreply]
    refine ⟨hexpects _ fun job hjob ↦ ?_, by cases state <;> exact hknows⟩
    cases hjob

/-- What an orderly call of a thread keeps. -/
theorem settled_answer {state : QueueState} {call : Call}
    (horderly : Orderly (worker, call) outcome world)
    (hpermits : queuePermits state call) (hknows : state.Knows world.1.jobs) (h : Settled world) :
    let answered := queueMachine.answer (worker, call) outcome world
    queueExpects state call answered.1 ∧ Settled answered.2 ∧
      Grows world.1.jobs answered.2.1.jobs ∧
        (queueStep state call answered.1).Knows answered.2.1.jobs := by
  have hsame : ∀ {call : Call}, (∀ data, call ≠ .createJob data) →
    (∀ id data, call ≠ .updateJob id data) →
      Settled (queueMachine.answer (worker, call) outcome world).2 ∧
        (queueMachine.answer (worker, call) outcome world).2.1.jobs = world.1.jobs := by
    intro call hcreate hupdate
    obtain ⟨hjobs, hledger⟩ := answer_other hcreate hupdate worker outcome world
    exact ⟨h.of_same hjobs hledger, hjobs⟩
  have hread : ∀ {call : Call} {next : QueueState}, (∀ data, call ≠ .createJob data) →
      (∀ id data, call ≠ .updateJob id data) → next.Knows world.1.jobs →
      Settled (queueMachine.answer (worker, call) outcome world).2 ∧
        Grows world.1.jobs (queueMachine.answer (worker, call) outcome world).2.1.jobs ∧
          next.Knows (queueMachine.answer (worker, call) outcome world).2.1.jobs := by
    intro call next hcreate hupdate hnext
    obtain ⟨hsettled, hjobs⟩ := hsame hcreate hupdate
    rw [hjobs]
    exact ⟨hsettled, .refl _, hnext⟩
  cases call with
  | createJob data =>
    obtain ⟨hmax, hfree⟩ := horderly
    refine ⟨by cases state <;> trivial, ?_⟩
    have hstep : ∀ reply, queueStep state (.createJob data) reply = state := by
      intro reply
      cases state <;> rfl
    rw [hstep]
    rcases answer_createJob worker data outcome hfree with hanswer | hanswer
    · rw [hanswer]
      exact ⟨h, .refl _, hknows⟩
    · have hfit := h.fit.insert hfree hmax
      rw [hanswer]
      have hgrows := grows_insert world.1.jobs data hfree
      refine ⟨⟨⟨h.sound.exclusive, fun job hjob ↦ (hfit job hjob).1, unique_rows _,
        h.sound.answered, h.sound.final⟩, hfit⟩, hgrows, hgrows.knows hknows⟩
  | updateJob id data =>
    refine ⟨by cases state <;> trivial, ?_⟩
    have hstep : ∀ reply, queueStep state (.updateJob id data) reply = state := by
      intro reply
      cases state <;> rfl
    rw [hstep]
    rcases answer_updateJob worker id data outcome world with hanswer | ⟨job, hfind, hanswer⟩
    · rw [hanswer]
      exact ⟨h, .refl _, hknows⟩
    · obtain ⟨hclaim, hreopens, hfit⟩ := update_orderly h hpermits hknows horderly hfind
      have hgrows := grows_update world.1.jobs id data
      rw [hanswer]
      exact ⟨h.update hfind hclaim hreopens hfit, hgrows, hgrows.knows hknows⟩
  | findQueuedJobs jobTypes now limit =>
    refine ⟨by cases state <;> trivial, hread nofun nofun ?_⟩
    cases outcome with
    | fail error => cases state <;> exact hknows
    | _ =>
      have hcandidates : ∀ job ∈ world.1.jobs.findQueued jobTypes now limit,
        Known world.1.jobs job ∧
          job.id < world.1.jobs.nextId ∧ job.attempts < job.maxAttempts := by
        intro job hmem
        obtain ⟨hjob, hqueued⟩ := JobTable.mem_findQueued hmem
        obtain ⟨hknown, hid⟩ := known_of_mem hjob
        exact ⟨hknown, hid, (h.fit job hjob).2.2 hqueued⟩
      cases state <;> exact hcandidates
  | findJob id =>
    have hfound : ∀ job, world.1.jobs.find id = some job →
        (QueueState.failing job).Knows world.1.jobs ∧ job.id = id := by
      intro job hfind
      obtain ⟨hjob, hid⟩ := JobTable.find_eq_some_iff.mp hfind
      obtain ⟨hknown, hlt⟩ := known_of_mem hjob
      exact ⟨⟨hknown, hlt, attemptsFailed_le hjob h (horderly job hfind)⟩, hid⟩
    obtain ⟨hexpects, hnext⟩ := knows_found hknows outcome hfound
    exact ⟨hexpects, hread nofun nofun hnext⟩
  | _ =>
    refine ⟨by cases state <;> trivial, hread nofun nofun ?_⟩
    cases state <;> exact hknows

end Answers

/-! ### Every run -/

theorem orderly_synchronous (call : WorkerId × Call) (world : World × Ledger)
    (hsynchronous : queueMachine.synchronous call = true) :
    Orderly call queueMachine.calm world := by
  obtain ⟨worker, call⟩ := call
  cases call with
  | clockNow => trivial
  | _ => cases hsynchronous

/-- The states of the threads know what their threads have read. -/
def AllKnow (world : World × Ledger) (states : List QueueState) : Prop :=
  ∀ state ∈ states, state.Knows world.1.jobs

theorem queue_keeps (states : List QueueState) :
    queue.Keeps queueMachine Orderly fun world state ↦
      Settled world ∧ AllKnow world states ∧ state.Knows world.1.jobs := by
  rintro ⟨worker, call⟩ outcome world state horderly hpermits ⟨hsettled, hothers, hknows⟩
  obtain ⟨hexpects, hafter, hgrows, hnext⟩ := settled_answer horderly hpermits hknows hsettled
  exact ⟨hexpects, hafter, fun other hother ↦ hgrows.knows (hothers other hother), hnext⟩

theorem queue_maintained : Maintains queueMachine queue (fun _ ↦ True) (QueueMove Orderly)
    fun world states ↦ Settled world ∧ AllKnow world states where
  start := by
    rintro system tag program states hlegal htyped ⟨hsettled, hknows⟩
    have hfollows : program.Follows queue (fun _ _ ↦ True) (fun _ _ ↦ True) .idle := by
      cases hlegal with
      | enqueue worker input =>
        exact queues_labelled worker ((enqueue_queues input).bind fun _ _ _ ↦ trivial)
      | claimNext worker jobTypes limit =>
        exact queues_labelled worker ((claimNext_queues jobTypes limit).bind fun _ _ _ ↦ trivial)
      | complete worker id modelVersion =>
        exact queues_labelled worker (complete_queues id modelVersion)
      | fail worker id errorMessage =>
        exact queues_labelled worker ((fail_queues id errorMessage).bind fun _ _ _ ↦ trivial)
    refine ⟨states, .idle, Orderly, _, htyped, hfollows,
      Machine.SettleCalls.of_synchronous queueMachine orderly_synchronous _ _, queue_keeps states,
      ⟨hsettled, hknows, trivial⟩, fun world state hkept ↦ ⟨hkept.1, fun found hfound ↦ ?_⟩⟩
    rcases List.mem_append.mp hfound with hold | hnew
    · exact hkept.2.1 found hold
    · rw [List.mem_singleton.mp hnew]
      exact hkept.2.2
  advance := by
    rintro system thread outcome tag program states hlegal hthread htyped ⟨hsettled, hknows⟩
    cases hlegal with
    | advance _ _ hcall =>
      refine ⟨states, Orderly, _, htyped, ?_, queue_keeps states,
        fun state hstate ↦ ⟨hsettled, hknows, hknows state (List.mem_of_getElem? hstate)⟩,
        fun world state hkept ↦ ⟨hkept.1, fun found hfound ↦ ?_⟩⟩
      · refine Machine.ResumeCalls.of_awaited queueMachine orderly_synchronous
          fun call next hprogram ↦ ?_
        exact hcall call next (hprogram ▸ hthread)
      · rcases List.mem_or_eq_of_mem_set hfound with hold | rfl
        · exact hkept.2.1 found hold
        · exact hkept.2.2
  crash := by
    rintro system states hlegal ⟨hsettled, -⟩
    exact ⟨hsettled, fun _ hstate ↦ absurd hstate List.not_mem_nil⟩
  environment := by
    rintro system event states hlegal htyped ⟨hsettled, hknows⟩
    exact ⟨hsettled.of_same rfl rfl, hknows⟩

theorem settled_nil (now : ℤ) : Settled ({ now }, {}) where
  sound :=
    { exclusive := fun _ _ _ hheld ↦ absurd hheld List.not_mem_nil
      bounded := fun _ hjob ↦ absurd hjob List.not_mem_nil
      unique := unique_rows _
      answered := rfl
      final := rfl }
  fit := fun _ hjob ↦ absurd hjob List.not_mem_nil

/-- In a run of orderly calls jobs are held by one worker at a time, have made no more attempts than
they may, are the only ones of their key, are never refused for one that is there, and stay
COMPLETED or FAILED once they are. -/
theorem isSound_of_orderly (run : QueueRun Orderly) : IsSound run.system.world := by
  obtain ⟨states, -, hsettled, -⟩ := run.reached.typed queue_maintained rfl
    ⟨settled_nil run.now, fun _ hstate ↦ absurd hstate List.not_mem_nil⟩
  exact hsettled.sound

/-! ### Two workers at once -/

/-- A job is enqueued, and two workers have both queried the jobs before either claims it. -/
def overlappingClaims :
    List (Move (WorkerId × Call) (fun call ↦ Reply call.2) Recordings.Failure Outcome
      EnvironmentChange
      Unit) :=
  let claim (worker : WorkerId) := ((claimNext ["ai"] 1).bind fun _ ↦ done ()).labelled worker
  [.start () (((enqueue { recordingId := 0, jobType := "ai" }).bind fun _ ↦ done ()).labelled 0),
    .advance 0 .ok, .advance 0 .ok, .start () (claim 1), .start () (claim 2),
    .advance 1 .ok, .advance 2 .ok, .advance 1 .ok, .advance 2 .ok]

/-- Both hold it. -/
theorem not_isSound_overlapping :
    ¬ ∀ run : QueueRun fun _ _ _ ↦ True, IsSound run.system.world := by
  intro h
  have hadvance : ∀ system thread outcome,
      QueueMove (fun _ _ _ ↦ True) system (.advance thread outcome) :=
    fun _ thread outcome ↦ .advance thread outcome fun _ _ _ ↦ trivial
  have hlegal : LegalRun queueMachine.move (QueueMove fun _ _ _ ↦ True)
      { threads := [], world := ({ now := 0 }, {}) } overlappingClaims :=
    ⟨.enqueue _ _, hadvance _ _ _, hadvance _ _ _, .claimNext _ _ _, .claimNext _ _ _,
      hadvance _ _ _, hadvance _ _ _, hadvance _ _ _, hadvance _ _ _, trivial⟩
  have hsound := h ⟨0, _, Reaches.refl.run hlegal⟩
  have hheld : (runMoves queueMachine.move { threads := [], world := ({ now := 0 }, {}) }
      overlappingClaims).world.2.holders = [(2, 0), (1, 0)] := by decide +kernel
  have hsame := hsound.exclusive 1 2 0 (by rw [hheld]; decide) (by rw [hheld]; decide)
  exact absurd hsame (by decide)

end VmsLite.Analysis
