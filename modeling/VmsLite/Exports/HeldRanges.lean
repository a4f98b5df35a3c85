import VmsLite.Exports.JobClaims

/-!
# Time ranges that exports hold

The retention policy keeps the footage of the jobs that are queued or running. A job whose code is
over has been given a final status in every state of a run just when the run never loses the search
for segments, the check of a file or the write of the running status to a failure, and the process
ends at no instant where a job is queued or running (`eachState_isReleased_iff`): these steps stand
in no `try`, and nothing that runs after a restart looks at the jobs that were left.
-/

set_option autoImplicit false

namespace VmsLite.Exports

open VmsLite.Async Program

/-- A status that a job ends in. -/
def ExportStatus.IsFinal (status : ExportStatus) : Prop :=
  status = .completed ∨ status = .failed ∨ status = .expired

/-- A final status is not one for which footage is held. -/
theorem ExportStatus.IsFinal.not_active {status : ExportStatus} (hfinal : status.IsFinal) :
    ¬ (status = .queued ∨ status = .running) := by
  rcases hfinal with rfl | rfl | rfl
  · rintro (hqueued | hrunning)
    · cases hqueued
    · cases hrunning
  · rintro (hqueued | hrunning)
    · cases hqueued
    · cases hrunning
  · rintro (hqueued | hrunning)
    · cases hqueued
    · cases hrunning

/-- The job whose code makes a call. The write of an expired status is one of a prune run. -/
def Call.jobId : Call → Option JobId
  | .nameOutput id _ | .findSegments id _ _ _ | .fileExists id _ | .writeManifest id
    _ | .getCamera id _
  | .ffmpeg id _ _ _ | .unlinkManifest id | .computeSha256 id _ | .stat id _ => some id
  | .persist job => if job.status = .expired then none else some job.id
  | _ => none

/-- The job whose code a program is. -/
def jobOf : Async Unit → Option JobId
  | .await call _ => call.jobId
  | _ => none

/-- A persisted job that no code works on any more has a final status. -/
def IsReleased (system : ExportSystem) : Prop :=
  ∀ id row, system.world.job id = some row →
    row.status.IsFinal ∨ ∃ entry ∈ system.threads, jobOf entry.2 = some id

inductive HeldStep
  | run (exportStep : ExportStep)
  /-- The process ends and starts again. -/
  | crash

/-- The calls on which the code of a queued job ends when they fail. -/
def Call.LosesJob : Call → Prop
  | .findSegments .. | .fileExists .. => True
  | .persist job => job.status = .running
  | _ => False

/-- The steps that leave no job behind. -/
def IsCareful (system : ExportSystem) : HeldStep → Prop
  | .run (.resume thread outcome) =>
    ∀ tag call next, system.threads[thread]? = some (tag, .await call next) → call.LosesJob →
      outcome.failure = none
  | .run _ => True
  | .crash => system.world.activeExports = []

variable (sha256 : Content → String)

def heldStep (system : ExportSystem) : HeldStep → ExportSystem
  | .run exportStep => step sha256 system exportStep
  | .crash => (machine sha256).move system .crash

/-! ### The stages of a job that is left -/

/-- The stages at which a failure leaves a queued job. -/
def Stage.LosesJob : Stage → Prop
  | .finding _ | .checking .. | .starting .. => True
  | _ => False

namespace Stage

variable {stage : Stage} {world : World}

theorem jobOf_program (hcarries : stage.Carries) : jobOf stage.program = stage.jobId := by
  cases stage with
  | ended result => cases result <;> rfl
  | making temp req => cases temp <;> rfl
  | queuing req job =>
    have hstatus : job.status = .queued := hcarries
    have hjob : jobOf (program (.queuing req job)) =
        if job.status = .expired then none else some job.id := rfl
    rw [hjob, hstatus]
    rfl
  | starting job segments =>
    have hstatus : job.status = .running := hcarries
    have hjob : jobOf (program (.starting job segments)) =
        if job.status = .expired then none else some job.id := rfl
    rw [hjob, hstatus]
    rfl
  | _ => rfl

/-- The calls of the stages. -/
theorem losesJob_iff (hcarries : stage.Carries) :
    stage.LosesJob ↔ ∃ call next, stage.program = .await call next ∧ call.LosesJob := by
  constructor
  · intro hloses
    cases stage with
    | finding job => exact ⟨_, _, rfl, trivial⟩
    | checking job segments segment rest => exact ⟨_, _, rfl, trivial⟩
    | starting job segments => exact ⟨_, _, rfl, hcarries⟩
    | _ => exact False.elim hloses
  · rintro ⟨call, next, hprogram, hloses⟩
    cases stage with
    | finding job => trivial
    | checking job segments segment rest => trivial
    | starting job segments => trivial
    | ended result =>
      cases result with
      | ok value => cases value; cases hprogram
      | error failure => cases hprogram
    | making temp req =>
      cases temp with
      | false => cases hprogram; exact hloses
      | true => cases hprogram; exact hloses
    | queuing req job =>
      cases hprogram
      have hqueued : job.status = .queued := hcarries
      have hrunning : job.status = .running := hloses
      cases hqueued.symm.trans hrunning
    | refusing job code message =>
      cases hprogram
      cases hloses
    | completing job output digest size now =>
      cases hprogram
      cases hloses
    | breaking job output failure =>
      cases hprogram
      cases hloses
    | expiring job rest emergency =>
      cases hprogram
      cases hloses
    | _ =>
      cases hprogram
      exact hloses

end Stage

/-- A persisted job that no thread works on any more has a final status. -/
def Released (stages : Stages) (world : World) : Prop :=
  ∀ id row, world.job id = some row →
    row.status.IsFinal ∨ ∃ entry ∈ stages, entry.2.jobId = some id

/-- A thread leaves its job, if it leaves it, in a final status, or before the job has a row. -/
def Leaves (stage next : Stage) (later : World) : Prop :=
  ∀ id, stage.jobId = some id →
    next.jobId = some id ∨ ∀ row, later.job id = some row → row.status.IsFinal

section Stages

variable {sha256} {stages : Stages} {world later : World} {stage next : Stage} {outcome : Outcome}
  {job : ExportJobDto}

theorem isReleased_system (horderly : Orderly stages world) :
    IsReleased ((staging sha256).system stages world) ↔ Released stages world := by
  have hjob : ∀ entry ∈ stages, jobOf entry.2.program = entry.2.jobId := by
    intro entry hentry
    obtain ⟨thread, hthread⟩ := List.mem_iff_getElem?.mp hentry
    exact Stage.jobOf_program (horderly.fits thread entry hthread).carries
  constructor
  · intro hreleased id row hrow
    refine (hreleased id row hrow).imp_right ?_
    rintro ⟨thread, hthread, hworks⟩
    obtain ⟨tag, stage, hmem, rfl⟩ := Staging.mem_threads.mp hthread
    exact ⟨(tag, stage), hmem, (hjob _ hmem).symm.trans hworks⟩
  · intro hreleased id row hrow
    refine (hreleased id row hrow).imp_right ?_
    rintro ⟨⟨tag, stage⟩, hmem, hworks⟩
    exact ⟨_, Staging.mem_threads.mpr ⟨tag, stage, hmem, rfl⟩, (hjob _ hmem).trans hworks⟩

/-- A job that a step keeps has the status that it had, or a final one. -/
theorem World.Keeps.status {id : JobId} (hkeeps : world.Keeps later id) :
    later.status id = world.status id ∨
      (∃ before, world.status id = some before ∧ before.IsFinal) ∧
        ∃ after, later.status id = some after ∧ after.IsFinal := by
  have hfinal : ∀ {place : World} {path : Option Path}, place.IsPrunable id path →
      ∃ status, place.status id = some status ∧ status.IsFinal := by
    rintro place path ⟨row, hrow, hstatus, -⟩
    refine ⟨row.status, ?_, hstatus.imp_right Or.inr⟩
    unfold World.status
    rw [hrow]
    rfl
  rcases hkeeps.2 with hsame | ⟨path, hbefore, hafter⟩
  · refine Or.inl ?_
    unfold World.status
    rw [hsame]
  · exact Or.inr ⟨hfinal hbefore, hfinal hafter⟩

theorem World.status_of_job {id : JobId} {row : ExportJobDto} (hrow : world.job id = some row) :
    world.status id = some row.status := by
  unfold World.status
  rw [hrow]
  rfl

/-- A kept job has a final status later when it has one now. -/
theorem World.Keeps.isFinal {id : JobId} {row : ExportJobDto} (hkeeps : world.Keeps later id)
    (hrow : later.job id = some row)
    (hbefore : ∀ before, world.job id = some before → before.status.IsFinal) :
        row.status.IsFinal := by
  have hafter := World.status_of_job hrow
  rcases hkeeps.status with hsame | ⟨-, status, hstatus, hfinal⟩
  · obtain ⟨before, hjob, hstatus⟩ := Option.map_eq_some_iff.mp (hsame.symm.trans hafter)
    rw [← hstatus]
    exact hbefore before hjob
  · obtain rfl := Option.some.inj (hafter.symm.trans hstatus)
    exact hfinal

/-- The move of one thread leaves no job behind just when the thread itself leaves none. -/
theorem released_advance (horderly : Orderly stages world) (hreleased : Released stages world)
    {thread : ℕ} {tag : Origin} (hstage : stages[thread]? = some (tag, stage))
    (hadvances : Advances world later stage next) :
    Released (stages.set thread (tag, next)) later ↔ Leaves stage next later := by
  have hbound : thread < stages.length := (List.getElem?_eq_some_iff.mp hstage).1
  have hself : (stages.set thread (tag, next))[thread]? = some (tag, next) :=
    List.getElem?_set_self hbound
  constructor
  · intro hlater id hid
    by_cases hnext : next.jobId = some id
    · exact Or.inl hnext
    refine Or.inr fun row hrow ↦ (hlater id row hrow).resolve_right ?_
    rintro ⟨entry, hentry, hworks⟩
    obtain ⟨other, hother⟩ := List.mem_iff_getElem?.mp hentry
    rcases getElem?_set_cases hother with ⟨-, rfl⟩ | ⟨hne, hold⟩
    · exact hnext hworks
    · exact hne (horderly.alone other thread _ _ id hold hstage hworks hid)
  · intro hleaves id row hrow
    by_cases hid : stage.jobId = some id
    · rcases hleaves id hid with hnext | hfinal
      · exact Or.inr ⟨_, List.mem_of_getElem? hself, hnext⟩
      · exact Or.inl (hfinal row hrow)
    · have hkeeps := hadvances.others id hid
      by_cases hworks : ∃ entry ∈ stages, entry.2.jobId = some id
      · obtain ⟨entry, hentry, hentryId⟩ := hworks
        obtain ⟨other, hother⟩ := List.mem_iff_getElem?.mp hentry
        have hne : thread ≠ other := by
          rintro rfl
          obtain rfl := Option.some.inj (hother.symm.trans hstage)
          exact hid hentryId
        exact Or.inr ⟨entry,
          List.mem_of_getElem? ((List.getElem?_set_ne hne).trans hother), hentryId⟩
      · exact Or.inl (hkeeps.isFinal hrow fun before hbefore ↦
          (hreleased id before hbefore).resolve_right hworks)

/-! ### Which failures leave a job behind -/

theorem leaves_of_jobId (hjob : next.jobId = stage.jobId) : Leaves stage next later :=
  fun _ hid ↦ Or.inl (hjob.trans hid)

theorem leaves_none (hjob : stage.jobId = none) : Leaves stage next later := by
  intro id hid
  cases hjob.symm.trans hid

/-- A thread is over once it has written a final status. -/
theorem leaves_upsert (hbound : job.id < world.slots.length) (hjob : stage.jobId = some job.id)
    (hfinal : job.status.IsFinal) : Leaves stage next (world.upsert job) := by
  intro id hid
  obtain rfl := Option.some.inj (hjob.symm.trans hid)
  refine Or.inr fun row hrow ↦ ?_
  have hstatus := (World.status_of_job hrow).symm.trans (World.status_upsert hbound)
  rw [Option.some.inj hstatus]
  exact hfinal

/-- A thread that is over has not left a job that is queued. -/
theorem not_leaves_of_queued (hclaim : stage.claim = some ⟨job.id, some .queued, none⟩)
    (hmeets : world.Meets ⟨job.id, some .queued, none⟩) (hnext : next.jobId = none) :
    ¬ Leaves stage next world := by
  intro hleaves
  obtain ⟨row, hrow, hstatus⟩ := Option.map_eq_some_iff.mp hmeets.2.1
  have hjob : stage.jobId = some job.id := congrArg (Option.map Claim.id) hclaim
  rcases hleaves job.id hjob with hlater | hfinal
  · cases hnext.symm.trans hlater
  · exact (hfinal row hrow).not_active (Or.inl hstatus)

/-- What a failure may do at a stage. -/
def Spares (stage : Stage) (outcome : Outcome) : Prop := stage.LosesJob → outcome.failure = none

theorem leaves_iff_queued (hclaim : stage.claim = some ⟨job.id, some .queued, none⟩)
    (hmeets : world.Meets ⟨job.id, some .queued, none⟩) (hloses : stage.LosesJob)
    (hfailure : ∀ failure, outcome.failure = some failure → next = .ended (.error failure) ∧
      later = world)
    (hnone : outcome.failure = none → next.jobId = some job.id) :
    Leaves stage next later ↔ Spares stage outcome := by
  cases hoccurs : outcome.failure with
  | some failure =>
    obtain ⟨rfl, rfl⟩ := hfailure failure hoccurs
    have hspares : ¬ Spares stage outcome := fun hspares ↦ by
      cases (hspares hloses).symm.trans hoccurs
    exact iff_of_false (not_leaves_of_queued hclaim hmeets rfl) hspares
  | none =>
    have hjob : stage.jobId = some job.id := congrArg (Option.map Claim.id) hclaim
    exact iff_of_true (leaves_of_jobId ((hnone hoccurs).trans hjob.symm)) fun _ ↦ hoccurs

theorem leaves_queuing (req : CreateExportRequest) (hfits : (Stage.queuing req job).Fits world) :
    Leaves (.queuing req job) ((Stage.queuing req job).next sha256 outcome world).1
      ((Stage.queuing req job).next sha256 outcome world).2 := by
  have hmeets := hfits.claim _ rfl
  unfold Stage.next
  dsimp only
  cases outcome.persists job with
  | error failure =>
    intro id hid
    obtain rfl := Option.some.inj hid
    refine Or.inr fun row hrow ↦ ?_
    cases hmeets.2.1.symm.trans (World.status_of_job hrow)
  | ok persisted => exact leaves_of_jobId (Stage.isQueued_gathers req _).jobId

theorem leaves_finding (hfits : (Stage.finding job).Fits world) :
    Leaves (.finding job) ((Stage.finding job).next sha256 outcome world).1
      ((Stage.finding job).next sha256 outcome world).2 ↔ Spares (.finding job) outcome := by
  refine leaves_iff_queued rfl (hfits.claim _ rfl) trivial (fun failure hfailure ↦ ?_) fun hnone ↦
    ?_
  · simp only [Stage.next, hfailure, and_self]
  · simp only [Stage.next, hnone]
    exact (Stage.isQueued_admits _ _).jobId

theorem leaves_checking {segments rest : List SegmentInfo} {segment : SegmentInfo}
    (hfits : (Stage.checking job segments segment rest).Fits world) :
    Leaves (.checking job segments segment rest)
      ((Stage.checking job segments segment rest).next sha256 outcome world).1
      ((Stage.checking job segments segment rest).next sha256 outcome world).2 ↔
    Spares (.checking job segments segment rest) outcome := by
  refine leaves_iff_queued rfl (hfits.claim _ rfl) trivial (fun failure hfailure ↦ ?_) fun hnone ↦
    ?_
  · simp only [Stage.next, hfailure, and_self]
  · simp only [Stage.next, hnone]
    split_ifs
    · exact (Stage.isQueued_checks _ _ _).jobId
    · dsimp only
      exact (Stage.isQueued_judged _ _ _).jobId

theorem leaves_starting {segments : List SegmentInfo}
    (hfits : (Stage.starting job segments).Fits world) :
    Leaves (.starting job segments) ((Stage.starting job segments).next sha256 outcome world).1
      ((Stage.starting job segments).next sha256 outcome world).2 ↔
    Spares (.starting job segments) outcome := by
  have hstatus : job.status = .running := hfits.carries
  have hpersists : outcome.persists job = outcome.reply () := by
    unfold Outcome.persists
    rw [hstatus]
    rfl
  refine leaves_iff_queued rfl (hfits.claim _ rfl) trivial (fun failure hfailure ↦ ?_) fun hnone ↦
    ?_
  · simp only [Stage.next, hpersists, Outcome.reply, hfailure, and_self]
  · simp only [Stage.next, hpersists, Outcome.reply, hnone]
    rfl

/-- A thread leaves its job behind just when it fails on a call that loses it. -/
theorem leaves_iff (hfits : stage.Fits world) :
    Leaves stage (stage.next sha256 outcome world).1 (stage.next sha256 outcome world).2 ↔
      Spares stage outcome := by
  cases stage with
  | making temp req => exact iff_of_true (leaves_none rfl) False.elim
  | queuing req job => exact iff_of_true (leaves_queuing req hfits) False.elim
  | finding job => exact leaves_finding hfits
  | checking job segments segment rest => exact leaves_checking hfits
  | starting job segments => exact leaves_starting hfits
  | refusing job code message =>
    have hbound := (hfits.claim _ rfl).1
    exact iff_of_true (@leaves_upsert _ _ _ (job.refused code message) hbound rfl
      (Or.inr (Or.inl rfl)))
      False.elim
  | manifesting job segments output =>
    refine iff_of_true (leaves_of_jobId ?_) False.elim
    unfold Stage.next
    dsimp only
    cases outcome.failure with
    | some failure => rfl
    | none =>
      dsimp only
      split_ifs <;> rfl
  | naming job output =>
    refine iff_of_true (leaves_of_jobId ?_) False.elim
    unfold Stage.next
    dsimp only
    cases outcome.failure <;> rfl
  | encoding job cameraName output =>
    refine iff_of_true (leaves_of_jobId ?_) False.elim
    unfold Stage.next
    dsimp only
    cases outcome.failure <;> rfl
  | cleaning job output => exact iff_of_true (leaves_of_jobId rfl) False.elim
  | hashing job output =>
    refine iff_of_true (leaves_of_jobId ?_) False.elim
    unfold Stage.next
    dsimp only
    cases outcome.ofFile sha256 (world.files output) <;> rfl
  | measuring job output digest =>
    refine iff_of_true (leaves_of_jobId ?_) False.elim
    unfold Stage.next
    dsimp only
    cases outcome.ofFile List.length (world.files output) <;> rfl
  | completing job output digest size now =>
    have hbound := (hfits.claim _ rfl).1
    exact iff_of_true (@leaves_upsert _ _ _ (job.finished output digest size now) hbound
      rfl (Or.inl rfl))
      False.elim
  | breaking job output failure =>
    have hbound := (hfits.claim _ rfl).1
    exact iff_of_true (@leaves_upsert _ _ _ (job.broken failure) hbound rfl (Or.inr (Or.inl rfl)))
      False.elim
  | _ => exact iff_of_true (leaves_none rfl) False.elim

/-! ### What the retention policy keeps -/

theorem World.mem_activeExports : job ∈ world.activeExports ↔
    (∃ id, world.job id = some job) ∧ (job.status = .queued ∨ job.status = .running) := by
  unfold World.activeExports
  rw [List.mem_filter, decide_eq_true_iff]
  refine and_congr_left fun _ ↦ ?_
  constructor
  · intro hmem
    obtain ⟨slot, hslot, hsome⟩ := List.mem_filterMap.mp hmem
    obtain ⟨place, hplace⟩ := List.mem_iff_getElem?.mp hslot
    refine ⟨place, ?_⟩
    unfold World.job
    rw [hplace]
    exact hsome
  · rintro ⟨id, hjob⟩
    refine List.mem_filterMap.mpr ⟨some job, List.mem_of_getElem? (i := id) ?_, rfl⟩
    unfold World.job at hjob
    exact Option.join_eq_some_iff.mp hjob

/-- No job is held when every job has a final status. -/
theorem activeExports_eq_nil (horderly : world.IsOrderly) :
    world.activeExports = [] ↔ ∀ id row, world.job id = some row → row.status.IsFinal := by
  constructor
  · intro hnone id row hrow
    have hactive : ¬ (row.status = .queued ∨ row.status = .running) := fun hactive ↦ by
      have hmem := World.mem_activeExports.mpr ⟨⟨id, hrow⟩, hactive⟩
      rw [hnone] at hmem
      cases hmem
    have hlive := horderly.live id row hrow
    cases hstatus : row.status with
    | queued => exact absurd (Or.inl hstatus) hactive
    | running => exact absurd (Or.inr hstatus) hactive
    | completed => exact Or.inl rfl
    | failed => exact Or.inr (Or.inl rfl)
    | cancelled => exact absurd hstatus hlive
    | expired => exact Or.inr (Or.inr rfl)
  · intro hfinal
    refine List.eq_nil_iff_forall_not_mem.mpr fun job hmem ↦ ?_
    obtain ⟨⟨id, hrow⟩, hactive⟩ := World.mem_activeExports.mp hmem
    exact (hfinal id job hrow).not_active hactive

/-- After the process has ended every job that is left has to have a final status. -/
theorem released_nil (horderly : world.IsOrderly) :
    Released [] world ↔ world.activeExports = [] := by
  rw [activeExports_eq_nil horderly]
  constructor
  · intro hreleased id row hrow
    refine (hreleased id row hrow).resolve_right ?_
    rintro ⟨entry, hentry, -⟩
    cases hentry
  · intro hfinal id row hrow
    exact Or.inl (hfinal id row hrow)

theorem orderly_nil (horderly : world.IsOrderly) : Orderly [] world where
  table := horderly
  fits := by
    intro thread entry hentry
    cases hentry
  alone := by
    intro thread other first second id hfirst
    cases hfirst

/-- A thread that starts without a job, and a change beside the table, leave no job behind. -/
theorem Released.mono {after : Stages} (hreleased : Released stages world)
    (hslots : later.slots = world.slots) (hstages : ∀ entry ∈ stages, entry ∈ after) :
    Released after later := by
  intro id row hrow
  unfold World.job at hrow
  rw [hslots] at hrow
  exact (hreleased id row hrow).imp_right fun ⟨entry, hentry, hworks⟩ ↦
    ⟨entry, hstages entry hentry, hworks⟩

end Stages

/-! ### Runs -/

section Runs

variable {sha256} {stages : Stages} {world : World}

theorem released_start (hreleased : Released stages world) (entry : Origin × Stage) :
    Released (stages ++ [entry]) world :=
  hreleased.mono rfl fun _ hentry ↦ List.mem_append_left _ hentry

/-- A step leaves no job behind just when it is careful. -/
theorem released_step (horderly : Orderly stages world) (hreleased : Released stages world)
    (exportStep : ExportStep) :
    Released (exportStep.apply sha256 stages world).1 (exportStep.apply sha256 stages world).2 ↔
      IsCareful ((staging sha256).system stages world) (.run exportStep) := by
  cases exportStep with
  | create req => exact iff_of_true (released_start hreleased _) trivial
  | prune => exact iff_of_true (released_start hreleased _) trivial
  | enforce ratio => exact iff_of_true (released_start hreleased _) trivial
  | tick now => exact iff_of_true (hreleased.mono rfl fun _ hentry ↦ hentry) trivial
  | encoded thread content =>
    refine iff_of_true ?_ trivial
    unfold ExportStep.apply
    dsimp only
    cases (stages[thread]?).bind fun entry ↦ entry.2.encodes with
    | none => exact hreleased
    | some output => exact hreleased.mono rfl fun _ hentry ↦ hentry
  | resume thread outcome =>
    unfold ExportStep.apply IsCareful
    dsimp only
    cases hstage : stages[thread]? with
    | none =>
      refine iff_of_true hreleased fun tag call next hthread ↦ ?_
      rw [Staging.getElem_threads, hstage] at hthread
      cases hthread
    | some entry =>
      obtain ⟨tag, stage⟩ := entry
      have hfits := horderly.fits thread _ hstage
      have hspares : Spares stage outcome ↔
          ∀ tag call next,
            ((staging sha256).system stages world).threads[thread]? = some (tag, .await call next) →
              call.LosesJob → outcome.failure = none := by
        rw [Staging.getElem_threads, hstage]
        constructor
        · intro hspares tag call next hthread hloses
          have hprogram := (Prod.ext_iff.mp (Option.some.inj hthread)).2
          exact hspares ((Stage.losesJob_iff hfits.carries).mpr ⟨call, next, hprogram, hloses⟩)
        · intro hall hloses
          obtain ⟨call, next, hprogram, hcall⟩ := (Stage.losesJob_iff hfits.carries).mp hloses
          refine hall tag call next ?_ hcall
          exact congrArg some (Prod.ext rfl hprogram)
      rw [← hspares, ← @leaves_iff sha256 _ _ outcome hfits]
      exact released_advance horderly hreleased hstage (advances_next horderly.table hfits)

variable (sha256)

/-- The states of a run: threads at stages, an orderly table, and no job left behind. -/
def IsTended (system : ExportSystem) : Prop :=
  ∃ stages world, system = (staging sha256).system stages world ∧ Orderly stages world ∧
    Released stages world

theorem isTended_initial : IsTended sha256 initial := by
  refine ⟨[], {}, rfl, Orderly.initial, fun id row hrow ↦ ?_⟩
  have hjob : ({} : World).job id = none := rfl
  cases hjob.symm.trans hrow

variable {sha256}

theorem isReleased_heldStep {system : ExportSystem} (htended : IsTended sha256 system)
    (move : HeldStep) : IsReleased (heldStep sha256 system move) ↔ IsCareful system move := by
  obtain ⟨stages, world, rfl, horderly, hreleased⟩ := htended
  cases move with
  | run exportStep =>
    have hstep : heldStep sha256 ((staging sha256).system stages world) (.run exportStep) = _ :=
      step_system sha256 exportStep
    rw [hstep, isReleased_system (horderly.step exportStep)]
    exact released_step horderly hreleased exportStep
  | crash =>
    have hreleasedNil := @isReleased_system sha256 [] world (orderly_nil horderly.table)
    exact hreleasedNil.trans (released_nil horderly.table)

theorem isTended_heldStep {system : ExportSystem} (htended : IsTended sha256 system)
    {move : HeldStep} (hcareful : IsCareful system move) :
    IsTended sha256 (heldStep sha256 system move) := by
  obtain ⟨stages, world, rfl, horderly, hreleased⟩ := htended
  cases move with
  | run exportStep =>
    exact ⟨_, _, step_system sha256 exportStep, horderly.step exportStep,
      (released_step horderly hreleased exportStep).mpr hcareful⟩
  | crash =>
    exact ⟨[], world, rfl, orderly_nil horderly.table, (released_nil horderly.table).mpr hcareful⟩

end Runs

/-- In every state of a run a job whose code is over has a final status just when no step of the run
leaves a job behind. -/
theorem eachState_isReleased_iff (steps : List HeldStep) :
    EachState (heldStep sha256) IsReleased initial steps ↔
      EachMove (heldStep sha256) IsCareful initial steps := by
  refine eachState_iff_eachMove (IsTended sha256) (isTended_initial sha256) ?_
    (fun _ move htended ↦ isReleased_heldStep htended move) fun _ _ htended ↦
      isTended_heldStep htended
  rintro system ⟨stages, world, rfl, horderly, hreleased⟩
  exact (isReleased_system horderly).mpr hreleased

/-! ### The search for segments fails -/

def sampleRequest : CreateExportRequest where
  cameraId := "cam"
  startTime := 0
  endTime := 60000
  exportMode := none
  includeOsd := false
  userId := none
  customSegments := []

/-- The request persists its job, and the database does not answer the search for its segments. -/
def lostSearch : List HeldStep :=
  [.run (.create sampleRequest), .run (.resume 0 {}), .run (.resume 0 {}), .run (.resume 0 {}),
    .run (.resume 0 { failure := some { code := none, message := "connection closed" } })]

theorem not_isReleased_lostSearch :
    ¬ IsReleased (runMoves (heldStep fun _ ↦ "") initial lostSearch) := by
  intro hreleased
  rcases hreleased 0 (sampleRequest.initialJob 0 0) rfl with hfinal | ⟨entry, hentry, hworks⟩
  · rcases hfinal with hcompleted | hfailed | hexpired
    · cases hcompleted
    · cases hfailed
    · cases hexpired
  · obtain rfl := List.mem_singleton.mp hentry
    cases hworks

end VmsLite.Exports
