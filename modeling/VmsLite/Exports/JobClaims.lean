import VmsLite.Exports.ExportRuns

/-!
# The jobs that threads work on

What holds of every run of exports and prunes, whatever fails: each thread of an export has a job of
its own, whose row and output name are where the thread left them, and a prune run works on jobs
that are completed or expired (`Orderly.step`).
-/

set_option autoImplicit false

namespace VmsLite.Exports

open VmsLite.Async Program

variable (sha256 : Content → String)

/-! ### What a thread claims of the table -/

/-- The status of the row of a job, if there is a row yet, and the name of its output file. -/
structure Claim where
  id : JobId
  status : Option ExportStatus
  output : Option Path
  deriving DecidableEq, Repr

/-- What an export knows of its own job. -/
def Stage.claim : Stage → Option Claim
  | .queuing _ job => some ⟨job.id, none, none⟩
  | .finding job | .checking job _ _ _ | .refusing job _ _ | .starting job _ =>
    some ⟨job.id, some .queued, none⟩
  | .manifesting job _ output | .naming job output | .encoding job _ output | .cleaning job output
  | .hashing job output | .measuring job output _ | .completing job output _ _ _
  | .breaking job output _ => some ⟨job.id, some .running, some output⟩
  | _ => none

/-- The job whose code a thread runs. -/
def Stage.jobId (stage : Stage) : Option JobId := stage.claim.map Claim.id

/-- The status that a write takes along. -/
def Stage.Carries : Stage → Prop
  | .queuing _ job => job.status = .queued
  | .starting job _ => job.status = .running
  | _ => True

namespace World

def status (world : World) (id : JobId) : Option ExportStatus :=
  (world.job id).map ExportJobDto.status

def Meets (world : World) (claim : Claim) : Prop :=
  claim.id < world.slots.length ∧ world.status claim.id = claim.status ∧
    world.outputs claim.id = claim.output

/-- A job that is or was completed, with a file of this name. -/
def IsPrunable (world : World) (id : JobId) (path : Option Path) : Prop :=
  ∃ row, world.job id = some row ∧ (row.status = .completed ∨ row.status = .expired) ∧
    row.filePath = path

/-- Rows stand under their ids, no job is cancelled, rows that are or were completed have the name
that their execution gave, and names belong to ids that were drawn. -/
structure IsOrderly (world : World) : Prop where
  ids : ∀ id row, world.job id = some row → row.id = id
  live : ∀ id row, world.job id = some row → row.status ≠ .cancelled
  named : ∀ id path, world.IsPrunable id path →
    path = world.outputs id ∧ world.outputs id ≠ none
  drawn : ∀ id path, world.outputs id = some path → id < world.slots.length ∧ path ≠ ""

/-- Between two worlds the job keeps its row and its name, or is prunable in both. -/
def Keeps (world later : World) (id : JobId) : Prop :=
  later.outputs id = world.outputs id ∧ (later.job id = world.job id ∨
    ∃ path, world.IsPrunable id path ∧ later.IsPrunable id path)

end World

/-- What a prune run knows of the jobs that it works on. -/
def Stage.Prunes (world : World) : Stage → Prop
  | .unlinking path id rest _ =>
    world.IsPrunable id (some path) ∧ ∀ job ∈ rest, world.IsPrunable job.id job.filePath
  | .fetching id rest _ =>
    (∃ path, world.IsPrunable id path) ∧ ∀ job ∈ rest, world.IsPrunable job.id job.filePath
  | .expiring job rest _ =>
    world.IsPrunable job.id job.filePath ∧ ∀ job ∈ rest, world.IsPrunable job.id job.filePath
  | _ => True

/-- What a thread knows is so. -/
structure Stage.Fits (stage : Stage) (world : World) : Prop where
  claim : ∀ claim, stage.claim = some claim → world.Meets claim
  carries : stage.Carries
  prunes : stage.Prunes world

namespace World

variable {world later : World} {job : ExportJobDto} {id : JobId} {path : Option Path}

theorem job_eq_some_lt {row : ExportJobDto} (hrow : world.job id = some row) :
    id < world.slots.length := by
  unfold World.job at hrow
  by_contra hbound
  rw [List.getElem?_eq_none (Nat.le_of_not_lt hbound)] at hrow
  cases hrow

theorem upsert_job_ne (hne : id ≠ job.id) : (world.upsert job).job id = world.job id := by
  simp only [World.upsert, World.job, List.getElem?_set_ne hne.symm]

theorem upsert_job_self (hbound : job.id < world.slots.length) :
    (world.upsert job).job job.id =
      some (((world.job job.id).map (updated · job)).getD job) := by
  simp only [World.upsert, World.job, List.getElem?_set_self hbound, Option.join_some]

theorem upsert_length : (world.upsert job).slots.length = world.slots.length := List.length_set ..

theorem status_upsert (hbound : job.id < world.slots.length) :
    (world.upsert job).status job.id = some job.status := by
  unfold World.status
  rw [upsert_job_self hbound]
  cases world.job job.id <;> rfl

theorem drawn_job : world.drawn.job id = world.job id := by
  simp only [World.drawn, World.job]
  by_cases hbound : id < world.slots.length
  · rw [List.getElem?_append_left hbound]
  · rw [List.getElem?_append_right (Nat.le_of_not_lt hbound),
      List.getElem?_eq_none (Nat.le_of_not_lt hbound)]
    cases hindex : id - world.slots.length <;> rfl

theorem keeps_of_same (hjob : later.job id = world.job id) (houtput : later.outputs id =
    world.outputs id) :
    world.Keeps later id := ⟨houtput, Or.inl hjob⟩

theorem IsPrunable.unique {other : Option Path} (hprunable : world.IsPrunable id path)
    (hother : world.IsPrunable id other) : path = other := by
  obtain ⟨row, hrow, -, rfl⟩ := hprunable
  obtain ⟨same, hsame, -, rfl⟩ := hother
  obtain rfl := Option.some.inj (hrow.symm.trans hsame)
  rfl

/-- A job that is prunable stays so, with its file. -/
theorem IsPrunable.keep (hprunable : world.IsPrunable id path) (hkeeps : world.Keeps later id) :
    later.IsPrunable id path := by
  rcases hkeeps.2 with hsame | ⟨other, hother, hlater⟩
  · obtain ⟨row, hrow, hstatus, hpath⟩ := hprunable
    exact ⟨row, hsame.trans hrow, hstatus, hpath⟩
  · rw [hprunable.unique hother]
    exact hlater

/-- The job of an export that is in progress is not prunable. -/
theorem Meets.not_isPrunable {claim : Claim} (hmeets : world.Meets claim)
    (hclaim : claim.status ≠ some .completed ∧ claim.status ≠ some .expired) :
    ¬ world.IsPrunable claim.id path := by
  rintro ⟨row, hrow, hstatus, -⟩
  have hsame : claim.status = some row.status := by
    rw [← hmeets.2.1]
    unfold World.status
    rw [hrow]
    rfl
  rcases hstatus with hcompleted | hexpired
  · exact hclaim.1 (hsame.trans (congrArg some hcompleted))
  · exact hclaim.2 (hsame.trans (congrArg some hexpired))

theorem Meets.keep {claim : Claim} (hmeets : world.Meets claim)
    (hclaim : claim.status ≠ some .completed ∧ claim.status ≠ some .expired)
    (hlength : world.slots.length ≤ later.slots.length) (hkeeps : world.Keeps later claim.id) :
    later.Meets claim := by
  refine ⟨hmeets.1.trans_le hlength, ?_, hkeeps.1.trans hmeets.2.2⟩
  rcases hkeeps.2 with hsame | ⟨path, hprunable, -⟩
  · refine Eq.trans ?_ hmeets.2.1
    unfold World.status
    rw [hsame]
  · exact absurd hprunable (hmeets.not_isPrunable hclaim)

end World

namespace Stage

variable {world later : World} {stage : Stage}

/-- An export in progress claims a job that is neither completed nor expired. -/
theorem claim_status {claim : Claim} (hclaim : stage.claim = some claim) :
    claim.status ≠ some .completed ∧ claim.status ≠ some .expired := by
  cases stage <;> cases hclaim <;> exact ⟨nofun, nofun⟩

/-- What a thread knows stays so when others keep the jobs that it knows of. -/
theorem Fits.keep (hfits : stage.Fits world) (hlength : world.slots.length ≤ later.slots.length)
    (hown : ∀ id, stage.jobId = some id → world.Keeps later id)
    (hpruned : ∀ id path, world.IsPrunable id path → world.Keeps later id) : stage.Fits later where
  claim := by
    intro claim hclaim
    refine (hfits.claim claim hclaim).keep (claim_status hclaim) hlength (hown _ ?_)
    unfold jobId
    rw [hclaim]
    rfl
  carries := hfits.carries
  prunes := by
    have hkeep : ∀ {id path}, world.IsPrunable id path → later.IsPrunable id path :=
      fun hprunable ↦ hprunable.keep (hpruned _ _ hprunable)
    have hprunes := hfits.prunes
    cases stage with
    | unlinking path id rest emergency =>
      exact ⟨hkeep hprunes.1, fun job hjob ↦ hkeep (hprunes.2 job hjob)⟩
    | fetching id rest emergency =>
      exact ⟨hprunes.1.imp fun _ hprunable ↦ hkeep hprunable, fun job hjob ↦
        hkeep (hprunes.2 job hjob)⟩
    | expiring job rest emergency =>
      exact ⟨hkeep hprunes.1, fun job hjob ↦ hkeep (hprunes.2 job hjob)⟩
    | _ => trivial

end Stage

/-! ### What one step of a thread does -/

namespace World

variable {world later : World} {job : ExportJobDto}

/-- The row of a job after its upsert. -/
theorem upsert_row (hbound : job.id < world.slots.length) :
    ∃ row, (world.upsert job).job job.id = some row ∧ row.status = job.status ∧
      row.filePath = job.filePath ∧ (row.id = job.id ∨ ∃ before, world.job job.id = some before ∧
        row.id = before.id) := by
  refine ⟨_, upsert_job_self hbound, ?_⟩
  cases hbefore : world.job job.id with
  | none => exact ⟨rfl, rfl, Or.inl rfl⟩
  | some before => exact ⟨rfl, rfl, Or.inr ⟨before, rfl, rfl⟩⟩

theorem IsOrderly.upsert (horderly : world.IsOrderly) (hbound : job.id < world.slots.length)
    (hlive : job.status ≠ .cancelled)
    (hnamed : job.status = .completed ∨ job.status = .expired →
      job.filePath = world.outputs job.id ∧ world.outputs job.id ≠ none) :
    (world.upsert job).IsOrderly where
  ids := by
    intro id row hrow
    by_cases hsame : id = job.id
    · subst hsame
      obtain ⟨written, hwritten, -, -, hid⟩ := upsert_row hbound
      obtain rfl := Option.some.inj (hwritten.symm.trans hrow)
      rcases hid with hid | ⟨before, hbefore, hid⟩
      · exact hid
      · exact hid.trans (horderly.ids _ _ hbefore)
    · rw [upsert_job_ne hsame] at hrow
      exact horderly.ids id row hrow
  live := by
    intro id row hrow
    by_cases hsame : id = job.id
    · subst hsame
      obtain ⟨written, hwritten, hstatus, -⟩ := upsert_row hbound
      obtain rfl := Option.some.inj (hwritten.symm.trans hrow)
      rw [hstatus]
      exact hlive
    · rw [upsert_job_ne hsame] at hrow
      exact horderly.live id row hrow
  named := by
    rintro id path ⟨row, hrow, hstatus, hpath⟩
    by_cases hsame : id = job.id
    · subst hsame
      obtain ⟨written, hwritten, hwrittenStatus, hwrittenPath, -⟩ := upsert_row hbound
      obtain rfl := Option.some.inj (hwritten.symm.trans hrow)
      rw [hwrittenStatus] at hstatus
      rw [hwrittenPath] at hpath
      rw [← hpath]
      exact hnamed hstatus
    · rw [upsert_job_ne hsame] at hrow
      exact horderly.named id path ⟨row, hrow, hstatus, hpath⟩
  drawn := by
    intro id path hpath
    rw [upsert_length]
    exact horderly.drawn id path hpath

/-- A change that leaves the table and the names alone. -/
theorem IsOrderly.same (horderly : world.IsOrderly) (hslots : later.slots = world.slots)
    (houtputs : later.outputs = world.outputs) : later.IsOrderly := by
  have hjob : later.job = world.job := by
    funext id
    unfold World.job
    rw [hslots]
  refine ⟨fun id row hrow ↦ ?_, fun id row hrow ↦ ?_, ?_, fun id path hpath ↦ ?_⟩
  · rw [hjob] at hrow
    exact horderly.ids id row hrow
  · rw [hjob] at hrow
    exact horderly.live id row hrow
  · rintro id path ⟨row, hrow, hstatus, hpath⟩
    rw [hjob] at hrow
    rw [houtputs]
    exact horderly.named id path ⟨row, hrow, hstatus, hpath⟩
  · rw [houtputs] at hpath
    rw [hslots]
    exact horderly.drawn id path hpath

theorem keeps_same (hslots : later.slots = world.slots) (houtputs : later.outputs = world.outputs)
    (id : JobId) : world.Keeps later id := by
  refine keeps_of_same ?_ (by rw [houtputs])
  unfold World.job
  rw [hslots]

/-- A job gets the row with which it is upserted. -/
theorem keeps_upsert {id : JobId} (hne : id ≠ job.id) : world.Keeps (world.upsert job) id :=
  keeps_of_same (upsert_job_ne hne) rfl

theorem IsOrderly.drawnId (horderly : world.IsOrderly) : world.drawn.IsOrderly := by
  refine ⟨fun id row hrow ↦ ?_, fun id row hrow ↦ ?_, ?_, fun id path hpath ↦ ?_⟩
  · rw [drawn_job] at hrow
    exact horderly.ids id row hrow
  · rw [drawn_job] at hrow
    exact horderly.live id row hrow
  · rintro id path ⟨row, hrow, hstatus, hpath⟩
    rw [drawn_job] at hrow
    exact horderly.named id path ⟨row, hrow, hstatus, hpath⟩
  · have hlength : world.drawn.slots.length = world.slots.length + 1 := by
      simp [World.drawn]
    rw [hlength]
    exact ⟨(horderly.drawn id path hpath).1.trans (Nat.lt_succ_self _),
      (horderly.drawn id path hpath).2⟩

/-- A job that is not prunable gets a name. -/
theorem IsOrderly.namedId (horderly : world.IsOrderly) {id : JobId} {output : Path}
    (hbound : id < world.slots.length) (hname : output ≠ "")
    (hprunable : ∀ path, ¬ world.IsPrunable id path) : (world.named id output).IsOrderly := by
  refine ⟨horderly.ids, horderly.live, ?_, fun other path hpath ↦ ?_⟩
  · rintro other path ⟨row, hrow, hstatus, hpath⟩
    have hne : other ≠ id := by
      rintro rfl
      exact hprunable path ⟨row, hrow, hstatus, hpath⟩
    have houtput : (world.named id output).outputs other = world.outputs other :=
      Function.update_of_ne hne _ _
    rw [houtput]
    exact horderly.named other path ⟨row, hrow, hstatus, hpath⟩
  · by_cases hsame : other = id
    · subst hsame
      have houtput : (world.named other output).outputs other = some output :=
        Function.update_self ..
      rw [houtput] at hpath
      obtain rfl := Option.some.inj hpath
      exact ⟨hbound, hname⟩
    · have houtput : (world.named id output).outputs other = world.outputs other :=
        Function.update_of_ne hsame _ _
      rw [houtput] at hpath
      exact horderly.drawn other path hpath

end World

theorem outputFileName_ne_empty (cameraId : CameraId) (now : ℕ) :
    outputFileName cameraId now ≠ "" := by
  intro hempty
  have hlength := congrArg String.length hempty
  simp [outputFileName] at hlength

/-- From one stage to the next: the table stays in order, the thread knows what it claims, the other
jobs keep what they have, and a job that is new to the thread is new altogether. -/
structure Advances (world later : World) (stage next : Stage) : Prop where
  orderly : later.IsOrderly
  fits : next.Fits later
  length : world.slots.length ≤ later.slots.length
  others : ∀ id, stage.jobId ≠ some id → world.Keeps later id
  own : ∀ id, next.jobId = some id → stage.jobId = some id ∨ id = world.slots.length

namespace Stage

variable {job : ExportJobDto}

/-- A stage of a job that is queued. -/
def IsQueued (job : ExportJobDto) (stage : Stage) : Prop :=
  stage.claim = some ⟨job.id, some .queued, none⟩ ∧ stage.Carries ∧ ∀ world, stage.Prunes world

theorem isQueued_judged (segments : List SegmentInfo) (world : World)
    (validation : ExportCompatibilityResult) :
        (judged job segments world validation).IsQueued job := by
  unfold judged
  split_ifs
  · exact ⟨rfl, rfl, fun _ ↦ trivial⟩
  · exact ⟨rfl, trivial, fun _ ↦ trivial⟩

theorem isQueued_checks (segments rest : List SegmentInfo) (world : World) :
    (checks job segments world rest).IsQueued job := by
  cases rest with
  | nil => exact isQueued_judged segments world _
  | cons segment rest => exact ⟨rfl, trivial, fun _ ↦ trivial⟩

theorem isQueued_admits (segments : List SegmentInfo) (world : World) :
    (admits job segments world).IsQueued job := by
  unfold admits
  split_ifs
  · exact ⟨rfl, trivial, fun _ ↦ trivial⟩
  · exact isQueued_checks segments segments world
  · exact ⟨rfl, rfl, fun _ ↦ trivial⟩

theorem isQueued_gathers (req : CreateExportRequest) (world : World) :
    (gathers req job world).IsQueued job := by
  unfold gathers
  split_ifs
  · exact ⟨rfl, trivial, fun _ ↦ trivial⟩
  · exact isQueued_admits req.customSegments world

theorem IsQueued.fits {stage : Stage} (hqueued : stage.IsQueued job) {world : World}
    (hmeets : world.Meets ⟨job.id, some .queued, none⟩) : stage.Fits world where
  claim := by
    intro claim hclaim
    obtain rfl := Option.some.inj (hqueued.1.symm.trans hclaim)
    exact hmeets
  carries := hqueued.2.1
  prunes := hqueued.2.2 world

theorem IsQueued.jobId {stage : Stage} (hqueued : stage.IsQueued job) :
    stage.jobId = some job.id := by
  unfold Stage.jobId
  rw [hqueued.1]
  rfl

theorem fits_over {world : World} (result : Except Failure Unit) : (ended result).Fits world :=
  ⟨nofun, trivial, trivial⟩

/-- A stage of an execution. -/
theorem fits_of_running {world : World} {stage : Stage} {output : Path}
    (hclaim : stage.claim = some ⟨job.id, some .running, some output⟩) (hcarries : stage.Carries)
    (hprunes : stage.Prunes world) (hmeets : world.Meets ⟨job.id, some .running, some output⟩) :
    stage.Fits world :=
  ⟨fun _ hfound ↦ Option.some.inj (hclaim.symm.trans hfound) ▸ hmeets, hcarries, hprunes⟩

end Stage

section Advance

variable {sha256} {world later : World} {stage next : Stage} {outcome : Outcome}
  {job : ExportJobDto}

theorem advances_same (horderly : world.IsOrderly) (hslots : later.slots = world.slots)
    (houtputs : later.outputs = world.outputs) (hfits : next.Fits world)
    (hown : ∀ id, next.jobId = some id → stage.jobId = some id) :
        Advances world later stage next where
  orderly := horderly.same hslots houtputs
  fits := hfits.keep (by rw [hslots]) (fun id _ ↦ World.keeps_same hslots houtputs id)
    fun id _ _ ↦ World.keeps_same hslots houtputs id
  length := by rw [hslots]
  others := fun id _ ↦ World.keeps_same hslots houtputs id
  own := fun id hid ↦ Or.inl (hown id hid)

/-- A thread writes the row of its job. -/
theorem advances_upsert (horderly : world.IsOrderly) (hbound : job.id < world.slots.length)
    (hjob : stage.jobId = some job.id) (hlive : job.status ≠ .cancelled)
    (hnamed : job.status = .completed ∨ job.status = .expired →
      job.filePath = world.outputs job.id ∧ world.outputs job.id ≠ none)
    (hfits : next.Fits (world.upsert job)) (hown : ∀ id, next.jobId = some id → id = job.id) :
    Advances world (world.upsert job) stage next where
  orderly := horderly.upsert hbound hlive hnamed
  fits := hfits
  length := World.upsert_length.ge
  others := fun _ hid ↦ World.keeps_upsert fun hsame ↦ hid (hsame ▸ hjob)
  own := fun id hid ↦ Or.inl (hown id hid ▸ hjob)

/-- A claim after the row has been written. -/
theorem meets_upsert {output : Option Path} (hbound : job.id < world.slots.length)
    (houtput : world.outputs job.id = output) :
    (world.upsert job).Meets ⟨job.id, some job.status, output⟩ :=
  ⟨by rw [World.upsert_length]; exact hbound, World.status_upsert hbound, houtput⟩

theorem advances_making (horderly : world.IsOrderly) (req : CreateExportRequest) (temp : Bool) :
    Advances world ((Stage.making temp req).next sha256 outcome world).2 (.making temp req)
      ((Stage.making temp req).next sha256 outcome world).1 := by
  cases temp with
  | false =>
    unfold Stage.next
    dsimp only
    cases outcome.failure with
    | some failure => exact advances_same horderly rfl rfl (Stage.fits_over _) nofun
    | none => exact advances_same horderly rfl rfl ⟨nofun, trivial, trivial⟩ nofun
  | true =>
    unfold Stage.next
    dsimp only
    cases outcome.failure with
    | some failure => exact advances_same horderly rfl rfl (Stage.fits_over _) nofun
    | none =>
      have hlength : world.drawn.slots.length = world.slots.length + 1 := by simp [World.drawn]
      have hnone : ∀ row, world.drawn.job world.slots.length ≠ some row := by
        intro row hrow
        rw [World.drawn_job] at hrow
        exact absurd (World.job_eq_some_lt hrow) (lt_irrefl _)
      have houtput : world.outputs world.slots.length = none := by
        cases hname : world.outputs world.slots.length with
        | none => rfl
        | some path => exact absurd (horderly.drawn _ path hname).1 (lt_irrefl _)
      refine ⟨horderly.drawnId, ⟨fun claim hclaim ↦ ?_, rfl, trivial⟩, hlength ▸ Nat.le_succ _,
        fun id _ ↦ World.keeps_of_same World.drawn_job rfl, fun id hid ↦ Or.inr ?_⟩
      · obtain rfl := Option.some.inj hclaim
        refine ⟨hlength ▸ Nat.lt_succ_self _, ?_, houtput⟩
        unfold World.status
        cases hrow : world.drawn.job world.slots.length with
        | none => exact congrArg (Option.map ExportJobDto.status) hrow
        | some row => exact absurd hrow (hnone row)
      · exact (Option.some.inj hid).symm

theorem advances_queuing (horderly : world.IsOrderly) (req : CreateExportRequest)
    (hfits : (Stage.queuing req job).Fits world) :
    Advances world ((Stage.queuing req job).next sha256 outcome world).2 (.queuing req job)
      ((Stage.queuing req job).next sha256 outcome world).1 := by
  have hmeets := hfits.claim _ rfl
  have hstatus : job.status = .queued := hfits.carries
  unfold Stage.next
  dsimp only
  cases outcome.persists job with
  | error failure => exact advances_same horderly rfl rfl (Stage.fits_over _) nofun
  | ok persisted =>
    have hwritten := meets_upsert hmeets.1 hmeets.2.2
    rw [hstatus] at hwritten
    refine advances_upsert horderly hmeets.1 rfl ?_ ?_
      ((Stage.isQueued_gathers req _).fits hwritten) ?_
    · rw [hstatus]
      exact nofun
    · rw [hstatus]
      rintro (hcompleted | hexpired)
      · cases hcompleted
      · cases hexpired
    · intro id hid
      exact Option.some.inj (hid.symm.trans (Stage.isQueued_gathers req _).jobId)

/-- A queued job goes on, or its code is over. -/
theorem advances_queued (horderly : world.IsOrderly) (hjob : stage.jobId = some job.id)
    (hmeets : world.Meets ⟨job.id, some .queued, none⟩) (hqueued : next.IsQueued job) :
    Advances world world stage next := by
  refine advances_same horderly rfl rfl (hqueued.fits hmeets) fun id hid ↦ ?_
  rw [hqueued.jobId] at hid
  exact hjob.trans hid

theorem advances_finding (horderly : world.IsOrderly) (hfits : (Stage.finding job).Fits world) :
    Advances world ((Stage.finding job).next sha256 outcome world).2 (.finding job)
      ((Stage.finding job).next sha256 outcome world).1 := by
  have hmeets := hfits.claim _ rfl
  unfold Stage.next
  dsimp only
  cases outcome.failure with
  | some failure => exact advances_same horderly rfl rfl (Stage.fits_over _) nofun
  | none => exact advances_queued horderly rfl hmeets (Stage.isQueued_admits _ _)

theorem advances_checking (horderly : world.IsOrderly) {segments rest : List SegmentInfo}
    {segment : SegmentInfo} (hfits : (Stage.checking job segments segment rest).Fits world) :
    Advances world ((Stage.checking job segments segment rest).next sha256 outcome world).2
      (.checking job segments segment rest)
      ((Stage.checking job segments segment rest).next sha256 outcome world).1 := by
  have hmeets := hfits.claim _ rfl
  unfold Stage.next
  dsimp only
  cases outcome.failure with
  | some failure => exact advances_same horderly rfl rfl (Stage.fits_over _) nofun
  | none =>
    by_cases hfound : outcome.found = true
    · rw [if_pos hfound]
      exact advances_queued horderly rfl hmeets (Stage.isQueued_checks _ _ _)
    · rw [if_neg hfound]
      dsimp only
      exact advances_queued horderly rfl hmeets (Stage.isQueued_judged _ _ _)

/-- A status that says neither that a job is completed nor that it is expired. -/
theorem not_kept {status : ExportStatus} {P : Prop}
    (hstatus : status ≠ .completed ∧ status ≠ .expired) :
    status = .completed ∨ status = .expired → P := by
  rintro (hcompleted | hexpired)
  · exact absurd hcompleted hstatus.1
  · exact absurd hexpired hstatus.2

theorem advances_refusing (horderly : world.IsOrderly) {code message : String}
    (hfits : (Stage.refusing job code message).Fits world) :
    Advances world (world.upsert (job.refused code message)) (.refusing job code message)
      (.ended (.error { code := some code, message := message })) :=
  advances_upsert horderly (hfits.claim _ rfl).1 rfl nofun (not_kept ⟨nofun, nofun⟩)
    (Stage.fits_over _) nofun

theorem advances_starting (horderly : world.IsOrderly) {segments : List SegmentInfo}
    (hfits : (Stage.starting job segments).Fits world) :
    Advances world ((Stage.starting job segments).next sha256 outcome world).2
      (.starting job segments)
      ((Stage.starting job segments).next sha256 outcome world).1 := by
  have hmeets := hfits.claim _ rfl
  have hstatus : job.status = .running := hfits.carries
  have hnot : job.status ≠ .completed ∧ job.status ≠ .expired := by
    rw [hstatus]
    exact ⟨nofun, nofun⟩
  have hlive : job.status ≠ .cancelled := by
    rw [hstatus]
    exact nofun
  unfold Stage.next
  dsimp only
  cases outcome.persists job with
  | error failure => exact advances_same horderly rfl rfl (Stage.fits_over _) nofun
  | ok persisted =>
    have hwritten := meets_upsert hmeets.1 hmeets.2.2
    have hfree : ∀ path, ¬ (world.upsert job).IsPrunable job.id path := fun path ↦ by
      refine hwritten.not_isPrunable ⟨fun hcompleted ↦ ?_, fun hexpired ↦ ?_⟩
      · exact hnot.1 (Option.some.inj hcompleted)
      · exact hnot.2 (Option.some.inj hexpired)
    refine ⟨(horderly.upsert hmeets.1 hlive (not_kept hnot)).namedId hwritten.1
      (outputFileName_ne_empty _ _) hfree, ?_, World.upsert_length.ge, fun id hid ↦ ?_,
        fun id hid ↦ ?_⟩
    · refine Stage.fits_of_running rfl trivial trivial ⟨hwritten.1, ?_, Function.update_self ..⟩
      exact hwritten.2.1.trans (congrArg some hstatus)
    · have hne : id ≠ job.id := fun hsame ↦ hid (congrArg some hsame.symm)
      exact ⟨Function.update_of_ne hne _ _, Or.inl (World.upsert_job_ne hne)⟩
    · exact Or.inl hid

/-- An execution goes on, whatever becomes of its file. -/
theorem advances_running (horderly : world.IsOrderly) {output : Path}
    (hclaim : stage.claim = some ⟨job.id, some .running, some output⟩) (hfits : stage.Fits world)
    (hslots : later.slots = world.slots) (houtputs : later.outputs = world.outputs)
    (hnext : next.claim = some ⟨job.id, some .running, some output⟩) (hcarries : next.Carries)
    (hprunes : next.Prunes world) : Advances world later stage next := by
  refine advances_same horderly hslots houtputs
    (Stage.fits_of_running hnext hcarries hprunes (hfits.claim _ hclaim)) fun id hid ↦ ?_
  unfold Stage.jobId at hid ⊢
  rw [hclaim, ← hnext]
  exact hid

theorem advances_completing (horderly : world.IsOrderly) {output : Path} {digest : String}
    {size now : ℕ} (hfits : (Stage.completing job output digest size now).Fits world) :
    Advances world (world.upsert (job.finished output digest size now))
      (.completing job output digest size now) (.ended (.ok ())) := by
  have hmeets := hfits.claim _ rfl
  refine advances_upsert horderly hmeets.1 rfl nofun (fun _ ↦ ⟨hmeets.2.2.symm, ?_⟩)
    (Stage.fits_over _) nofun
  intro hnone
  cases hmeets.2.2.symm.trans hnone

theorem advances_breaking (horderly : world.IsOrderly) {output : Path} {failure : Failure}
    (hfits : (Stage.breaking job output failure).Fits world) :
    Advances world (world.upsert (job.broken failure)) (.breaking job output failure)
        (.ended (.ok ())) :=
  advances_upsert horderly (hfits.claim _ rfl).1 rfl nofun (not_kept ⟨nofun, nofun⟩)
    (Stage.fits_over _) nofun

/-! ### Prune runs -/

theorem jobId_prunes (emergency : Bool) (jobs : List ExportJobDto) :
    (Stage.prunes emergency jobs).jobId = none := by
  cases jobs with
  | nil => cases emergency <;> rfl
  | cons job rest =>
    change (Stage.pruning job.id rest emergency (job.filePath.filter (· ≠ ""))).jobId = none
    cases job.filePath.filter (· ≠ "") <;> rfl

/-- A prune run goes on with jobs that are prunable. -/
theorem fits_prunes (emergency : Bool) {jobs : List ExportJobDto}
    (hjobs : ∀ job ∈ jobs, world.IsPrunable job.id job.filePath) :
    (Stage.prunes emergency jobs).Fits world := by
  cases jobs with
  | nil => cases emergency <;> exact ⟨nofun, trivial, trivial⟩
  | cons job rest =>
    have hrest : ∀ other ∈ rest, world.IsPrunable other.id other.filePath :=
      fun other hother ↦ hjobs other (List.mem_cons_of_mem _ hother)
    have hjob := hjobs job List.mem_cons_self
    change (Stage.pruning job.id rest emergency (job.filePath.filter (· ≠ ""))).Fits world
    cases hpath : job.filePath.filter (· ≠ "") with
    | none => exact ⟨nofun, trivial, ⟨_, hjob⟩, hrest⟩
    | some path =>
      rw [(Option.filter_eq_some_iff.mp hpath).1] at hjob
      exact ⟨nofun, trivial, hjob, hrest⟩

/-- A completed job of the listing is prunable. -/
theorem isPrunable_of_mem_listJobs (horderly : world.IsOrderly) (hmem : job ∈ world.listJobs)
    (hstatus : job.status = .completed) : world.IsPrunable job.id job.filePath := by
  unfold World.listJobs at hmem
  rw [List.mem_insertionSort] at hmem
  obtain ⟨row, hrow, rfl⟩ := List.mem_map.mp hmem
  obtain ⟨slot, hslot, hsome⟩ := List.mem_filterMap.mp hrow
  obtain ⟨place, hplace⟩ := List.mem_iff_getElem?.mp hslot
  have hjob : world.job place = some row := by
    unfold World.job
    rw [hplace]
    exact hsome
  have hid : (World.mapPrismaJob row).id = place := horderly.ids place row hjob
  rw [hid]
  exact ⟨row, hjob, Or.inl hstatus, rfl⟩

/-- A prune run starts on some of the jobs of the listing. -/
theorem advances_listed (horderly : world.IsOrderly) {emergency : Bool} {jobs : List ExportJobDto}
    (hjobs : ∀ job ∈ jobs, job ∈ world.listJobs ∧ job.status = .completed) :
    Advances world world stage (.prunes emergency jobs) := by
  refine advances_same horderly rfl rfl (fits_prunes emergency fun job hjob ↦ ?_) fun id hid ↦ ?_
  · exact isPrunable_of_mem_listJobs horderly (hjobs job hjob).1 (hjobs job hjob).2
  · rw [jobId_prunes] at hid
    cases hid

theorem completed_of_isExpired {now : ℕ} (hexpired : job.isExpired now = true) :
    job.status = .completed := (of_decide_eq_true hexpired).1

theorem mem_unexpired {jobs : List ExportJobDto} {now : ℕ} (hmem : job ∈ unexpired jobs now) :
    job ∈ jobs ∧ job.status = .completed := by
  unfold unexpired at hmem
  rw [List.mem_insertionSort] at hmem
  have hfilter := List.mem_filter.mp hmem
  exact ⟨hfilter.1, (of_decide_eq_true hfilter.2).1⟩

theorem advances_unlinking (horderly : world.IsOrderly) {path : Path} {id : JobId}
    {rest : List ExportJobDto} {emergency : Bool}
    (hfits : (Stage.unlinking path id rest emergency).Fits world) :
    Advances world ((Stage.unlinking path id rest emergency).next sha256 outcome world).2
      (.unlinking path id rest emergency)
      ((Stage.unlinking path id rest emergency).next sha256 outcome world).1 := by
  have hnext : (Stage.fetching id rest emergency).Fits world :=
    ⟨nofun, trivial, ⟨_, hfits.prunes.1⟩, hfits.prunes.2⟩
  unfold Stage.next
  dsimp only
  cases outcome.ofFile (fun _ ↦ ()) (world.files path) with
  | ok => exact advances_same horderly rfl rfl hnext nofun
  | error failure => exact advances_same horderly rfl rfl hnext nofun

theorem advances_fetching (horderly : world.IsOrderly) {id : JobId} {rest : List ExportJobDto}
    {emergency : Bool} (hfits : (Stage.fetching id rest emergency).Fits world) :
    Advances world ((Stage.fetching id rest emergency).next sha256 outcome world).2
      (.fetching id rest emergency)
      ((Stage.fetching id rest emergency).next sha256 outcome world).1 := by
  obtain ⟨⟨path, row, hrow, hstatus, hpath⟩, hrest⟩ := hfits.prunes
  have hid : (World.mapPrismaJob row).id = id := horderly.ids id row hrow
  have hjob : world.IsPrunable (World.mapPrismaJob row).id (World.mapPrismaJob row).filePath := by
    rw [hid]
    exact ⟨row, hrow, hstatus, rfl⟩
  unfold Stage.next
  dsimp only
  rw [hrow]
  exact advances_same horderly rfl rfl ⟨nofun, trivial, hjob, hrest⟩ nofun

/-- A job that expires stays prunable, and the other jobs keep what they have. -/
theorem keeps_expiring (hjob : world.IsPrunable job.id job.filePath) (id : JobId) :
    world.Keeps (world.upsert { job with status := .expired }) id := by
  obtain ⟨row, hrow, hstatus, hpath⟩ := hjob
  by_cases hsame : id = job.id
  · subst hsame
    obtain ⟨written, hwritten, hexpired, hfile, -⟩ :=
      @World.upsert_row world { job with status := .expired } (World.job_eq_some_lt hrow)
    exact ⟨rfl, Or.inr ⟨job.filePath, ⟨row, hrow, hstatus, hpath⟩, written, hwritten,
      Or.inr hexpired, hfile⟩⟩
  · exact World.keeps_upsert hsame

theorem advances_expiring (horderly : world.IsOrderly) {rest : List ExportJobDto} {emergency : Bool}
    (hfits : (Stage.expiring job rest emergency).Fits world) :
    Advances world (world.upsert { job with status := .expired }) (.expiring job rest emergency)
      (.prunes emergency rest) := by
  obtain ⟨hjob, hrest⟩ := hfits.prunes
  have hkeeps := keeps_expiring hjob
  obtain ⟨row, hrow, hstatus, hpath⟩ := hjob
  have hbound : job.id < world.slots.length := World.job_eq_some_lt hrow
  have hnamed := horderly.named job.id job.filePath ⟨row, hrow, hstatus, hpath⟩
  refine ⟨horderly.upsert hbound nofun fun _ ↦ hnamed, fits_prunes emergency fun other hother ↦ ?_,
    World.upsert_length.ge, fun id _ ↦ hkeeps id, fun id hid ↦ ?_⟩
  · exact (hrest other hother).keep (hkeeps other.id)
  · rw [jobId_prunes] at hid
    cases hid

/-- Whatever the awaited call of a thread comes to, the thread advances. -/
theorem advances_next (horderly : world.IsOrderly) (hfits : stage.Fits world) :
    Advances world (stage.next sha256 outcome world).2 stage
        (stage.next sha256 outcome world).1 := by
  cases stage with
  | making temp req => exact advances_making horderly req temp
  | queuing req job => exact advances_queuing horderly req hfits
  | finding job => exact advances_finding horderly hfits
  | checking job segments segment rest => exact advances_checking horderly hfits
  | refusing job code message => exact advances_refusing horderly hfits
  | starting job segments => exact advances_starting horderly hfits
  | manifesting job segments output =>
    unfold Stage.next
    dsimp only
    cases outcome.failure with
    | some failure => exact advances_running horderly rfl hfits rfl rfl rfl trivial trivial
    | none =>
      dsimp only
      split_ifs
      · exact advances_running horderly rfl hfits rfl rfl rfl trivial trivial
      · exact advances_running horderly rfl hfits rfl rfl rfl trivial trivial
  | naming job output =>
    unfold Stage.next
    dsimp only
    cases outcome.failure with
    | some failure => exact advances_running horderly rfl hfits rfl rfl rfl trivial trivial
    | none => exact advances_running horderly rfl hfits rfl rfl rfl trivial trivial
  | encoding job cameraName output =>
    unfold Stage.next
    dsimp only
    cases outcome.failure with
    | some failure => exact advances_running horderly rfl hfits rfl rfl rfl trivial trivial
    | none => exact advances_running horderly rfl hfits rfl rfl rfl trivial trivial
  | cleaning job output => exact advances_running horderly rfl hfits rfl rfl rfl trivial trivial
  | hashing job output =>
    unfold Stage.next
    dsimp only
    cases outcome.ofFile sha256 (world.files output) with
    | error failure => exact advances_running horderly rfl hfits rfl rfl rfl trivial trivial
    | ok digest => exact advances_running horderly rfl hfits rfl rfl rfl trivial trivial
  | measuring job output digest =>
    unfold Stage.next
    dsimp only
    cases outcome.ofFile List.length (world.files output) with
    | error failure => exact advances_running horderly rfl hfits rfl rfl rfl trivial trivial
    | ok size => exact advances_running horderly rfl hfits rfl rfl rfl trivial trivial
  | completing job output digest size now => exact advances_completing horderly hfits
  | breaking job output failure => exact advances_breaking horderly hfits
  | measuringDisk =>
    unfold Stage.next Stage.tiers
    dsimp only
    split_ifs
    · exact advances_same horderly rfl rfl ⟨nofun, trivial, trivial⟩ nofun
    · exact advances_same horderly rfl rfl (Stage.fits_over _) nofun
  | listing now emergency =>
    refine advances_listed horderly fun job hjob ↦ ?_
    have hfilter := List.mem_filter.mp hjob
    exact ⟨hfilter.1, completed_of_isExpired hfilter.2⟩
  | listingUnexpired => exact advances_listed horderly fun job hjob ↦ mem_unexpired hjob
  | unlinking path id rest emergency => exact advances_unlinking horderly hfits
  | fetching id rest emergency => exact advances_fetching horderly hfits
  | expiring job rest emergency => exact advances_expiring horderly hfits
  | ended result => exact advances_same horderly rfl rfl hfits fun id hid ↦ hid

end Advance

/-! ### What holds of every run -/

/-- The table is in order, every thread knows what it claims, and no two exports work on one job. -/
structure Orderly (stages : Stages) (world : World) : Prop where
  table : world.IsOrderly
  fits : ∀ (thread : ℕ) (entry : Origin × Stage), stages[thread]? = some entry → entry.2.Fits world
  alone : ∀ (thread other : ℕ) (first second : Origin × Stage) (id : JobId),
    stages[thread]? = some first → stages[other]? = some second →
      first.2.jobId = some id → second.2.jobId = some id → thread = other

namespace Orderly

variable {sha256} {stages : Stages} {world later : World}

theorem initial : Orderly [] {} where
  table := by
    have hjob : ∀ id, ({} : World).job id = none := fun _ ↦ rfl
    refine ⟨fun id row hrow ↦ ?_, fun id row hrow ↦ ?_, ?_, fun id path hpath ↦ ?_⟩
    · rw [hjob] at hrow
      cases hrow
    · rw [hjob] at hrow
      cases hrow
    · rintro id path ⟨row, hrow, -⟩
      rw [hjob] at hrow
      cases hrow
    · cases hpath
  fits := by
    intro thread entry hentry
    cases hentry
  alone := by
    intro thread other first second id hfirst
    cases hfirst

/-- The claim of a thread that works on a job. -/
theorem meets (horderly : Orderly stages world) {thread : ℕ} {entry : Origin × Stage} {id : JobId}
    (hentry : stages[thread]? = some entry) (hid : entry.2.jobId = some id) :
    ∃ claim, entry.2.claim = some claim ∧ claim.id = id ∧ world.Meets claim := by
  obtain ⟨claim, hclaim, rfl⟩ := Option.map_eq_some_iff.mp hid
  exact ⟨claim, hclaim, rfl, (horderly.fits thread entry hentry).claim claim hclaim⟩

/-- A prunable job is nobody's. -/
theorem not_jobId_of_isPrunable (horderly : Orderly stages world) {thread : ℕ}
    {entry : Origin × Stage} {id : JobId} {path : Option Path}
    (hentry : stages[thread]? = some entry)
    (hprunable : world.IsPrunable id path) : entry.2.jobId ≠ some id := by
  intro hid
  obtain ⟨claim, hclaim, rfl, hmeets⟩ := horderly.meets hentry hid
  exact hmeets.not_isPrunable (Stage.claim_status hclaim) hprunable

/-- A thread begins that has no job yet. -/
theorem start (horderly : Orderly stages world) {tag : Origin} {stage : Stage}
    (hfits : stage.Fits world) (hjob : stage.jobId = none) :
    Orderly (stages ++ [(tag, stage)]) world where
  table := horderly.table
  fits := by
    intro thread entry hentry
    rcases getElem?_concat_cases hentry with hold | rfl
    · exact horderly.fits thread entry hold
    · exact hfits
  alone := by
    intro thread other first second id hfirst hsecond hfirstId hsecondId
    rcases getElem?_concat_cases hfirst with hthread | rfl
    · rcases getElem?_concat_cases hsecond with hother | rfl
      · exact horderly.alone thread other first second id hthread hother hfirstId hsecondId
      · cases hjob.symm.trans hsecondId
    · cases hjob.symm.trans hfirstId

/-- A change that leaves the table and the names alone. -/
theorem same (horderly : Orderly stages world) (hslots : later.slots = world.slots)
    (houtputs : later.outputs = world.outputs) : Orderly stages later where
  table := horderly.table.same hslots houtputs
  fits := fun thread entry hentry ↦ (horderly.fits thread entry hentry).keep (by rw [hslots])
    (fun id _ ↦ World.keeps_same hslots houtputs id) fun id _ _ ↦
      World.keeps_same hslots houtputs id
  alone := horderly.alone

/-- A thread advances, and the others keep what they know. -/
theorem advance (horderly : Orderly stages world) {thread : ℕ} {tag : Origin} {stage next : Stage}
    (hstage : stages[thread]? = some (tag, stage)) (hadvances : Advances world later stage next) :
    Orderly (stages.set thread (tag, next)) later where
  table := hadvances.orderly
  fits := by
    intro other entry hentry
    rcases getElem?_set_cases hentry with ⟨-, rfl⟩ | ⟨hne, hold⟩
    · exact hadvances.fits
    · refine (horderly.fits other entry hold).keep hadvances.length (fun id hid ↦ ?_)
        fun id path hpath ↦ ?_
      · exact hadvances.others id fun hsame ↦
          hne (horderly.alone other thread _ _ id hold hstage hid hsame)
      · exact hadvances.others id (horderly.not_jobId_of_isPrunable hstage hpath)
  alone := by
    -- a job that is new to the thread is none of the jobs that the others claim
    have hapart : ∀ (other : ℕ) (entry : Origin × Stage) (id : JobId), other ≠ thread →
        stages[other]? = some entry → entry.2.jobId = some id → next.jobId ≠ some id := by
      intro other entry id hne hentry hid hnext
      rcases hadvances.own id hnext with hown | rfl
      · exact hne (horderly.alone other thread _ _ id hentry hstage hid hown)
      · obtain ⟨claim, -, hlength, hmeets⟩ := horderly.meets hentry hid
        exact absurd hmeets.1 (hlength ▸ lt_irrefl _)
    intro one other first second id hfirst hsecond hfirstId hsecondId
    rcases getElem?_set_cases hfirst with ⟨rfl, rfl⟩ | ⟨hone, holdFirst⟩
    · rcases getElem?_set_cases hsecond with ⟨rfl, -⟩ | ⟨hother, holdSecond⟩
      · rfl
      · exact absurd hfirstId (hapart other second id hother holdSecond hsecondId)
    · rcases getElem?_set_cases hsecond with ⟨rfl, rfl⟩ | ⟨hother, holdSecond⟩
      · exact absurd hsecondId (hapart one first id hone holdFirst hfirstId)
      · exact horderly.alone one other first second id holdFirst holdSecond hfirstId hsecondId

theorem enforces_fits (ratio : Option ℚ) : (Stage.enforces world ratio).Fits world ∧
    (Stage.enforces world ratio).jobId = none := by
  cases ratio with
  | none => exact ⟨⟨nofun, trivial, trivial⟩, rfl⟩
  | some usageRatio =>
    unfold Stage.enforces Stage.tiers
    dsimp only
    split_ifs
    · exact ⟨⟨nofun, trivial, trivial⟩, rfl⟩
    · exact ⟨Stage.fits_over _, rfl⟩

/-- Every step of a run keeps the order. -/
theorem step (horderly : Orderly stages world) (exportStep : ExportStep) :
    Orderly (exportStep.apply sha256 stages world).1 (exportStep.apply sha256 stages world).2 := by
  cases exportStep with
  | create req => exact horderly.start ⟨nofun, trivial, trivial⟩ rfl
  | prune => exact horderly.start ⟨nofun, trivial, trivial⟩ rfl
  | enforce ratio => exact horderly.start (enforces_fits ratio).1 (enforces_fits ratio).2
  | resume thread outcome =>
    unfold ExportStep.apply
    dsimp only
    cases hstage : stages[thread]? with
    | none => exact horderly
    | some entry =>
      exact horderly.advance hstage
        (advances_next horderly.table (horderly.fits thread entry hstage))
  | encoded thread content =>
    unfold ExportStep.apply
    dsimp only
    cases (stages[thread]?).bind fun entry ↦ entry.2.encodes with
    | none => exact horderly
    | some output => exact horderly.same rfl rfl
  | tick now => exact horderly.same rfl rfl

end Orderly

end VmsLite.Exports
