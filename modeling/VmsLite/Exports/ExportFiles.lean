import VmsLite.Exports.HeldRanges

/-!
# The files of the exports

A running job writes the file that its execution named, and a completed job has recorded one. In
every run in which no step leaves a file behind, every output file is the file of exactly one job,
the file of a completed job is what the job recorded, and a job expires when its file is gone
(`keepsFilesAccounted`). An ffmpeg that fails removes nothing, a prune run takes every failure of an
unlink for a file that is not there, and two executions for one camera in one millisecond write to
one file.
-/

set_option autoImplicit false

namespace VmsLite.Exports

open VmsLite.Async Program

namespace World

/-- The file that a running job writes, or that a completed job has recorded. -/
def Owns (world : World) (id : JobId) (path : Path) : Prop :=
  ∃ row, world.job id = some row ∧
    (row.status = .running ∧ world.outputs id = some path ∨
      row.status = .completed ∧ row.filePath = some path)

end World

variable (sha256 : Content → String)

/-- Every output file is that of exactly one job, and the file of a completed job has the size and
the checksum that the job recorded. -/
structure IsAccounted (system : ExportSystem) : Prop where
  owned : ∀ path content, system.world.files path = some content →
    ∃! id, system.world.Owns id path
  recorded : ∀ id row path content, system.world.job id = some row → row.status = .completed →
    row.filePath = some path → system.world.files path = some content →
      row.fileSize = some content.length ∧ row.sha256 = some (sha256 content)

/-- A job becomes expired only when its file no longer exists. -/
def ExpiresGone (system : ExportSystem) (exportStep : ExportStep) : Prop :=
  ∀ id row path, system.world.status id ≠ some .expired →
    (step sha256 system exportStep).world.job id = some row → row.status = .expired →
      row.filePath = some path → (step sha256 system exportStep).world.files path = none

/-- A run whose files are accounted for. -/
structure KeepsFilesAccounted (steps : List ExportStep) : Prop where
  states : EachState (step sha256) (IsAccounted sha256) initial steps
  expirations : EachMove (step sha256) (ExpiresGone sha256) initial steps

/-- An ffmpeg that fails leaves no file, a file that is there can be read and unlinked, and a job
starts at an instant whose file name is not that of another file. -/
def Call.IsClean (outcome : Outcome) (world : World) : Call → Prop
  | .ffmpeg .. => outcome.failure ≠ none → outcome.output = none
  | .computeSha256 _ path | .stat _ path | .unlink path =>
    outcome.failure ≠ none → world.files path = none
  | .persist job => job.status = .running → outcome.failure = none →
    ∀ other, ¬ world.Owns other (outputFileName job.cameraId world.now)
  | _ => True

/-- The steps that leave no file behind. -/
def IsClean (system : ExportSystem) : ExportStep → Prop
  | .resume thread outcome =>
    ∀ tag call next, system.threads[thread]? = some (tag, .await call next) →
    call.IsClean outcome system.world
  | _ => True

/-! ### What a thread knows of its file -/

/-- What a thread knows of the file of the job that it works on: it is not there before ffmpeg has
begun and after an execution has failed, it is what has been read of it, and it is gone before its
job expires. -/
def Stage.Knows (world : World) : Stage → Prop
  | .manifesting _ _ output | .naming _ output | .breaking _ output _ => world.files output = none
  | .measuring _ output digest =>
    ∀ content, world.files output = some content → digest = sha256 content
  | .completing _ output digest size _ =>
    ∀ content, world.files output = some content →
      digest = sha256 content ∧ size = content.length
  | .fetching id _ _ => ∀ path, world.Owns id path → world.files path = none
  | .expiring job _ _ => ∀ path, world.Owns job.id path → world.files path = none
  | _ => True

/-- The files, the table and what the threads know of them. -/
structure Accounted (stages : Stages) (world : World) : Prop where
  owned : ∀ path content, world.files path = some content → ∃ id, world.Owns id path
  apart : ∀ id other path, world.Owns id path → world.Owns other path → id = other
  recorded : ∀ id row path content, world.job id = some row → row.status = .completed →
    row.filePath = some path → world.files path = some content →
      row.fileSize = some content.length ∧ row.sha256 = some (sha256 content)
  knows : ∀ (thread : ℕ) (entry : Origin × Stage), stages[thread]? = some entry →
    entry.2.Knows sha256 world

/-- From one stage to the next: the thread touches no file but its own, files keep their job, a job
gets no file but a new one, and what it records is so. -/
structure Handles (world later : World) (stage next : Stage) : Prop where
  files : ∀ path, later.files path = world.files path ∨ later.files path = none ∨
    ∃ id, stage.jobId = some id ∧ world.Owns id path
  kept : ∀ id path content, later.files path = some content → world.Owns id path →
    later.Owns id path
  fresh : ∀ id path, later.Owns id path → world.Owns id path ∨
    stage.jobId = some id ∧ ∀ other, ¬ world.Owns other path
  recorded : ∀ id row path content, later.job id = some row → row.status = .completed →
    row.filePath = some path → later.files path = some content →
      world.job id = some row ∧ stage.jobId ≠ some id ∨
        row.fileSize = some content.length ∧ row.sha256 = some (sha256 content)
  knows : next.Knows sha256 later
  expires : ∀ id row path, world.status id ≠ some .expired → later.job id = some row →
    row.status = .expired → row.filePath = some path → later.files path = none

section Owns

variable {world later : World} {id : JobId} {path : Path}

/-- The file of a running job is the one that its execution named. -/
theorem World.Meets.owns_iff {output : Path}
    (hmeets : world.Meets ⟨id, some .running, some output⟩) :
    world.Owns id path ↔ path = output := by
  obtain ⟨-, hstatus, houtput⟩ := hmeets
  dsimp only at hstatus houtput
  obtain ⟨row, hrow, hrunning⟩ := Option.map_eq_some_iff.mp hstatus
  constructor
  · rintro ⟨found, hfound, hruns | ⟨hcompleted, -⟩⟩
    · exact Option.some.inj (hruns.2.symm.trans houtput)
    · obtain rfl := Option.some.inj (hfound.symm.trans hrow)
      cases hcompleted.symm.trans hrunning
  · rintro rfl
    exact ⟨row, hrow, Or.inl ⟨hrunning, houtput⟩⟩

/-- A job that is neither running nor completed has no file. -/
theorem World.not_owns_of_status {status : Option ExportStatus} (hstatus : world.status id = status)
    (hnot : status ≠ some .running ∧ status ≠ some .completed) : ¬ world.Owns id path := by
  rintro ⟨row, hrow, howns⟩
  have hsame := (World.status_of_job hrow).symm.trans hstatus
  rcases howns with ⟨hrunning, -⟩ | ⟨hcompleted, -⟩
  · exact hnot.1 (hsame ▸ congrArg some hrunning)
  · exact hnot.2 (hsame ▸ congrArg some hcompleted)

/-- A prunable job has no file but the one that it recorded. -/
theorem World.IsPrunable.filePath_eq {recorded : Option Path}
    (hprunable : world.IsPrunable id recorded)
    (howns : world.Owns id path) : recorded = some path := by
  obtain ⟨row, hrow, hstatus, rfl⟩ := hprunable
  obtain ⟨found, hfound, ⟨hrunning, -⟩ | ⟨-, hpath⟩⟩ := howns
  · obtain rfl := Option.some.inj (hfound.symm.trans hrow)
    rcases hstatus with hcompleted | hexpired
    · cases hrunning.symm.trans hcompleted
    · cases hrunning.symm.trans hexpired
  · obtain rfl := Option.some.inj (hfound.symm.trans hrow)
    exact hpath

theorem World.owns_congr (hjob : later.job id = world.job id)
    (houtput : later.outputs id = world.outputs id) : later.Owns id path ↔ world.Owns id path := by
  unfold World.Owns
  rw [hjob, houtput]

end Owns

section Threads

variable {sha256} {stages : Stages} {world later : World} {stage next : Stage} {thread : ℕ}
  {tag : Origin}

/-- No other thread has to do with a file that a thread touches. -/
theorem files_of_not_own (haccounted : Accounted sha256 stages world)
    (hhandles : Handles sha256 world later stage next) {id : JobId} {path : Path}
    (howns : world.Owns id path) (hid : stage.jobId ≠ some id) :
    later.files path = world.files path ∨ later.files path = none := by
  rcases hhandles.files path with hsame | hnone | ⟨own, hown, howned⟩
  · exact Or.inl hsame
  · exact Or.inr hnone
  · obtain rfl := haccounted.apart _ _ _ howned howns
    exact absurd hown hid

/-- What another thread knows of a job stays so. -/
theorem knows_of_other (horderly : Orderly stages world)
    (haccounted : Accounted sha256 stages world)
    (hstage : stages[thread]? = some (tag, stage))
    (hhandles : Handles sha256 world later stage next) {other : ℕ} {entry : Origin × Stage}
    (hne : other ≠ thread) (hentry : stages[other]? = some entry) :
    entry.2.Knows sha256 later := by
  have hknows := haccounted.knows other entry hentry
  have hfits := horderly.fits other entry hentry
  obtain ⟨entryTag, found⟩ := entry
  have hrunning : ∀ {job : ExportJobDto} {output : Path},
      found.claim = some ⟨job.id, some .running, some output⟩ →
        later.files output = world.files output ∨ later.files output = none := by
    intro job output hclaim
    have howns := ((hfits.claim _ hclaim).owns_iff).mpr rfl
    refine files_of_not_own haccounted hhandles howns fun hid ↦ hne ?_
    refine horderly.alone other thread _ _ job.id hentry hstage ?_ hid
    unfold Stage.jobId
    dsimp only
    rw [hclaim]
    rfl
  have hgone : ∀ {id : JobId} {recorded : Option Path}, world.IsPrunable id recorded →
      (∀ path, world.Owns id path → world.files path = none) →
        ∀ path, later.Owns id path → later.files path = none := by
    intro id recorded hprunable hnone path howns
    have hid := horderly.not_jobId_of_isPrunable hstage hprunable
    have hbefore := (hhandles.fresh id path howns).resolve_right fun hown ↦ hid hown.1
    rcases files_of_not_own haccounted hhandles hbefore hid with hsame | hgone
    · exact hsame.trans (hnone path hbefore)
    · exact hgone
  cases found with
  | manifesting job segments output =>
    exact (hrunning rfl).elim (fun hsame ↦ hsame.trans hknows) id
  | naming job output => exact (hrunning rfl).elim (fun hsame ↦ hsame.trans hknows) id
  | breaking job output failure => exact (hrunning rfl).elim (fun hsame ↦ hsame.trans hknows) id
  | measuring job output digest =>
    intro content hcontent
    rcases hrunning rfl with hsame | hnone
    · exact hknows content (hsame.symm.trans hcontent)
    · cases hnone.symm.trans hcontent
  | completing job output digest size now =>
    intro content hcontent
    rcases hrunning rfl with hsame | hnone
    · exact hknows content (hsame.symm.trans hcontent)
    · cases hnone.symm.trans hcontent
  | fetching id rest emergency =>
    obtain ⟨⟨recorded, hprunable⟩, -⟩ := hfits.prunes
    exact hgone hprunable hknows
  | expiring job rest emergency => exact hgone hfits.prunes.1 hknows
  | _ => trivial

/-- A thread goes on, and the files stay accounted for. -/
theorem Accounted.advance (haccounted : Accounted sha256 stages world)
    (horderly : Orderly stages world) (hstage : stages[thread]? = some (tag, stage))
    (hhandles : Handles sha256 world later stage next) :
    Accounted sha256 (stages.set thread (tag, next)) later where
  owned := by
    intro path content hcontent
    rcases hhandles.files path with hsame | hnone | ⟨id, -, howns⟩
    · obtain ⟨id, howns⟩ := haccounted.owned path content (hsame.symm.trans hcontent)
      exact ⟨id, hhandles.kept id path content hcontent howns⟩
    · cases hnone.symm.trans hcontent
    · exact ⟨id, hhandles.kept id path content hcontent howns⟩
  apart := by
    intro id other path hid hother
    rcases hhandles.fresh id path hid with hold | ⟨hown, hnobody⟩
    · rcases hhandles.fresh other path hother with hbefore | ⟨-, hnobody⟩
      · exact haccounted.apart id other path hold hbefore
      · exact absurd hold (hnobody id)
    · rcases hhandles.fresh other path hother with hbefore | ⟨hsame, -⟩
      · exact absurd hbefore (hnobody other)
      · exact Option.some.inj (hown.symm.trans hsame)
  recorded := by
    intro id row path content hrow hcompleted hpath hcontent
    rcases hhandles.recorded id row path content hrow hcompleted hpath hcontent with
      ⟨hbefore, hid⟩ | hrecords
    · have howns : world.Owns id path := ⟨row, hbefore, Or.inr ⟨hcompleted, hpath⟩⟩
      rcases files_of_not_own haccounted hhandles howns hid with hsame | hnone
      · exact haccounted.recorded id row path content hbefore hcompleted hpath
          (hsame.symm.trans hcontent)
      · cases hnone.symm.trans hcontent
    · exact hrecords
  knows := by
    intro other entry hentry
    rcases getElem?_set_cases hentry with ⟨-, rfl⟩ | ⟨hne, hold⟩
    · exact hhandles.knows
    · exact knows_of_other horderly haccounted hstage hhandles hne hold

end Threads

/-! ### What each stage does with the files -/

section Handles

variable {sha256} {world later : World} {stage next : Stage} {job : ExportJobDto} {own : JobId}

/-- The job of an export in progress is not completed. -/
theorem Stage.Fits.not_completed (hfits : stage.Fits world) {id : JobId}
    (hid : stage.jobId = some id) {row : ExportJobDto} (hrow : world.job id = some row) :
    row.status ≠ .completed := by
  intro hcompleted
  obtain ⟨claim, hclaim, rfl⟩ := Option.map_eq_some_iff.mp hid
  exact (hfits.claim claim hclaim).not_isPrunable (Stage.claim_status hclaim)
    ⟨row, hrow, Or.inl hcompleted, rfl⟩

/-- The table and the names stay as they are. -/
theorem handles_files (hfits : stage.Fits world) (hjob : ∀ id, later.job id = world.job id)
    (houtputs : later.outputs = world.outputs)
    (hfiles : ∀ path, later.files path = world.files path ∨ later.files path = none ∨
      ∃ id, stage.jobId = some id ∧ world.Owns id path)
    (hknows : next.Knows sha256 later) : Handles sha256 world later stage next := by
  have howns : ∀ id path, later.Owns id path ↔ world.Owns id path := fun id path ↦
    World.owns_congr (hjob id) (congrFun houtputs id)
  refine ⟨hfiles, fun id path _ _ hid ↦ (howns id path).mpr hid,
    fun id path hid ↦ Or.inl ((howns id path).mp hid),
    fun id row path content hrow hcompleted _ _ ↦ Or.inl ?_, hknows,
    fun id row path hstatus hrow hexpired _ ↦ ?_⟩
  · rw [hjob] at hrow
    exact ⟨hrow, fun hid ↦ hfits.not_completed hid hrow hcompleted⟩
  · rw [hjob] at hrow
    exact absurd ((World.status_of_job hrow).trans (congrArg some hexpired)) hstatus

/-- Nothing changes. -/
theorem handles_same (hfits : stage.Fits world) (hknows : next.Knows sha256 world) :
    Handles sha256 world world stage next :=
  handles_files hfits (fun _ ↦ rfl) rfl (fun _ ↦ Or.inl rfl) hknows

/-- One job gets another row or another name, and the files stay as they are. -/
theorem handles_row (hjobId : ∀ id, stage.jobId = some id → id = own)
    (hfiles : later.files = world.files)
    (hother : ∀ id, id ≠ own →
      later.job id = world.job id ∧ later.outputs id = world.outputs id)
    (hkept : ∀ path content, world.files path = some content → world.Owns own path →
      later.Owns own path)
    (hfresh : ∀ path, later.Owns own path → world.Owns own path ∨
      stage.jobId = some own ∧ ∀ other, ¬ world.Owns other path)
    (hrecorded : ∀ row path content, later.job own = some row → row.status = .completed →
      row.filePath = some path → world.files path = some content →
        row.fileSize = some content.length ∧ row.sha256 = some (sha256 content))
    (hexpires : ∀ row path, world.status own ≠ some .expired → later.job own = some row →
      row.status = .expired → row.filePath = some path → world.files path = none)
    (hknows : next.Knows sha256 later) : Handles sha256 world later stage next := by
  have howns : ∀ id path, id ≠ own → (later.Owns id path ↔ world.Owns id path) :=
    fun id path hne ↦ World.owns_congr (hother id hne).1 (hother id hne).2
  refine ⟨fun path ↦ Or.inl (congrFun hfiles path), fun id path content hcontent hid ↦ ?_,
    fun id path hid ↦ ?_, fun id row path content hrow hcompleted hpath hcontent ↦ ?_, hknows,
    fun id row path hstatus hrow hexpired hpath ↦ ?_⟩
  · rw [hfiles] at hcontent
    by_cases hsame : id = own
    · subst hsame
      exact hkept path content hcontent hid
    · exact (howns id path hsame).mpr hid
  · by_cases hsame : id = own
    · subst hsame
      exact hfresh path hid
    · exact Or.inl ((howns id path hsame).mp hid)
  · rw [hfiles] at hcontent
    by_cases hsame : id = own
    · subst hsame
      exact Or.inr (hrecorded row path content hrow hcompleted hpath hcontent)
    · rw [(hother id hsame).1] at hrow
      exact Or.inl ⟨hrow, fun hid ↦ hsame (hjobId id hid)⟩
  · rw [hfiles]
    by_cases hsame : id = own
    · subst hsame
      exact hexpires row path hstatus hrow hexpired hpath
    · rw [(hother id hsame).1] at hrow
      exact absurd ((World.status_of_job hrow).trans (congrArg some hexpired)) hstatus

/-- A job without a file gets a row with which it has none either. -/
theorem handles_upsert (hjobId : ∀ id, stage.jobId = some id → id = job.id)
    (hbound : job.id < world.slots.length)
    (hnone : ∀ path content, world.files path = some content → ¬ world.Owns job.id path)
    (hlive : job.status ≠ .running ∧ job.status ≠ .completed)
    (hexpires : job.status = .expired → ∀ path, job.filePath = some path →
      world.status job.id ≠ some .expired → world.files path = none)
    (hknows : next.Knows sha256 (world.upsert job)) :
    Handles sha256 world (world.upsert job) stage next := by
  obtain ⟨written, hwritten, hstatus, hfile, -⟩ := World.upsert_row hbound
  have hno : ∀ path, ¬ (world.upsert job).Owns job.id path := fun path ↦ by
    refine World.not_owns_of_status (World.status_upsert hbound) ⟨fun hrunning ↦ ?_,
      fun hcompleted ↦ ?_⟩
    · exact hlive.1 (Option.some.inj hrunning)
    · exact hlive.2 (Option.some.inj hcompleted)
  refine handles_row hjobId rfl (fun id hne ↦ ⟨World.upsert_job_ne hne, rfl⟩)
    (fun path content hcontent howns ↦ absurd howns (hnone path content hcontent))
    (fun path howns ↦ absurd howns (hno path)) (fun row path content hrow hcompleted _ _ ↦ ?_)
    (fun row path hbefore hrow hexpired hpath ↦ ?_) hknows
  · obtain rfl := Option.some.inj (hwritten.symm.trans hrow)
    exact absurd (hstatus.symm.trans hcompleted) hlive.2
  · obtain rfl := Option.some.inj (hwritten.symm.trans hrow)
    exact hexpires (hstatus.symm.trans hexpired) path (hfile.symm.trans hpath) hbefore

/-- An execution starts under a name that is nobody's. -/
theorem handles_starting {segments : List SegmentInfo} {output : Path}
    (hfits : (Stage.starting job segments).Fits world)
    (hfree : ∀ other, ¬ world.Owns other output) (hfile : world.files output = none) :
    Handles sha256 world ((world.upsert job).named job.id output) (.starting job segments)
      (.manifesting job segments output) := by
  have hmeets := hfits.claim _ rfl
  have hstatus : job.status = .running := hfits.carries
  obtain ⟨written, hwritten, hrunning, -⟩ := World.upsert_row hmeets.1
  have hrow : ∀ row, ((world.upsert job).named job.id output).job job.id = some row →
      row.status = .running := fun row hrow ↦ by
    obtain rfl := Option.some.inj (hwritten.symm.trans hrow)
    exact hrunning.trans hstatus
  refine handles_row (fun id hid ↦ (Option.some.inj hid).symm) rfl
    (fun id hne ↦ ⟨World.upsert_job_ne hne, Function.update_of_ne hne _ _⟩)
    (fun path content _ howns ↦ ?_) (fun path howns ↦ ?_)
    (fun row path content hfound hcompleted _ _ ↦ ?_)
    (fun row path _ hfound hexpired _ ↦ ?_) hfile
  · exact absurd howns (World.not_owns_of_status hmeets.2.1 ⟨nofun, nofun⟩)
  · obtain ⟨row, hfound, ⟨-, hname⟩ | ⟨hcompleted, -⟩⟩ := howns
    · have houtput : ((world.upsert job).named job.id output).outputs job.id = some output :=
        Function.update_self ..
      obtain rfl := Option.some.inj (houtput.symm.trans hname)
      exact Or.inr ⟨rfl, hfree⟩
    · cases (hrow row hfound).symm.trans hcompleted
  · cases (hrow row hfound).symm.trans hcompleted
  · cases (hrow row hfound).symm.trans hexpired

/-- A job is completed with the size and the checksum of its file. -/
theorem handles_completing {output : Path} {digest : String} {size now : ℕ}
    (hfits : (Stage.completing job output digest size now).Fits world)
    (hknows : (Stage.completing job output digest size now).Knows sha256 world) :
    Handles sha256 world (world.upsert (job.finished output digest size now))
      (.completing job output digest size now) (.ended (.ok ())) := by
  have hmeets := hfits.claim _ rfl
  obtain ⟨written, hwritten, hstatus, hpath, -⟩ :=
    @World.upsert_row world (job.finished output digest size now) hmeets.1
  have hfields : written.fileSize = some size ∧ written.sha256 = some digest := by
    have hself := @World.upsert_job_self world (job.finished output digest size now) hmeets.1
    obtain rfl := Option.some.inj (hself.symm.trans hwritten)
    cases world.job (job.finished output digest size now).id with
    | none => exact ⟨rfl, rfl⟩
    | some before => exact ⟨rfl, rfl⟩
  have hrow : ∀ {row}, (world.upsert (job.finished output digest size now)).job job.id =
      some row → row = written := fun hrow ↦ Option.some.inj (hrow.symm.trans hwritten)
  refine handles_row (fun id hid ↦ (Option.some.inj hid).symm) rfl
    (fun id hne ↦ ⟨World.upsert_job_ne hne, rfl⟩) (fun path content _ howns ↦ ?_)
    (fun path howns ↦ Or.inl ?_) (fun row path content hfound _ hfile hcontent ↦ ?_)
    (fun row path _ hfound hexpired _ ↦ ?_) trivial
  · obtain rfl := hmeets.owns_iff.mp howns
    exact ⟨written, hwritten, Or.inr ⟨hstatus, hpath⟩⟩
  · obtain ⟨row, hfound, ⟨hrunning, -⟩ | ⟨-, hfile⟩⟩ := howns
    · obtain rfl := hrow hfound
      cases hstatus.symm.trans hrunning
    · obtain rfl := hrow hfound
      exact hmeets.owns_iff.mpr (Option.some.inj (hpath.symm.trans hfile)).symm
  · obtain rfl := hrow hfound
    obtain rfl := Option.some.inj (hpath.symm.trans hfile)
    obtain ⟨hdigest, hsize⟩ := hknows content hcontent
    rw [hfields.1, hfields.2, hdigest, hsize]
    exact ⟨rfl, rfl⟩
  · obtain rfl := hrow hfound
    cases hstatus.symm.trans hexpired

variable {outcome : Outcome}

/-- The call that a stage awaits is clean. -/
def Stage.IsClean (outcome : Outcome) (world : World) (stage : Stage) : Prop :=
  ∀ call next, stage.program = .await call next → call.IsClean outcome world

theorem Stage.IsQueued.knows (hqueued : stage.IsQueued job) : stage.Knows sha256 world := by
  have hstatus := congrArg (Option.bind · Claim.status) hqueued.1
  cases stage with
  | manifesting | naming | breaking | measuring | completing | fetching | expiring => cases hstatus
  | _ => trivial

/-- The next job of a prune run has a file to be unlinked. -/
theorem knows_prunes (horderly : world.IsOrderly) (emergency : Bool) {jobs : List ExportJobDto}
    (hjobs : ∀ job ∈ jobs, world.IsPrunable job.id job.filePath) :
    (Stage.prunes emergency jobs).Knows sha256 world := by
  cases jobs with
  | nil => cases emergency <;> trivial
  | cons job rest =>
    obtain ⟨hname, hsome⟩ := horderly.named _ _ (hjobs job List.mem_cons_self)
    obtain ⟨path, hpath⟩ := Option.ne_none_iff_exists'.mp hsome
    have hfilter : job.filePath.filter (· ≠ "") = some path := by
      rw [hname, hpath]
      exact Option.filter_eq_some_iff.mpr ⟨rfl, by simpa using (horderly.drawn _ _ hpath).2⟩
    have hnext : Stage.prunes emergency (job :: rest) = .unlinking path job.id rest emergency := by
      unfold Stage.prunes
      dsimp only
      rw [hfilter]
      rfl
    rw [hnext]
    trivial

theorem ofFile_error {α : Type} {read : Content → α} {file : Option Content} {failure : Failure}
    (herror : outcome.ofFile read file = .error failure)
    (hclean : outcome.failure ≠ none → file = none) : file = none := by
  cases file with
  | none => rfl
  | some content =>
    refine hclean fun hnone ↦ ?_
    unfold Outcome.ofFile Outcome.reply at herror
    rw [hnone] at herror
    cases herror

theorem ofFile_ok {α : Type} {read : Content → α} {file : Option Content} {value : α}
    (hok : outcome.ofFile read file = .ok value) :
    ∀ content, file = some content → value = read content := by
  rintro content rfl
  unfold Outcome.ofFile Outcome.reply at hok
  cases hfailure : outcome.failure with
  | none =>
    rw [hfailure] at hok
    exact (Except.ok.inj hok).symm
  | some failure =>
    rw [hfailure] at hok
    cases hok

/-- The file of a running job is written. -/
theorem handles_output {output : Path} (hfits : stage.Fits world)
    (hclaim : stage.claim = some ⟨job.id, some .running, some output⟩) (content : Option Content)
    (hknows : next.Knows sha256 (world.withFile output content)) :
    Handles sha256 world (world.withFile output content) stage next := by
  refine handles_files hfits (fun _ ↦ rfl) rfl (fun path ↦ ?_) hknows
  by_cases hsame : path = output
  · refine Or.inr (Or.inr ⟨job.id, ?_, (hfits.claim _ hclaim).owns_iff.mpr hsame⟩)
    unfold Stage.jobId
    rw [hclaim]
    rfl
  · exact Or.inl (Function.update_of_ne hsame _ _)

/-- An execution that failed has left no file. -/
theorem handles_breaking {output : Path} {failure : Failure}
    (hfits : (Stage.breaking job output failure).Fits world) (hnone : world.files output = none) :
    Handles sha256 world (world.upsert (job.broken failure)) (.breaking job output failure)
      (.ended (.ok ())) := by
  have hmeets := hfits.claim _ rfl
  refine handles_upsert (fun id hid ↦ (Option.some.inj hid).symm) hmeets.1
    (fun path content hcontent howns ↦ ?_) ⟨nofun, nofun⟩ nofun trivial
  obtain rfl := hmeets.owns_iff.mp howns
  cases hnone.symm.trans hcontent

theorem handles_queuing {req : CreateExportRequest}
    (hfits : (Stage.queuing req job).Fits world) :
    Handles sha256 world ((Stage.queuing req job).next sha256 outcome world).2 (.queuing req job)
      ((Stage.queuing req job).next sha256 outcome world).1 := by
  have hmeets := hfits.claim _ rfl
  have hstatus : job.status = .queued := hfits.carries
  unfold Stage.next
  dsimp only
  cases outcome.persists job with
  | error failure => exact handles_same hfits trivial
  | ok persisted =>
    refine handles_upsert (fun id hid ↦ (Option.some.inj hid).symm) hmeets.1
      (fun path _ _ ↦ World.not_owns_of_status hmeets.2.1 ⟨nofun, nofun⟩) ?_ ?_
      (Stage.isQueued_gathers req _).knows
    · rw [hstatus]
      exact ⟨nofun, nofun⟩
    · rw [hstatus]
      exact nofun

theorem handles_unlinking {path : Path} {id : JobId} {rest : List ExportJobDto} {emergency : Bool}
    (hfits : (Stage.unlinking path id rest emergency).Fits world)
    (hclean : outcome.failure ≠ none → world.files path = none) :
    Handles sha256 world ((Stage.unlinking path id rest emergency).next sha256 outcome world).2
      (.unlinking path id rest emergency)
      ((Stage.unlinking path id rest emergency).next sha256 outcome world).1 := by
  have hpath : ∀ {other}, world.Owns id other → path = other := fun howns ↦
    Option.some.inj (hfits.prunes.1.filePath_eq howns)
  unfold Stage.next
  dsimp only
  cases hreply : outcome.ofFile (fun _ ↦ ()) (world.files path) with
  | ok =>
    refine handles_files hfits (fun _ ↦ rfl) rfl (fun other ↦ ?_) fun other howns ↦ ?_
    · by_cases hsame : other = path
      · subst hsame
        exact Or.inr (Or.inl (Function.update_self ..))
      · exact Or.inl (Function.update_of_ne hsame _ _)
    · obtain rfl := hpath howns
      exact Function.update_self ..
  | error failure =>
    refine handles_same hfits fun other howns ↦ ?_
    obtain rfl := hpath howns
    exact ofFile_error hreply hclean

theorem handles_fetching (horderly : world.IsOrderly) {id : JobId} {rest : List ExportJobDto}
    {emergency : Bool} (hfits : (Stage.fetching id rest emergency).Fits world)
    (hknows : (Stage.fetching id rest emergency).Knows sha256 world) :
    Handles sha256 world ((Stage.fetching id rest emergency).next sha256 outcome world).2
      (.fetching id rest emergency)
      ((Stage.fetching id rest emergency).next sha256 outcome world).1 := by
  unfold Stage.next
  dsimp only
  cases hrow : world.job id with
  | none => exact handles_same hfits (knows_prunes horderly emergency hfits.prunes.2)
  | some row =>
    have hid : (World.mapPrismaJob row).id = id := horderly.ids id row hrow
    refine handles_same hfits fun path howns ↦ hknows path ?_
    rw [← hid]
    exact howns

theorem handles_expiring (horderly : world.IsOrderly) {rest : List ExportJobDto} {emergency : Bool}
    (hfits : (Stage.expiring job rest emergency).Fits world)
    (hknows : (Stage.expiring job rest emergency).Knows sha256 world) :
    Handles sha256 world (world.upsert { job with status := .expired })
      (.expiring job rest emergency) (.prunes emergency rest) := by
  obtain ⟨hjob, hrest⟩ := hfits.prunes
  have hkeeps := keeps_expiring hjob
  obtain ⟨row, hrow, hstatus, hpath⟩ := hjob
  have hlater := (advances_expiring horderly hfits).orderly
  refine handles_upsert nofun (World.job_eq_some_lt hrow) (fun path content hcontent howns ↦ ?_)
    ⟨nofun, nofun⟩ (fun _ path hfile hbefore ↦ hknows path ?_)
    (knows_prunes hlater emergency fun other hother ↦ (hrest other hother).keep (hkeeps other.id))
  · cases (hknows path howns).symm.trans hcontent
  · -- the job was completed, with this file
    refine ⟨row, hrow, Or.inr ⟨hstatus.resolve_right fun hexpired ↦ hbefore ?_,
      hpath.trans hfile⟩⟩
    exact (World.status_of_job hrow).trans (congrArg some hexpired)

/-- Whatever the awaited call of a thread comes to, a clean one keeps the files accounted for. -/
theorem handles_next (horderly : world.IsOrderly) (hfits : stage.Fits world)
    (hknows : stage.Knows sha256 world)
    (howned : ∀ path content, world.files path = some content → ∃ id, world.Owns id path)
    (hclean : stage.IsClean outcome world) :
    Handles sha256 world (stage.next sha256 outcome world).2 stage
      (stage.next sha256 outcome world).1 := by
  cases stage with
  | making temp req =>
    cases temp with
    | false =>
      unfold Stage.next
      dsimp only
      cases outcome.failure with
      | some failure => exact handles_same hfits trivial
      | none => exact handles_same hfits trivial
    | true =>
      unfold Stage.next
      dsimp only
      cases outcome.failure with
      | some failure => exact handles_same hfits trivial
      | none =>
        exact handles_files hfits (fun _ ↦ World.drawn_job) rfl (fun _ ↦ Or.inl rfl) trivial
  | queuing req job => exact handles_queuing hfits
  | finding job =>
    unfold Stage.next
    dsimp only
    cases outcome.failure with
    | some failure => exact handles_same hfits trivial
    | none => exact handles_same hfits (Stage.isQueued_admits _ _).knows
  | checking job segments segment rest =>
    unfold Stage.next
    dsimp only
    cases outcome.failure with
    | some failure => exact handles_same hfits trivial
    | none =>
      by_cases hfound : outcome.found = true
      · rw [if_pos hfound]
        exact handles_same hfits (Stage.isQueued_checks _ _ _).knows
      · rw [if_neg hfound]
        dsimp only
        exact handles_same hfits (Stage.isQueued_judged _ _ _).knows
  | refusing job code message =>
    have hmeets := hfits.claim _ rfl
    exact handles_upsert (fun id hid ↦ (Option.some.inj hid).symm) hmeets.1
      (fun path _ _ ↦ World.not_owns_of_status hmeets.2.1 ⟨nofun, nofun⟩) ⟨nofun, nofun⟩ nofun
      trivial
  | starting job segments =>
    unfold Stage.next
    dsimp only
    cases hpersists : outcome.persists job with
    | error failure => exact handles_same hfits trivial
    | ok persisted =>
      have hstatus : job.status = .running := hfits.carries
      have hfailure : outcome.failure = none := by
        unfold Outcome.persists Outcome.reply at hpersists
        rw [hstatus] at hpersists
        cases hfailure : outcome.failure with
        | none => rfl
        | some failure =>
          rw [hfailure] at hpersists
          cases hpersists
      have hfree := hclean _ _ rfl hstatus hfailure
      refine handles_starting hfits hfree ?_
      cases hfile : world.files (outputFileName job.cameraId world.now) with
      | none => rfl
      | some content =>
        obtain ⟨id, howns⟩ := howned _ content hfile
        exact absurd howns (hfree id)
  | manifesting job segments output =>
    unfold Stage.next
    dsimp only
    cases outcome.failure with
    | some failure => exact handles_same hfits hknows
    | none =>
      dsimp only
      split_ifs
      · exact handles_same hfits hknows
      · exact handles_same hfits trivial
  | naming job output =>
    unfold Stage.next
    dsimp only
    cases outcome.failure with
    | some failure => exact handles_same hfits hknows
    | none => exact handles_same hfits trivial
  | encoding job cameraName output =>
    have hleft : outcome.failure ≠ none → outcome.output = none := hclean _ _ rfl
    unfold Stage.next
    dsimp only
    cases hfailure : outcome.failure with
    | some failure =>
      refine handles_output hfits rfl _ ?_
      exact (Function.update_self ..).trans (hleft (hfailure ▸ nofun))
    | none => exact handles_output hfits rfl _ trivial
  | cleaning job output => exact handles_same hfits trivial
  | hashing job output =>
    have hread : outcome.failure ≠ none → world.files output = none := hclean _ _ rfl
    unfold Stage.next
    dsimp only
    cases hreply : outcome.ofFile sha256 (world.files output) with
    | error failure => exact handles_same hfits (ofFile_error hreply hread)
    | ok digest => exact handles_same hfits (ofFile_ok hreply)
  | measuring job output digest =>
    have hread : outcome.failure ≠ none → world.files output = none := hclean _ _ rfl
    unfold Stage.next
    dsimp only
    cases hreply : outcome.ofFile List.length (world.files output) with
    | error failure => exact handles_same hfits (ofFile_error hreply hread)
    | ok size =>
      exact handles_same hfits fun content hcontent ↦
        ⟨hknows content hcontent, ofFile_ok hreply content hcontent⟩
  | completing job output digest size now => exact handles_completing hfits hknows
  | breaking job output failure => exact handles_breaking hfits hknows
  | measuringDisk =>
    unfold Stage.next Stage.tiers
    dsimp only
    split_ifs
    · exact handles_same hfits trivial
    · exact handles_same hfits trivial
  | listing now emergency =>
    refine handles_same hfits (knows_prunes horderly emergency fun job hjob ↦ ?_)
    have hfilter := List.mem_filter.mp hjob
    exact isPrunable_of_mem_listJobs horderly hfilter.1 (completed_of_isExpired hfilter.2)
  | listingUnexpired =>
    refine handles_same hfits (knows_prunes horderly false fun job hjob ↦ ?_)
    obtain ⟨hmem, hstatus⟩ := mem_unexpired hjob
    exact isPrunable_of_mem_listJobs horderly hmem hstatus
  | unlinking path id rest emergency => exact handles_unlinking hfits (hclean _ _ rfl)
  | fetching id rest emergency => exact handles_fetching horderly hfits hknows
  | expiring job rest emergency => exact handles_expiring horderly hfits hknows
  | ended result => exact handles_same hfits hknows

end Handles

/-! ### Runs -/

section Runs

variable {sha256} {stages : Stages} {world : World}

theorem accounted_initial : Accounted sha256 [] {} := by
  have hjob : ∀ id, ({} : World).job id = none := fun _ ↦ rfl
  have hfiles : ∀ path, ({} : World).files path = none := fun _ ↦ rfl
  refine ⟨fun path content hcontent ↦ ?_, ?_, fun id row path content hrow ↦ ?_,
    fun thread entry hentry ↦ ?_⟩
  · cases (hfiles path).symm.trans hcontent
  · rintro id other path ⟨row, hrow, -⟩
    cases (hjob id).symm.trans hrow
  · cases (hjob id).symm.trans hrow
  · cases hentry

/-- A thread begins, and no file is touched. -/
theorem Accounted.start (haccounted : Accounted sha256 stages world) {entry : Origin × Stage}
    (hknows : entry.2.Knows sha256 world) : Accounted sha256 (stages ++ [entry]) world where
  owned := haccounted.owned
  apart := haccounted.apart
  recorded := haccounted.recorded
  knows := by
    intro thread found hfound
    rcases getElem?_concat_cases hfound with hold | rfl
    · exact haccounted.knows thread found hold
    · exact hknows

theorem knows_enforces (ratio : Option ℚ) : (Stage.enforces world ratio).Knows sha256 world := by
  cases ratio with
  | none => trivial
  | some usageRatio =>
    unfold Stage.enforces Stage.tiers
    dsimp only
    split_ifs <;> trivial

/-- Time passes. -/
theorem Accounted.tick (haccounted : Accounted sha256 stages world) (now : ℕ) :
    Accounted sha256 stages { world with now } where
  owned := haccounted.owned
  apart := haccounted.apart
  recorded := haccounted.recorded
  knows := by
    intro thread entry hentry
    have hknows := haccounted.knows thread entry hentry
    obtain ⟨tag, stage⟩ := entry
    cases stage <;> exact hknows

/-- An ffmpeg writes to the file of its job. -/
theorem Accounted.encoded (haccounted : Accounted sha256 stages world)
    (horderly : Orderly stages world) {thread : ℕ} {entry : Origin × Stage} {output : Path}
    (hentry : stages[thread]? = some entry) (hencodes : entry.2.encodes = some output)
    (content : Content) : Accounted sha256 stages (world.withFile output (some content)) := by
  obtain ⟨tag, stage⟩ := entry
  have hfits := horderly.fits thread _ hentry
  cases stage with
  | encoding job cameraName path =>
    obtain rfl := Option.some.inj hencodes
    have hhandles : Handles sha256 world (world.withFile path (some content))
        (.encoding job cameraName path) (.encoding job cameraName path) :=
      handles_output hfits rfl (some content) trivial
    have hafter := haccounted.advance horderly hentry hhandles
    obtain ⟨hbound, hget⟩ := List.getElem?_eq_some_iff.mp hentry
    rwa [← hget, List.set_getElem_self] at hafter
  | _ => cases hencodes

/-- What a clean call says of a thread of a system, in terms of its stage. -/
theorem isClean_iff {thread : ℕ} {tag : Origin} {stage : Stage} {outcome : Outcome}
    (hstage : stages[thread]? = some (tag, stage)) :
    IsClean ((staging sha256).system stages world) (.resume thread outcome) ↔
      stage.IsClean outcome world := by
  unfold IsClean
  dsimp only
  rw [Staging.getElem_threads, hstage]
  constructor
  · intro hclean call next hprogram
    exact hclean tag call next (congrArg some (Prod.ext rfl hprogram))
  · intro hclean origin call next hthread
    exact hclean call next (Prod.ext_iff.mp (Option.some.inj hthread)).2

/-- A clean step keeps the files accounted for, and expires no job whose file is there. -/
theorem accounted_step (horderly : Orderly stages world)
    (haccounted : Accounted sha256 stages world)
    (exportStep : ExportStep)
    (hclean : IsClean ((staging sha256).system stages world) exportStep) :
    Accounted sha256 (exportStep.apply sha256 stages world).1
        (exportStep.apply sha256 stages world).2 ∧
      ∀ id row path, world.status id ≠ some .expired →
        (exportStep.apply sha256 stages world).2.job id = some row → row.status = .expired →
          row.filePath = some path → (exportStep.apply sha256 stages world).2.files path =
              none := by
  have hsame : ∀ id row path, world.status id ≠ some .expired → world.job id = some row →
      row.status = .expired → row.filePath = some path → world.files path = none :=
    fun id row path hstatus hrow hexpired _ ↦
      absurd ((World.status_of_job hrow).trans (congrArg some hexpired)) hstatus
  cases exportStep with
  | create req => exact ⟨haccounted.start trivial, hsame⟩
  | prune => exact ⟨haccounted.start trivial, hsame⟩
  | enforce ratio => exact ⟨haccounted.start (knows_enforces ratio), hsame⟩
  | resume thread outcome =>
    unfold ExportStep.apply
    dsimp only
    cases hstage : stages[thread]? with
    | none => exact ⟨haccounted, hsame⟩
    | some entry =>
      obtain ⟨tag, stage⟩ := entry
      have hhandles := handles_next horderly.table (horderly.fits thread _ hstage)
        (haccounted.knows thread _ hstage) haccounted.owned
        ((isClean_iff hstage).mp hclean)
      exact ⟨haccounted.advance horderly hstage hhandles, hhandles.expires⟩
  | encoded thread content =>
    unfold ExportStep.apply
    dsimp only
    cases houtput : (stages[thread]?).bind fun entry ↦ entry.2.encodes with
    | none => exact ⟨haccounted, hsame⟩
    | some output =>
      obtain ⟨entry, hentry, hencodes⟩ := Option.bind_eq_some_iff.mp houtput
      refine ⟨haccounted.encoded horderly hentry hencodes content,
        fun id row path hstatus hrow hexpired _ ↦ ?_⟩
      exact absurd ((World.status_of_job hrow).trans (congrArg some hexpired)) hstatus
  | tick now => exact ⟨haccounted.tick now, hsame⟩

variable (sha256)

/-- The states of a run: threads at stages, an orderly table, and files that are accounted for. -/
def IsKept (system : ExportSystem) : Prop :=
  ∃ stages world, system = (staging sha256).system stages world ∧ Orderly stages world ∧
    Accounted sha256 stages world

variable {sha256}

theorem isKept_step {system : ExportSystem} {exportStep : ExportStep}
    (hkept : IsKept sha256 system) (hclean : IsClean system exportStep) :
    IsKept sha256 (step sha256 system exportStep) ∧ ExpiresGone sha256 system exportStep := by
  obtain ⟨stages, world, rfl, horderly, haccounted⟩ := hkept
  obtain ⟨hafter, hexpires⟩ := accounted_step horderly haccounted exportStep hclean
  refine ⟨⟨_, _, step_system sha256 exportStep, horderly.step exportStep, hafter⟩, ?_⟩
  unfold ExpiresGone
  rw [step_system]
  exact hexpires

theorem isAccounted_of_isKept {system : ExportSystem} (hkept : IsKept sha256 system) :
    IsAccounted sha256 system := by
  obtain ⟨stages, world, rfl, -, haccounted⟩ := hkept
  refine ⟨fun path content hcontent ↦ ?_, haccounted.recorded⟩
  obtain ⟨id, howns⟩ := haccounted.owned path content hcontent
  exact ⟨id, howns, fun other hother ↦ haccounted.apart other id path hother howns⟩

/-- In a run whose steps leave no file behind, the files are accounted for. -/
theorem keepsFilesAccounted (steps : List ExportStep)
    (hclean : EachMove (step sha256) IsClean initial steps) :
    KeepsFilesAccounted sha256 steps := by
  have hinitial : IsKept sha256 initial :=
    ⟨[], {}, rfl, Orderly.initial, accounted_initial⟩
  have hnext : ∀ system exportStep, IsKept sha256 system → IsClean system exportStep →
      IsKept sha256 (step sha256 system exportStep) := fun system exportStep hkept hmove ↦
    (isKept_step hkept hmove).1
  refine ⟨hclean.eachState (IsKept sha256) hinitial (fun _ ↦ isAccounted_of_isKept) hnext,
    fun before exportStep hstart ↦ ?_⟩
  have hbefore : before <+: steps := (List.prefix_append before [exportStep]).trans hstart
  exact (isKept_step (EachMove.invariant (hclean.of_prefix hbefore) hinitial hnext)
    (hclean before exportStep hstart)).2

end Runs

/-! ### An export of one segment -/

theorem World.not_owns_of_rows {world : World} (hrows : ∀ row ∈ world.slots.filterMap id,
    row.status ≠ .running ∧ row.status ≠ .completed) (jobId : JobId) (path : Path) :
    ¬ world.Owns jobId path := by
  rintro ⟨row, hrow, howns⟩
  have hslot : world.slots[jobId]? = some (some row) := Option.join_eq_some_iff.mp hrow
  have hmem : row ∈ world.slots.filterMap id :=
    List.mem_filterMap.mpr ⟨some row, List.mem_of_getElem? hslot, rfl⟩
  obtain ⟨hrunning, hcompleted⟩ := hrows row hmem
  rcases howns with howns | howns
  · exact hrunning howns.1
  · exact hcompleted howns.1

def clipRequest : CreateExportRequest :=
  { sampleRequest with
    customSegments :=
      [{ filePath := "cam/clip.mp4", format := none, codec := none, resolution := none }] }

/-- As far as the ffmpeg of the export. -/
def encodingRun : List ExportStep :=
  [.create clipRequest, .resume 0 {}, .resume 0 {}, .resume 0 {}, .resume 0 {}, .resume 0 {},
    .resume 0 {}]

/-- The ffmpeg succeeds, the export is completed, and it is pruned when its time is over. -/
def prunedRun : List ExportStep :=
  encodingRun ++ [.resume 0 { output := some [0] }, .resume 0 {}, .resume 0 {}, .resume 0 {},
    .resume 0 {}, .tick timeToLiveMs, .prune, .resume 1 {}, .resume 1 {}, .resume 1 {},
    .resume 1 {}]

theorem isClean_of_await {system : ExportSystem} {thread : ℕ} {outcome : Outcome} {tag : Origin}
    {call : Call} {next : Reply call → Async Unit}
    (hthread : system.threads[thread]? = some (tag, .await call next))
    (hcall : call.IsClean outcome system.world) : IsClean system (.resume thread outcome) := by
  intro found other rest hfound
  obtain ⟨rfl, hprogram⟩ := Prod.mk.inj (Option.some.inj (hthread.symm.trans hfound))
  cases hprogram
  exact hcall

theorem keepsFilesAccounted_prunedRun : KeepsFilesAccounted (fun _ ↦ "") prunedRun := by
  refine keepsFilesAccounted prunedRun ?_
  unfold prunedRun encodingRun
  simp only [List.cons_append, List.nil_append, eachMove_cons]
  have hread : ∀ {file : Option Content}, (none : Option Failure) ≠ none → file = none :=
    fun hfailed ↦ absurd rfl hfailed
  refine ⟨trivial, isClean_of_await rfl trivial, isClean_of_await rfl trivial,
    isClean_of_await rfl nofun, isClean_of_await rfl trivial,
    isClean_of_await rfl fun _ _ other ↦ World.not_owns_of_rows ?_ other _,
    isClean_of_await rfl trivial, isClean_of_await rfl hread, isClean_of_await rfl trivial,
    isClean_of_await rfl hread, isClean_of_await rfl hread, isClean_of_await rfl nofun, trivial,
    trivial, isClean_of_await rfl trivial, isClean_of_await rfl hread,
    isClean_of_await rfl trivial, isClean_of_await rfl nofun, eachMove_nil⟩
  decide

/-- The ffmpeg fails, and what it has written stays. -/
def brokenRun : List ExportStep :=
  encodingRun ++ [.resume 0
    { failure := some { code := none, message := "exit code 1" }, output := some [0] },
        .resume 0 {}]

theorem not_keepsFilesAccounted_brokenRun : ¬ KeepsFilesAccounted (fun _ ↦ "") brokenRun := by
  intro hkeeps
  obtain ⟨jobId, howns, -⟩ :=
    (hkeeps.states brokenRun List.prefix_rfl).owned (outputFileName "cam" 0) [0] rfl
  exact World.not_owns_of_rows (by decide) jobId _ howns

end VmsLite.Exports
