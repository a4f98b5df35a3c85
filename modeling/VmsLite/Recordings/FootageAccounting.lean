import VmsLite.Async.Sequential
import VmsLite.Recordings.Footprint

/-!
# Accounting for footage

A row leaves the catalogue by four routes: a deletion whose `unlink` succeeded or said `ENOENT`, a
sweep whose access probe failed, and the cascade of a removed camera. `Accounted` asks of every
sequence of catalogue operations that a row leaves only when its file is gone, so that every file
that was ever catalogued has a row until it is gone. The routes read the absence of the file from
different evidence; `Evident` is the condition that the evidence holds, and
`accounted_of_evident` the invariant under it. The operations run one after another, each with any
outcome of its calls and any crash, and between two of them the world may change in any way.
-/

set_option autoImplicit false

namespace VmsLite.Recordings

open VmsLite.Async Program

/-! ### Sequences of catalogue operations -/

/-- A row with this id can only be the row of this file: how callers name a segment. -/
structure Names (id : RecordingId) (path : Path) (world : World) : Prop where
  id_lt : id < world.recordings.nextId
  path_eq : ∀ row ∈ world.recordings.rows, row.id = id → row.filePath = path

/-- The operations on the catalogue. -/
inductive CatalogueOperation (ingest : SegmentIngest) (world : World) : Async Unit → Prop
  | scan : CatalogueOperation ingest world (ingest.scan.bind fun _ ↦ done ())
  | motion (cameraId : CameraId) (motionAt : ℤ) :
      CatalogueOperation ingest world ((ingest.onMotion cameraId motionAt).bind fun _ ↦ done ())
  | delete {id : RecordingId} {path : Path} (hnames : Names id path world) (reportedSize : ℕ) :
      CatalogueOperation ingest world
        ((deleteSegmentInternal ingest.recordingsRoot id path reportedSize).bind fun _ ↦ done ())
  | reconcile :
      CatalogueOperation ingest world (reconcilePendingDeletions.bind fun _ ↦ done ())
  | audit :
      CatalogueOperation ingest world
        ((auditAndReconcile ingest.recordingsRoot).bind fun _ ↦ done ())
  | removeCamera (id : CameraId) :
      CatalogueOperation ingest world ((removeCamera id).bind fun _ ↦ done ())

/-- The moves of a sequence of operations, with a condition on the outcome of every call. -/
def operationRuns (condition : Call → Outcome → World → Prop) (ingest : SegmentIngest)
    (state : Turn Call Reply Failure World) :
    TurnMove Call Reply Failure Outcome EnvironmentChange → Prop
  | .start program =>
    state.current.isOver = true ∧ CatalogueOperation ingest state.world program
  | .advance outcome => ∀ call next,
      state.current = .await call next → condition call outcome state.world
  | .crash => True
  | .environment _ => state.current.isOver = true

/-- A row that accounts for the same bytes of the same file. -/
def SameFootage (row kept : Recording) : Prop :=
  kept.id = row.id ∧ kept.filePath = row.filePath ∧ kept.sizeBytes = row.sizeBytes

/-- No move removes a row whose file exists, so a file that stays on the disk keeps the row that
accounts for it. -/
def Accounted (condition : Call → Outcome → World → Prop) (ingest : SegmentIngest)
    (initial : World) : Prop :=
  ∀ state, Reaches machine.turn (operationRuns condition ingest)
      { current := .done (), world := initial } state →
    (∀ move, operationRuns condition ingest state move →
      ∀ row ∈ state.world.recordings.rows,
        (∀ kept ∈ (machine.turn state move).world.recordings.rows, kept.id ≠ row.id) →
          state.world.onDisk row.filePath = false) ∧
    ∀ moves, LegalRun machine.turn (operationRuns condition ingest) state moves →
      ∀ row ∈ state.world.recordings.rows,
        (∀ earlier, earlier <+: moves →
          (runMoves machine.turn state earlier).world.onDisk row.filePath = true) →
        ∃ kept ∈ (runMoves machine.turn state moves).world.recordings.rows,
          SameFootage row kept

/-- Failures that are right about a missing file, as far as a deletion asks, and cameras that are
removed only when none of their files is left. -/
def Evident (call : Call) (outcome : Outcome) (world : World) : Prop :=
  match call with
  | .access path => outcome.passes = true ∨ world.onDisk path = false ∨
      ∃ row ∈ world.recordings.rows, row.filePath = path ∧ row.status.isDeleting = false
  | .unlink path => ∀ error, outcome = .fail error → error.code = .enoent →
      world.onDisk path = false
  | .deleteCamera cameraId => outcome.passes = true →
      ∀ row ∈ world.recordings.rows, row.cameraId = cameraId → world.onDisk row.filePath = false
  | _ => True

/-! ### One step -/

/-- What an operation may count on: ids keep their files, and no file appears. -/
structure Follows (before after : World) : Prop where
  row_origin : ∀ row ∈ after.recordings.rows, row.id < before.recordings.nextId →
    ∃ old ∈ before.recordings.rows, row.id = old.id ∧ row.filePath = old.filePath
  nextId_le : before.recordings.nextId ≤ after.recordings.nextId
  no_file_appears : ∀ path, after.onDisk path = true → before.onDisk path = true

/-- Rows stay, unless their file is gone. -/
def KeepsRows (before after : World) : Prop :=
  ∀ row ∈ before.recordings.rows,
    (∃ kept ∈ after.recordings.rows, SameFootage row kept) ∨ before.onDisk row.filePath = false

/-- What one call of an operation does. -/
structure KeepsAccount (before after : World) : Prop extends Follows before after where
  keeps_rows : KeepsRows before after

/-- What one call of a deletion does: rows only move to a state of being deleted. -/
structure KeepsMarks (before after : World) : Prop extends KeepsAccount before after where
  marked : ∀ row ∈ after.recordings.rows, ∃ old ∈ before.recordings.rows,
    row.id = old.id ∧ (row.status = old.status ∨ row.status.isDeleting = true)

theorem Names.follows {id : RecordingId} {path : Path} {before after : World}
    (hnames : Names id path before) (hfollows : Follows before after) : Names id path after where
  id_lt := hnames.id_lt.trans_le hfollows.nextId_le
  path_eq := by
    intro row hrow hid
    obtain ⟨old, hold, hsame, hpath⟩ := hfollows.row_origin row hrow (hid ▸ hnames.id_lt)
    exact hpath.trans (hnames.path_eq old hold (hsame.symm.trans hid))

/-- A row names its own file. -/
theorem names_of_mem {row : Recording} {world : World} (hrow : row ∈ world.recordings.rows) :
    Names row.id row.filePath world where
  id_lt := world.recordings.ids_lt row hrow
  path_eq := fun _ hother hid ↦ by rw [RecordingTable.eq_of_id_eq hother hrow hid]

theorem SameFootage.refl (row : Recording) : SameFootage row row := ⟨rfl, rfl, rfl⟩

theorem SameFootage.trans {first second third : Recording} (hfirst : SameFootage first second)
    (hsecond : SameFootage second third) : SameFootage first third :=
  ⟨hsecond.1.trans hfirst.1, hsecond.2.1.trans hfirst.2.1, hsecond.2.2.trans hfirst.2.2⟩

/-! ### What each call does -/

theorem KeepsMarks.of_same {before after : World}
    (hrows : after.recordings = before.recordings) (hfiles : after.files = before.files) :
    KeepsMarks before after where
  row_origin := fun row hrow _ ↦ ⟨row, hrows ▸ hrow, rfl, rfl⟩
  nextId_le := by rw [hrows]
  no_file_appears := fun path hpath ↦ by
    rw [World.onDisk, ← hfiles]
    exact hpath
  keeps_rows := fun row hrow ↦ Or.inl ⟨row, hrows ▸ hrow, SameFootage.refl row⟩
  marked := fun row hrow ↦ ⟨row, hrows ▸ hrow, rfl, Or.inl rfl⟩

theorem KeepsRows.update {before after : World} {id : RecordingId} {patch : RowPatch}
    (hrows : after.recordings = before.recordings.update id patch) : KeepsRows before after := by
  intro row hrow
  refine Or.inl ⟨if row.id = id then patch.apply row else row, ?_, ?_⟩
  · rw [hrows]
    exact RecordingTable.mem_update.mpr ⟨row, hrow, rfl⟩
  · split_ifs
    · exact ⟨rfl, rfl, rfl⟩
    · exact SameFootage.refl row

theorem KeepsAccount.updateRow (world : World) (id : RecordingId) (patch : RowPatch) :
    KeepsAccount world (world.updateRow id patch) where
  row_origin := by
    intro row hrow _
    obtain ⟨old, hold, rfl⟩ := RecordingTable.mem_update.mp hrow
    refine ⟨old, hold, ?_⟩
    split_ifs
    · exact ⟨rfl, rfl⟩
    · exact ⟨rfl, rfl⟩
  nextId_le := le_rfl
  no_file_appears := fun _ hpath ↦ hpath
  keeps_rows := KeepsRows.update rfl

/-- The update of a deletion moves its row to a state of being deleted. -/
theorem KeepsMarks.updateStatus (world : World) (id : RecordingId) {status : SegmentStatus}
    {reason : Option (Option String)} (hstatus : status.isDeleting = true) :
    KeepsMarks world (world.updateRow id { status := some status, errorReason := reason }) where
  toKeepsAccount := KeepsAccount.updateRow world id _
  marked := by
    intro row hrow
    obtain ⟨old, hold, rfl⟩ := RecordingTable.mem_update.mp hrow
    refine ⟨old, hold, ?_⟩
    split_ifs
    · exact ⟨rfl, Or.inr hstatus⟩
    · exact ⟨rfl, Or.inl rfl⟩

theorem KeepsAccount.insertRow (world : World) (data : NewRecording)
    (hfree : ∀ row ∈ world.recordings.rows, row.filePath ≠ data.filePath) :
    KeepsAccount world { world with recordings := world.recordings.insert data hfree } where
  row_origin := by
    intro row hrow hid
    have hinserted : row ∈ (world.recordings.insert data hfree).rows := hrow
    rcases RecordingTable.mem_insert.mp hinserted with hold | rfl
    · exact ⟨row, hold, rfl, rfl⟩
    · exact absurd hid (lt_irrefl _)
  nextId_le := Nat.le_succ _
  no_file_appears := fun _ hpath ↦ hpath
  keeps_rows := by
    intro row hrow
    have hkept : row ∈ (world.recordings.insert data hfree).rows :=
      RecordingTable.mem_insert.mpr (Or.inl hrow)
    exact Or.inl ⟨row, hkept, SameFootage.refl row⟩

theorem KeepsMarks.removeFile (world : World) (path : Path) :
    KeepsMarks world (world.removeFile path) where
  row_origin := fun row hrow _ ↦ ⟨row, hrow, rfl, rfl⟩
  nextId_le := le_rfl
  no_file_appears := fun _ hother ↦ (World.onDisk_removeFile.mp hother).2
  keeps_rows := fun row hrow ↦ Or.inl ⟨row, hrow, SameFootage.refl row⟩
  marked := fun row hrow ↦ ⟨row, hrow, rfl, Or.inl rfl⟩

theorem KeepsMarks.removeRows {before after : World} {condition : Recording → Bool}
    (hrows : after.recordings = before.recordings.remove condition)
    (hfiles : after.files = before.files)
    (hgone : ∀ row ∈ before.recordings.rows, condition row = true →
      before.onDisk row.filePath = false) : KeepsMarks before after where
  row_origin := by
    intro row hrow _
    rw [hrows] at hrow
    exact ⟨row, (RecordingTable.mem_remove.mp hrow).1, rfl, rfl⟩
  nextId_le := by
    rw [hrows]
    exact le_rfl
  no_file_appears := fun path hpath ↦ by
    rw [World.onDisk, ← hfiles]
    exact hpath
  keeps_rows := by
    intro row hrow
    by_cases hcondition : condition row = true
    · exact Or.inr (hgone row hrow hcondition)
    · refine Or.inl ⟨row, ?_, SameFootage.refl row⟩
      rw [hrows]
      exact RecordingTable.mem_remove.mpr ⟨hrow, by simpa using hcondition⟩
  marked := by
    intro row hrow
    rw [hrows] at hrow
    exact ⟨row, (RecordingTable.mem_remove.mp hrow).1, rfl, Or.inl rfl⟩

/-- Calls that remove no row. -/
def Call.removesNothing : Call → Bool
  | .deleteRecording _ | .deleteCamera _ | .unlink _ => false
  | _ => true

/-- A call that removes nothing keeps the account, whatever its outcome. -/
theorem KeepsAccount.answer {call : Call} (hcall : call.removesNothing = true)
    (outcome : Outcome) (world : World) :
    KeepsAccount world (answer call outcome world).2 := by
  have hsame : ∀ reached : World, reached.recordings = world.recordings →
      reached.files = world.files → KeepsAccount world reached :=
    fun _ hrows hfiles ↦ (KeepsMarks.of_same hrows hfiles).toKeepsAccount
  cases call with
  | createRecording data =>
    rcases World.answerCreate_cases world data outcome with ⟨hfree, hanswer⟩ | ⟨error, hanswer⟩
    · simp only [Recordings.answer, hanswer]
      exact KeepsAccount.insertRow world data hfree
    · simp only [Recordings.answer, hanswer]
      exact hsame _ rfl rfl
  | updateRecordingTier id tier =>
    rcases World.answerUpdate_cases world id { retentionTier := some tier } outcome with
      ⟨-, hanswer⟩ | ⟨-, hanswer⟩
    · simp only [Recordings.answer, hanswer]
      exact KeepsAccount.updateRow world id _
    · simp only [Recordings.answer, hanswer]
      exact hsame _ rfl rfl
  | updateRecordingStatus id status errorReason =>
    rcases World.answerUpdate_cases world id
      { status := some status, errorReason := some errorReason } outcome with
      ⟨-, hanswer⟩ | ⟨-, hanswer⟩
    · simp only [Recordings.answer, hanswer]
      exact KeepsAccount.updateRow world id _
    · simp only [Recordings.answer, hanswer]
      exact hsame _ rfl rfl
  | deleteRecording id => cases hcall
  | deleteCamera cameraId => cases hcall
  | unlink path => cases hcall
  | _ => exact hsame _ rfl rfl

/-! ### Deletions keep the marks -/

/-- What a caller knows of a segment it deletes: the file of its id, and that it is being
deleted. -/
structure Doomed (row : Recording) (world : World) : Prop where
  names : Names row.id row.filePath world
  deleting : ∀ other ∈ world.recordings.rows, other.id = row.id → other.status.isDeleting = true

theorem Doomed.marks {row : Recording} {before after : World} (hdoomed : Doomed row before)
    (hmarks : KeepsMarks before after) : Doomed row after where
  names := hdoomed.names.follows hmarks.toFollows
  deleting := by
    intro other hother hid
    obtain ⟨old, hold, hsame, hstatus | hdeleting⟩ := hmarks.marked other hother
    · rw [hstatus]
      exact hdoomed.deleting old hold (hsame.symm.trans hid)
    · exact hdeleting

section Deletions

variable {id : RecordingId} {path : Path} {world : World}

/-- Names stay while a deletion runs. -/
theorem Steps.names {α : Type} {program : Async α} {post : α → World → Prop}
    {thrown : Failure → World → Prop}
    (hsteps : program.Steps answer Evident KeepsMarks post thrown world)
    (hnames : Names id path world) :
    program.Steps answer Evident KeepsMarks (fun value world ↦ post value world ∧
      Names id path world) (fun _ _ ↦ True) world :=
  (hsteps.frame (Names id path) (fun _ _ hstep hkept ↦ Names.follows hkept hstep.toFollows)
    hnames).mono (fun _ _ hstep ↦ hstep) (fun _ _ hpost ↦ hpost) fun _ _ _ ↦ trivial

theorem mark_steps (id : RecordingId) {status : SegmentStatus} (reason : Option String)
    (hstatus : status.isDeleting = true) (world : World) :
    (updateRecordingStatus id status reason).Steps answer Evident KeepsMarks (fun _ _ ↦ True)
      (fun _ _ ↦ True) world := by
  refine Steps.request fun outcome _ ↦ ⟨?_, trivial⟩
  rcases World.answerUpdate_cases world id
    { status := some status, errorReason := some reason } outcome with
    ⟨-, hanswer⟩ | ⟨-, hanswer⟩
  · simp only [answer, hanswer]
    exact KeepsMarks.updateStatus world id hstatus
  · simp only [answer, hanswer]
    exact KeepsMarks.of_same rfl rfl

theorem unlink_steps (path : Path) (world : World) :
    (fsUnlinkFn path).Steps answer Evident KeepsMarks
      (fun reply world ↦ (∀ error, reply = .error error → error.code = .enoent) →
        world.onDisk path = false) (fun _ _ ↦ True) world := by
  refine Steps.request fun outcome hallowed ↦ ?_
  rcases World.answerUnlink_cases world path outcome with
    ⟨-, hanswer⟩ | ⟨error, hanswer, herror⟩
  · simp only [answer, hanswer]
    exact ⟨KeepsMarks.removeFile world path, fun _ ↦ World.not_onDisk_removeFile path⟩
  · simp only [answer, hanswer]
    refine ⟨KeepsMarks.of_same rfl rfl, fun hmissing ↦ ?_⟩
    rcases herror with rfl | ⟨-, hgone⟩
    · exact hallowed error rfl (hmissing error rfl)
    · exact hgone

/-- The probe of a segment that is being deleted. -/
theorem probe_steps {row : Recording} (hdoomed : Doomed row world) :
    (fsAccessFn row.filePath).Steps answer Evident KeepsMarks
      (fun reply world ↦ (∀ error, reply = .error error → world.onDisk row.filePath = false ∨
        ∀ other ∈ world.recordings.rows, other.id ≠ row.id) ∧ Names row.id row.filePath world)
      (fun _ _ ↦ True) world := by
  refine Steps.request fun outcome hallowed ↦ ?_
  refine ⟨KeepsMarks.of_same rfl rfl, fun error hreply ↦ ?_, hdoomed.names⟩
  rcases World.answerFile_cases world "access" row.filePath (fun _ ↦ ()) outcome
    with ⟨file, -, -, hanswer⟩ | ⟨_, -, rfl | ⟨-, hgone⟩⟩
  · exact absurd (hanswer.symm.trans hreply) (by simp)
  · rcases hallowed with hpasses | hgone | ⟨other, hother, hpath, hkept⟩
    · exact absurd hpasses (by simp [Outcome.passes])
    · exact Or.inl hgone
    · refine Or.inr fun found hfound hid ↦ ?_
      have hsame : other = found := RecordingTable.eq_of_filePath_eq hother hfound
        (hpath.trans (hdoomed.names.path_eq found hfound hid).symm)
      rw [hsame, hdoomed.deleting found hfound hid] at hkept
      cases hkept
  · exact Or.inl hgone

theorem tryDelete_steps (hnames : Names id path world)
    (hgone : world.onDisk path = false ∨ ∀ row ∈ world.recordings.rows, row.id ≠ id) :
    (tryDeleteRecording id).Steps answer Evident KeepsMarks (fun _ _ ↦ True) (fun _ _ ↦ True)
      world := by
  refine Steps.request fun outcome _ ↦ ⟨?_, trivial⟩
  rcases World.answerDelete_cases world id outcome with hanswer | ⟨error, hanswer⟩
  · simp only [answer, hanswer]
    refine KeepsMarks.removeRows rfl rfl fun row hrow hid ↦ ?_
    have hid : row.id = id := by simpa using hid
    rw [hnames.path_eq row hrow hid]
    exact hgone.resolve_right fun hnone ↦ hnone row hrow hid
  · simp only [answer, hanswer]
    exact KeepsMarks.of_same rfl rfl

theorem deleteRecording_steps (hnames : Names id path world)
    (hgone : world.onDisk path = false ∨ ∀ row ∈ world.recordings.rows, row.id ≠ id) :
    (deleteRecording id).Steps answer Evident KeepsMarks (fun _ _ ↦ True) (fun _ _ ↦ True)
      world :=
  Steps.bind (tryDelete_steps hnames hgone) fun _ _ _ ↦
    Steps.orThrow (fun _ _ ↦ trivial) fun _ _ ↦ trivial

theorem deleteSegmentInternal_steps (recordingsRoot : Path) (reportedSize : ℕ)
    (hnames : Names id path world) :
    (deleteSegmentInternal recordingsRoot id path reportedSize).Steps answer Evident KeepsMarks
      (fun _ _ ↦ True) (fun _ _ ↦ True) world := by
  unfold deleteSegmentInternal
  split_ifs with hroot
  · refine Steps.bind (Steps.names (mark_steps id none rfl world) hnames) fun _ marked hmarked ↦ ?_
    refine Steps.bind (Steps.names (unlink_steps path marked) hmarked.2) ?_
    rintro (error | _) unlinked ⟨hgone, hnamed⟩
    · by_cases hcode : error.code = .enoent
      · simp only [hcode, if_true]
        refine Steps.bind (deleteRecording_steps hnamed (Or.inl (hgone ?_))) fun _ _ _ ↦ trivial
        rintro _ ⟨⟩
        exact hcode
      · simp only [hcode, if_false]
        exact Steps.bind (mark_steps id _ rfl unlinked) fun _ _ _ ↦ trivial
    · refine Steps.bind (tryDelete_steps hnamed (Or.inl (hgone (by simp)))) ?_
      rintro (error | _) deleted _
      · exact Steps.bind (mark_steps id _ rfl deleted) fun _ _ _ ↦ trivial
      · trivial
  · trivial

theorem reconcileSegment_steps (counts : ReconcileResult) {seg : Recording}
    (hdoomed : Doomed seg world) :
    (reconcileSegment counts seg).Steps answer Evident KeepsMarks (fun _ _ ↦ True)
      (fun _ _ ↦ True) world := by
  unfold reconcileSegment
  refine Steps.bind (probe_steps hdoomed) ?_
  rintro (error | _) probed ⟨hgone, hnamed⟩
  · exact Steps.bind (deleteRecording_steps hnamed (hgone error rfl)) fun _ _ _ ↦ trivial
  · refine Steps.catching (fun _ _ ↦ True) ?_ ?_
    · refine Steps.bind (Steps.names (unlink_steps seg.filePath probed) hnamed) ?_
      rintro (error | _) unlinked ⟨hgone, hnamed⟩
      · trivial
      · simp only [orThrow_ok, bind_eq, done_bind]
        exact Steps.bind (deleteRecording_steps hnamed (Or.inl (hgone (by simp))))
          fun _ _ _ ↦ trivial
    · exact fun error reached _ ↦
        Steps.bind (mark_steps seg.id _ rfl reached) fun _ _ _ ↦ trivial

/-- The rows a query by status returns are rows of the catalogue with that status. -/
theorem findRecordingsByStatus_steps (status : SegmentStatus) (limit : ℕ) (world : World) :
    (findRecordingsByStatus status limit).Steps answer Evident KeepsMarks
      (fun found world ↦ ∀ row ∈ found, row ∈ world.recordings.rows ∧ row.status = status)
      (fun _ _ ↦ True) world := by
  have hquery : (Program.request (.findRecordingsByStatus status limit) : Async _).Steps answer
      Evident KeepsMarks (fun reply world ↦ ∀ found, reply = .ok found →
        ∀ row ∈ found, row ∈ world.recordings.rows ∧ row.status = status) (fun _ _ ↦ True)
          world := by
    refine Steps.request fun outcome _ ↦ ⟨KeepsMarks.of_same rfl rfl, ?_⟩
    intro found hreply row hrow
    have hfound : found = world.recordings.findRecordingsByStatus status limit := by
      rcases Outcome.orFail_cases outcome
        (world.recordings.findRecordingsByStatus status limit) with hok | ⟨error, -, herror⟩
      · exact Except.ok.inj (hreply.symm.trans hok)
      · exact absurd (hreply.symm.trans herror) (by simp)
    rw [hfound, RecordingTable.findRecordingsByStatus] at hrow
    have hrow := List.mem_of_mem_take hrow
    rw [mem_oldestFirst, List.mem_filter, decide_eq_true_eq] at hrow
    exact hrow
  exact Steps.bind hquery fun reply reached hreached ↦ Steps.orThrow hreached fun _ _ ↦ trivial

theorem reconcilePendingDeletions_steps (world : World) :
    reconcilePendingDeletions.Steps answer Evident KeepsMarks (fun _ _ ↦ True) (fun _ _ ↦ True)
      world := by
  unfold reconcilePendingDeletions
  refine Steps.bind (findRecordingsByStatus_steps _ _ world) fun pending reached hpending ↦ ?_
  have hdoomed : ∀ row ∈ pending, Doomed row reached := by
    intro row hrow
    obtain ⟨hmem, hstatus⟩ := hpending row hrow
    refine ⟨names_of_mem hmem, fun other hother hid ↦ ?_⟩
    rw [RecordingTable.eq_of_id_eq hother hmem hid, hstatus]
    rfl
  refine Steps.mono (Steps.foldlM (fun _ world ↦ ∀ row ∈ pending, Doomed row world) ?_ hdoomed)
    (fun _ _ hstep ↦ hstep) (fun _ _ _ ↦ trivial) fun _ _ hthrown ↦ hthrown
  intro counts seg hseg current hcurrent
  refine ((reconcileSegment_steps counts (hcurrent seg hseg)).frame
    (fun world ↦ ∀ row ∈ pending, Doomed row world) ?_ hcurrent).mono
      (fun _ _ hstep ↦ hstep) (fun _ _ hpost ↦ hpost.2) fun _ _ _ ↦ trivial
  exact fun _ _ hstep hkept row hrow ↦ (hkept row hrow).marks hstep

theorem expireBufferedSegments_steps (ingest : SegmentIngest) (world : World) :
    ingest.expireBufferedSegments.Steps answer Evident KeepsMarks (fun _ _ ↦ True)
      (fun _ _ ↦ True) world := by
  have hclock : (call .clockNow).Steps answer Evident KeepsMarks (fun _ _ ↦ True)
      (fun _ _ ↦ True) world :=
    Steps.request fun _ _ ↦ ⟨KeepsMarks.of_same rfl rfl, trivial⟩
  unfold SegmentIngest.expireBufferedSegments
  refine Steps.bind hclock fun now clocked _ ↦ ?_
  refine Steps.bind (findRecordingsByStatus_steps _ _ clocked) fun buffered found hbuffered ↦ ?_
  have hnames : ∀ row ∈ buffered, Names row.id row.filePath found :=
    fun row hrow ↦ names_of_mem (hbuffered row hrow).1
  refine Steps.mono (Steps.foldlM
    (fun _ world ↦ ∀ row ∈ buffered, Names row.id row.filePath world) ?_ hnames)
      (fun _ _ hstep ↦ hstep) (fun _ _ _ ↦ trivial) fun _ _ hthrown ↦ hthrown
  intro _ segment hsegment current hcurrent
  unfold SegmentIngest.expireSegment
  split_ifs
  · exact hcurrent
  · refine Steps.catching (fun _ world ↦ ∀ row ∈ buffered, Names row.id row.filePath world) ?_
      fun _ _ hkept ↦ hkept
    refine Steps.bind (((deleteSegmentInternal_steps _ _ (hcurrent segment hsegment)).frame
      (fun world ↦ ∀ row ∈ buffered, Names row.id row.filePath world)
      (fun _ _ hstep hkept row hrow ↦ (hkept row hrow).follows hstep.toFollows) hcurrent).mono
        (fun _ _ hstep ↦ hstep) (fun _ _ hpost ↦ hpost) fun _ _ hthrown ↦ hthrown.2) ?_
    exact fun _ _ hpost ↦ hpost.2

end Deletions

/-! ### Operations keep the account -/

/-- A program that removes nothing keeps the account. -/
theorem steps_of_removesNothing {α : Type} {program : Async α}
    (huses : program.Uses (Call.removesNothing · = true)) (world : World) :
    program.Steps answer Evident KeepsAccount (fun _ _ ↦ True) (fun _ _ ↦ True) world :=
  Steps.of_uses huses (fun _ outcome world hcall _ ↦ KeepsAccount.answer hcall outcome world) world

/-- What keeps the marks keeps the account. -/
theorem steps_of_marks {α : Type} {program : Async α} {world : World}
    (hsteps : program.Steps answer Evident KeepsMarks (fun _ _ ↦ True) (fun _ _ ↦ True) world) :
    program.Steps answer Evident KeepsAccount (fun _ _ ↦ True) (fun _ _ ↦ True) world :=
  hsteps.mono (fun _ _ hstep ↦ hstep.toKeepsAccount) (fun _ _ hpost ↦ hpost)
    fun _ _ hthrown ↦ hthrown

theorem scan_steps (ingest : SegmentIngest) (world : World) :
    ingest.scan.Steps answer Evident KeepsAccount (fun _ _ ↦ True) (fun _ _ ↦ True) world := by
  have hingests : ∀ call : Call, call.ingests = true → call.removesNothing = true := by
    intro call hcall
    cases call <;> first | rfl | cases hcall
  unfold SegmentIngest.scan
  refine Steps.bind (steps_of_removesNothing (Uses.request rfl) world) fun reply _ _ ↦ ?_
  refine Steps.bind (steps_of_removesNothing Uses.orThrow _) fun cameras listed _ ↦ ?_
  refine Steps.bind (steps_of_removesNothing (Uses.foldlM ?_) listed) fun catalogued scanned _ ↦ ?_
  · intro catalogued camera _
    refine Uses.catching (Uses.bind ((ingest.scanCamera_uses camera).mono hingests) fun _ ↦ ?_)
      fun _ ↦ ?_
    · trivial
    · trivial
  · exact Steps.bind (steps_of_marks (expireBufferedSegments_steps ingest scanned))
      fun _ _ _ ↦ trivial

theorem auditAndReconcile_steps (recordingsRoot : Path) (world : World) :
    (auditAndReconcile recordingsRoot).Steps answer Evident KeepsAccount (fun _ _ ↦ True)
      (fun _ _ ↦ True) world := by
  have hkeeps : ∀ call : Call, call.keeps = true → call.removesNothing = true := by
    intro call hcall
    cases call <;> first | rfl | cases hcall
  unfold auditAndReconcile
  refine Steps.bind (steps_of_marks (reconcilePendingDeletions_steps world)) fun _ swept _ ↦ ?_
  refine steps_of_removesNothing ?_ swept
  refine Uses.bind (Uses.request rfl) fun _ ↦ Uses.bind Uses.orThrow fun allRecordings ↦ ?_
  refine Uses.bind (Uses.request rfl) fun _ ↦ Uses.bind Uses.orThrow fun cameras ↦ ?_
  refine Uses.bind (Uses.foldlM fun progress row _ ↦
    (auditRecording_uses _ progress row).mono hkeeps) fun audited ↦ ?_
  refine Uses.bind ((auditDirectories_uses _ _ _).mono hkeeps) fun report ↦ ?_
  exact Uses.bind (Uses.request rfl) fun _ ↦ trivial

theorem deleteCamera_steps (cameraId : CameraId) (world : World) :
    (call (.deleteCamera cameraId)).Steps answer Evident KeepsAccount (fun _ _ ↦ True)
      (fun _ _ ↦ True) world := by
  refine Steps.request fun outcome hallowed ↦ ⟨?_, trivial⟩
  simp only [answer, World.answerDeleteCamera]
  split
  · exact (KeepsMarks.of_same rfl rfl).toKeepsAccount
  · next hpasses =>
    split_ifs
    · refine KeepsMarks.toKeepsAccount (KeepsMarks.removeRows rfl rfl fun row hrow hcamera ↦ ?_)
      exact hallowed (by cases outcome <;> first | rfl | exact absurd rfl (hpasses _)) row
        hrow (by simpa using hcamera)
    · exact (KeepsMarks.of_same rfl rfl).toKeepsAccount

theorem removeCamera_steps (cameraId : CameraId) (world : World) :
    (removeCamera cameraId).Steps answer Evident KeepsAccount (fun _ _ ↦ True) (fun _ _ ↦ True)
      world := by
  unfold removeCamera
  refine Steps.bind (steps_of_removesNothing (Uses.request rfl) world) fun reply _ _ ↦ ?_
  refine Steps.bind (steps_of_removesNothing Uses.orThrow _) fun existing found _ ↦ ?_
  cases existing with
  | none => trivial
  | some existingCamera =>
    refine Steps.bind (deleteCamera_steps cameraId found) fun reply deleted _ ↦ ?_
    refine steps_of_removesNothing (Uses.bind Uses.orThrow fun _ ↦ ?_) deleted
    refine Uses.bind (Uses.request rfl) fun _ ↦ Uses.bind Uses.orThrow fun _ ↦ ?_
    exact Uses.bind (Uses.request rfl) fun _ ↦ trivial

/-- Every operation keeps the account from where it starts. -/
theorem CatalogueOperation.steps {ingest : SegmentIngest} {world : World} {program : Async Unit}
    (hoperation : CatalogueOperation ingest world program) :
    program.Steps answer Evident KeepsAccount (fun _ _ ↦ True) (fun _ _ ↦ True) world := by
  have hover : ∀ {α : Type} {program : Async α},
      program.Steps answer Evident KeepsAccount (fun _ _ ↦ True) (fun _ _ ↦ True) world →
        (program.bind fun _ ↦ done ()).Steps answer Evident KeepsAccount (fun _ _ ↦ True)
          (fun _ _ ↦ True) world :=
    fun hsteps ↦ Steps.bind hsteps fun _ _ _ ↦ trivial
  cases hoperation with
  | scan => exact hover (scan_steps ingest world)
  | motion cameraId motionAt =>
    refine hover (steps_of_removesNothing ((ingest.onMotion_uses cameraId motionAt).mono ?_) world)
    intro call hcall
    cases call <;> first | rfl | cases hcall
  | delete hnames reportedSize =>
    exact hover (steps_of_marks (deleteSegmentInternal_steps _ _ hnames))
  | reconcile => exact hover (steps_of_marks (reconcilePendingDeletions_steps world))
  | audit => exact hover (auditAndReconcile_steps _ world)
  | removeCamera id => exact hover (removeCamera_steps id world)

/-! ### Runs -/

section Runs

variable {ingest : SegmentIngest} {initial : World} {state : Turn Call Reply Failure World}
  {move : TurnMove Call Reply Failure Outcome EnvironmentChange}

theorem operationRuns_takesTurns (ingest : SegmentIngest) :
    TakesTurns machine Evident KeepsAccount (operationRuns Evident ingest) where
  start_steps := fun hlegal ↦ hlegal.2.steps
  advance_allowed := fun hlegal hcurrent ↦ hlegal _ _ hcurrent
  environment_over := fun hlegal ↦ hlegal

/-- What happens around the engine removes no row. -/
theorem KeepsRows.react (change : EnvironmentChange) (world : World) :
    KeepsRows world (react change world) := by
  cases change with
  | setProtection id isProtected => exact KeepsRows.update rfl
  | _ => exact fun row hrow ↦ Or.inl ⟨row, hrow, SameFootage.refl row⟩

/-- One move of a sequence keeps the rows of files that exist. -/
theorem operationRuns_keepsRows
    (hreached : Reaches machine.turn (operationRuns Evident ingest)
      { current := .done (), world := initial } state)
    (hlegal : operationRuns Evident ingest state move) :
    KeepsRows state.world (machine.turn state move).world := by
  have hsame : KeepsRows state.world state.world :=
    fun row hrow ↦ Or.inl ⟨row, hrow, SameFootage.refl row⟩
  cases move with
  | start program => exact hsame
  | advance outcome =>
    rcases hreached.advance_step (operationRuns_takesTurns ingest) rfl hlegal with
      hstill | hstep
    · rw [hstill]
      exact hsame
    · exact hstep.keeps_rows
  | crash => exact hsame
  | environment event => exact KeepsRows.react event state.world

/-- A file that stays on the disk through a run keeps the row that accounts for it. -/
theorem operationRuns_keepsFootage
    {moves : List (TurnMove Call Reply Failure Outcome EnvironmentChange)}
    (hreached : Reaches machine.turn (operationRuns Evident ingest)
      { current := .done (), world := initial } state)
    (hlegal : LegalRun machine.turn (operationRuns Evident ingest) state moves)
    {row : Recording} (hrow : row ∈ state.world.recordings.rows)
    (hdisk : ∀ earlier, earlier <+: moves →
      (runMoves machine.turn state earlier).world.onDisk row.filePath = true) :
    ∃ kept ∈ (runMoves machine.turn state moves).world.recordings.rows, SameFootage row kept := by
  induction moves generalizing state row with
  | nil => exact ⟨row, hrow, SameFootage.refl row⟩
  | cons move moves ih =>
    obtain ⟨hmove, hmoves⟩ := hlegal
    rcases operationRuns_keepsRows hreached hmove row hrow with ⟨kept, hkept, hsame⟩ | hgone
    · obtain ⟨last, hlast, hlater⟩ := ih (hreached.step hmove) hmoves hkept fun earlier hbegins ↦ by
        rw [hsame.2.1]
        exact hdisk (move :: earlier) (List.cons_prefix_cons.mpr ⟨rfl, hbegins⟩)
      exact ⟨last, hlast, hsame.trans hlater⟩
    · have hfirst : state.world.onDisk row.filePath = true := hdisk [] List.nil_prefix
      exact absurd (hgone.symm.trans hfirst) (by decide)

end Runs

/-- In every sequence of catalogue operations whose evidence holds, a row leaves only when its file
is gone. -/
theorem accounted_of_evident (ingest : SegmentIngest) (initial : World) :
    Accounted Evident ingest initial := by
  intro state hreached
  refine ⟨fun move hlegal row hrow hremoved ↦ ?_, fun moves hlegal row hrow hdisk ↦
    operationRuns_keepsFootage hreached hlegal hrow hdisk⟩
  rcases operationRuns_keepsRows hreached hlegal row hrow with ⟨kept, hkept, hsame⟩ | hgone
  · exact absurd hsame.1 (hremoved kept hkept)
  · exact hgone

/-! ### An access error that is not `ENOENT` -/

/-- A deletion that a crash left half done. -/
def pendingYardWorld : World :=
  { yardWorld with
    recordings := { rows := [{ yardSegment with status := .deletePending }], nextId := 1 } }

/-- The access probe is denied. -/
def deny : Outcome := .fail { code := .eacces, message := "EACCES: permission denied, access" }

/-- When the probe of a sweep is denied, the row is removed and the file stays. -/
theorem not_accounted_access_denied :
    ¬ Accounted (fun _ _ _ ↦ True) { recordingsRoot := ["rec"] } pendingYardWorld := by
  intro haccounted
  have hreached := Reaches.refl.run
    (show LegalRun machine.turn (operationRuns (fun _ _ _ ↦ True) { recordingsRoot := ["rec"] })
      { current := .done (), world := pendingYardWorld }
      [.start (reconcilePendingDeletions.bind fun _ ↦ done ()), .advance .ok, .advance deny]
      from ⟨⟨rfl, .reconcile⟩, fun _ _ _ ↦ trivial, fun _ _ _ ↦ trivial, trivial⟩)
  have hgone := (haccounted _ hreached).1 (.advance .ok) (fun _ _ _ ↦ trivial)
    { yardSegment with status := .deletePending } (by decide) (by decide)
  exact absurd hgone (by decide)

end VmsLite.Recordings
