import VmsLite.Recordings.Catalog

/-!
# Two-phase deletion

Invariant 4: no segment is deleted from disk while its catalog row still claims it is footage. The
runs are those of any number of `deleteSegmentInternal` and `reconcilePendingDeletions` calls,
interleaved at their awaits, with failing calls and crashes.

`TwoPhase` is the invariant over such runs. It fails for two reasons. `deleteSegmentInternal` does
not look at the reply of its first update, so when the row could not be marked the file is unlinked
under a row that is still AVAILABLE (`not_twoPhase_of_any_failure`). And both calls take an error
for a missing file: any error of the access probe, and an `ENOENT` of `unlink`, which a volume that
is not mounted gives for every file. `Truthful` is the condition that neither happens, and
`twoPhase_of_truthful` is the invariant under it. What every call does to a row and its file is one
relation, `KeepsPhases`; `LostFootage` is its closure over a run.
-/

set_option autoImplicit false

namespace VmsLite.Recordings

open VmsLite.Async Program

/-! ### The invariant -/

/-- The states in which the catalog claims its footage: AVAILABLE, QUARANTINED and BUFFERED. -/
def SegmentStatus.isNonDeleting : SegmentStatus → Bool
  | .available | .quarantined | .buffered => true
  | _ => false

theorem SegmentStatus.isNonDeleting_eq_false {status : SegmentStatus}
    (hdeleting : status.isDeleting = true) : status.isNonDeleting = false := by
  cases status <;> simp_all [SegmentStatus.isDeleting, SegmentStatus.isNonDeleting]

/-- A call on a segment of the catalogue that the run may make. -/
inductive DeletionCall (recordingsRoot : Path) (initial : World) : Async Unit → Prop
  | delete {segment : Recording} (hsegment : segment ∈ initial.recordings.rows)
      (reportedSize : ℕ) :
      DeletionCall recordingsRoot initial
        ((deleteSegmentInternal recordingsRoot segment.id segment.filePath reportedSize).bind
          fun _ ↦ done ())
  | reconcile :
      DeletionCall recordingsRoot initial (reconcilePendingDeletions.bind fun _ ↦ done ())

/-- The moves of a run of deletions, with a condition on the outcome of every awaited call. -/
def deletionRuns (condition : Call → Outcome → World → Prop) (recordingsRoot : Path)
    (initial : World) (system : System Call Reply Failure World Unit) :
    Move Call Reply Failure Outcome EnvironmentChange Unit → Prop
  | .start _ program => DeletionCall recordingsRoot initial program
  | .advance thread outcome => ∀ tag call next,
      system.threads[thread]? = some (tag, .await call next) →
        condition call outcome system.world
  | .crash => True
  | .environment _ => False

/-- Whether a run has changed the row or the file of a segment. -/
def Touched (initial : World) (segment : Recording) (world : World) : Prop :=
  segment ∉ world.recordings.rows ∨
    initial.onDisk segment.filePath ≠ world.onDisk segment.filePath

/-- Where a touched segment may be: row and file gone, row DELETE_PENDING, or row GARBAGE. -/
def Settled (segment : Recording) (world : World) : Prop :=
  (world.recordings.find segment.id = none ∧ world.onDisk segment.filePath = false) ∨
    ∃ row ∈ world.recordings.rows, row.id = segment.id ∧
      (row.status = .deletePending ∨ row.status = .garbage)

/-- Invariant 4 over the runs from `initial`: no move unlinks the file of a row in a non-deleting
state, and every touched segment is settled. -/
def TwoPhase (condition : Call → Outcome → World → Prop) (recordingsRoot : Path)
    (initial : World) : Prop :=
  ∀ system, Reaches machine.move (deletionRuns condition recordingsRoot initial)
      { threads := [], world := initial } system →
    (∀ move, deletionRuns condition recordingsRoot initial system move →
      ∀ row ∈ system.world.recordings.rows, row.status.isNonDeleting = true →
        system.world.onDisk row.filePath = true →
          (machine.move system move).world.onDisk row.filePath = true) ∧
    ∀ segment ∈ initial.recordings.rows, Touched initial segment system.world →
      Settled segment system.world

/-! ### One step of a deletion -/

/-- What one call of a deletion does: rows keep id and path and only move to a deleting state, a
row goes only when its file is gone, no file appears, and a file goes only under a deleting row. -/
structure KeepsPhases (before after : World) : Prop where
  row_origin : ∀ row ∈ after.recordings.rows, ∃ old ∈ before.recordings.rows,
    row.id = old.id ∧ row.filePath = old.filePath ∧
      (row = old ∨ row.status.isDeleting = true)
  row_kept : ∀ old ∈ before.recordings.rows,
    (∃ row ∈ after.recordings.rows, row.id = old.id) ∨ after.onDisk old.filePath = false
  no_file_appears : ∀ path, after.onDisk path = true → before.onDisk path = true
  file_kept : ∀ old ∈ before.recordings.rows, before.onDisk old.filePath = true →
    after.onDisk old.filePath = true ∨ old.status.isDeleting = true

/-- What any number of calls of a deletion do. -/
structure LostFootage (before after : World) : Prop where
  row_origin : ∀ row ∈ after.recordings.rows, ∃ old ∈ before.recordings.rows,
    row.id = old.id ∧ row.filePath = old.filePath ∧
      (row = old ∨ row.status.isDeleting = true)
  row_kept : ∀ old ∈ before.recordings.rows,
    (∃ row ∈ after.recordings.rows, row.id = old.id) ∨ after.onDisk old.filePath = false
  no_file_appears : ∀ path, after.onDisk path = true → before.onDisk path = true
  file_kept : ∀ old ∈ before.recordings.rows, before.onDisk old.filePath = true →
    after.onDisk old.filePath = true ∨
      ∀ row ∈ after.recordings.rows, row.id = old.id → row.status.isDeleting = true

theorem KeepsPhases.of_same {before after : World} (hrows : after.recordings = before.recordings)
    (hfiles : after.files = before.files) : KeepsPhases before after where
  row_origin := fun row hrow ↦ ⟨row, hrows ▸ hrow, rfl, rfl, Or.inl rfl⟩
  row_kept := fun old hold ↦ Or.inl ⟨old, hrows ▸ hold, rfl⟩
  no_file_appears := fun path hpath ↦ by
    rw [World.onDisk, ← hfiles]
    exact hpath
  file_kept := fun old _ hdisk ↦ Or.inl (by
    rw [World.onDisk, hfiles]
    exact hdisk)

theorem LostFootage.refl (world : World) : LostFootage world world where
  row_origin := fun row hrow ↦ ⟨row, hrow, rfl, rfl, Or.inl rfl⟩
  row_kept := fun old hold ↦ Or.inl ⟨old, hold, rfl⟩
  no_file_appears := fun _ hpath ↦ hpath
  file_kept := fun _ _ hdisk ↦ Or.inl hdisk

theorem KeepsPhases.lostFootage {before after : World} (hstep : KeepsPhases before after) :
    LostFootage before after where
  row_origin := hstep.row_origin
  row_kept := hstep.row_kept
  no_file_appears := hstep.no_file_appears
  file_kept := by
    intro old hold hdisk
    rcases hstep.file_kept old hold hdisk with hkept | hdeleting
    · exact Or.inl hkept
    · refine Or.inr fun row hrow hid ↦ ?_
      obtain ⟨origin, horigin, hsame, -, hstatus⟩ := hstep.row_origin row hrow
      have hold' : origin = old :=
        RecordingTable.eq_of_id_eq horigin hold (hsame.symm.trans hid)
      rcases hstatus with rfl | hstatus
      · exact hold' ▸ hdeleting
      · exact hstatus

theorem LostFootage.trans {first second third : World} (hfirst : LostFootage first second)
    (hsecond : LostFootage second third) : LostFootage first third where
  row_origin := by
    intro row hrow
    obtain ⟨middle, hmiddle, hid, hpath, hstatus⟩ := hsecond.row_origin row hrow
    obtain ⟨old, hold, hid', hpath', hstatus'⟩ := hfirst.row_origin middle hmiddle
    refine ⟨old, hold, hid.trans hid', hpath.trans hpath', ?_⟩
    rcases hstatus with rfl | hdeleting
    · exact hstatus'
    · exact Or.inr hdeleting
  row_kept := by
    intro old hold
    rcases hfirst.row_kept old hold with ⟨middle, hmiddle, hid⟩ | hgone
    · obtain ⟨origin, horigin, hsame, hpath, -⟩ := hfirst.row_origin middle hmiddle
      have horiginal : origin = old :=
        RecordingTable.eq_of_id_eq horigin hold (hsame.symm.trans hid)
      rcases hsecond.row_kept middle hmiddle with ⟨row, hrow, hid'⟩ | hgone
      · exact Or.inl ⟨row, hrow, hid'.trans hid⟩
      · exact Or.inr (by rw [← horiginal, ← hpath]; exact hgone)
    · refine Or.inr ?_
      rw [← Bool.not_eq_true] at hgone ⊢
      exact fun hdisk ↦ hgone (hsecond.no_file_appears _ hdisk)
  no_file_appears := fun path hpath ↦
    hfirst.no_file_appears path (hsecond.no_file_appears path hpath)
  file_kept := by
    intro old hold hdisk
    rcases hfirst.file_kept old hold hdisk with hkept | hdeleting
    · by_cases hlast : third.onDisk old.filePath = true
      · exact Or.inl hlast
      · refine Or.inr fun row hrow hid ↦ ?_
        obtain ⟨middle, hmiddle, hid', hpath, hstatus⟩ := hsecond.row_origin row hrow
        obtain ⟨origin, horigin, hid'', hpath', -⟩ := hfirst.row_origin middle hmiddle
        have horiginal : origin = old :=
          RecordingTable.eq_of_id_eq horigin hold (hid''.symm.trans (hid'.symm.trans hid))
        have hmiddlePath : middle.filePath = old.filePath := hpath'.trans (by rw [horiginal])
        rcases hsecond.file_kept middle hmiddle (by rw [hmiddlePath]; exact hkept) with
          hkept' | hdeleting
        · exact absurd (by rw [← hmiddlePath]; exact hkept') hlast
        · exact hdeleting row hrow hid'
    · refine Or.inr fun row hrow hid ↦ ?_
      obtain ⟨middle, hmiddle, hid', -, hstatus⟩ := hsecond.row_origin row hrow
      rcases hstatus with rfl | hstatus
      · exact hdeleting _ hmiddle hid
      · exact hstatus

/-- A row after a run of `LostFootage` is the row with its id from before, or that row in a deleting
state. -/
theorem LostFootage.row_of_id {initial world : World} (hlost : LostFootage initial world)
    {segment row : Recording} (hsegment : segment ∈ initial.recordings.rows)
    (hrow : row ∈ world.recordings.rows) (hid : row.id = segment.id) :
    row.filePath = segment.filePath ∧ (row = segment ∨ row.status.isDeleting = true) := by
  obtain ⟨origin, horigin, hsame, hpath, hstatus⟩ := hlost.row_origin row hrow
  obtain rfl : origin = segment :=
    RecordingTable.eq_of_id_eq horigin hsegment (hsame.symm.trans hid)
  exact ⟨hpath, hstatus⟩

/-- A segment that a run of `LostFootage` has touched is settled. -/
theorem LostFootage.settled {initial world : World} (hlost : LostFootage initial world)
    {segment : Recording} (hsegment : segment ∈ initial.recordings.rows)
    (htouched : Touched initial segment world) : Settled segment world := by
  cases hfind : world.recordings.find segment.id with
  | none =>
    refine Or.inl ⟨hfind, ?_⟩
    rcases hlost.row_kept segment hsegment with ⟨row, hrow, hid⟩ | hgone
    · exact absurd hid (RecordingTable.find_eq_none_iff.mp hfind row hrow)
    · exact hgone
  | some row =>
    obtain ⟨hrow, hid⟩ := RecordingTable.find_eq_some_iff.mp hfind
    have hdeleting : row.status.isDeleting = true := by
      rcases (hlost.row_of_id hsegment hrow hid).2 with rfl | hdeleting
      · have hfile := htouched.resolve_left fun hmissing ↦ hmissing hrow
        cases hbefore : initial.onDisk row.filePath with
        | false =>
          have hafter : world.onDisk row.filePath = true := by
            rw [hbefore] at hfile
            simpa using hfile
          rw [hlost.no_file_appears _ hafter] at hbefore
          exact absurd hbefore (by decide)
        | true =>
          rcases hlost.file_kept row hsegment hbefore with hafter | hdeleting
          · exact absurd (hbefore.trans hafter.symm) hfile
          · exact hdeleting row hrow rfl
      · exact hdeleting
    refine Or.inr ⟨row, hrow, hid, ?_⟩
    cases hstatus : row.status <;> simp_all [SegmentStatus.isDeleting]

/-! ### What each call does -/

theorem KeepsPhases.updateRow {world : World} {id : RecordingId} {status : SegmentStatus}
    {reason : Option (Option String)} (hstatus : status.isDeleting = true) :
    KeepsPhases world (world.updateRow id { status := some status, errorReason := reason }) where
  row_origin := by
    intro row hrow
    obtain ⟨old, hold, rfl⟩ := RecordingTable.mem_update.mp hrow
    refine ⟨old, hold, ?_⟩
    split_ifs with hid
    · exact ⟨rfl, rfl, Or.inr hstatus⟩
    · exact ⟨rfl, rfl, Or.inl rfl⟩
  row_kept := by
    intro old hold
    refine Or.inl ⟨_, RecordingTable.mem_update.mpr ⟨old, hold, rfl⟩, ?_⟩
    split_ifs <;> rfl
  no_file_appears := fun _ hpath ↦ hpath
  file_kept := fun _ _ hdisk ↦ Or.inl hdisk

theorem KeepsPhases.removeFile {world : World} {path : Path}
    (hmarked : ∀ row ∈ world.recordings.rows, row.filePath = path → row.status.isDeleting = true) :
    KeepsPhases world (world.removeFile path) where
  row_origin := fun row hrow ↦ ⟨row, hrow, rfl, rfl, Or.inl rfl⟩
  row_kept := fun old hold ↦ Or.inl ⟨old, hold, rfl⟩
  no_file_appears := fun _ hother ↦ (World.onDisk_removeFile.mp hother).2
  file_kept := by
    intro old hold hdisk
    by_cases hpath : old.filePath = path
    · exact Or.inr (hmarked old hold hpath)
    · exact Or.inl (World.onDisk_removeFile.mpr ⟨hpath, hdisk⟩)

theorem KeepsPhases.removeRow {world : World} {id : RecordingId}
    (hgone : ∀ row ∈ world.recordings.rows, row.id = id → world.onDisk row.filePath = false) :
    KeepsPhases world (world.removeRows fun row ↦ row.id = id) where
  row_origin := fun row hrow ↦
    ⟨row, (RecordingTable.mem_remove.mp hrow).1, rfl, rfl, Or.inl rfl⟩
  row_kept := by
    intro old hold
    by_cases hid : old.id = id
    · exact Or.inr (hgone old hold hid)
    · exact Or.inl ⟨old, RecordingTable.mem_remove.mpr ⟨hold, by simpa using hid⟩, rfl⟩
  no_file_appears := fun _ hpath ↦ hpath
  file_kept := fun _ _ hdisk ↦ Or.inl hdisk

/-! ### The condition -/

/-- Failing calls that do not mislead a deletion: a DELETE_PENDING mark fails only on a row that is
already being deleted, and the access probe and an `ENOENT` of `unlink` are right about a missing
file. -/
def Truthful (call : Call) (outcome : Outcome) (world : World) : Prop :=
  match call with
  | .updateRecordingStatus id .deletePending _ =>
    outcome.passes = true ∨
      ∀ row ∈ world.recordings.rows, row.id = id → row.status.isDeleting = true
  | .access path => outcome.passes = true ∨ world.onDisk path = false
  | .unlink path => ∀ error, outcome = .fail error → error.code = .enoent →
      world.onDisk path = false
  | _ => True

/-- What deletions rely on and guarantee when no failure misleads them. -/
def deletionDiscipline : Discipline machine where
  allowed := Truthful
  rely := LostFootage
  guarantee := KeepsPhases
  rely_refl := LostFootage.refl
  rely_trans := LostFootage.trans
  rely_of_guarantee := KeepsPhases.lostFootage
  allowed_calm := by
    intro call world hsynchronous
    cases call <;> simp_all [machine, synchronous, Truthful]
  guarantee_synchronous := by
    intro call first second hsynchronous hguarantee
    cases call <;> simp [machine, synchronous] at hsynchronous
    all_goals
      exact ⟨hguarantee.row_origin, hguarantee.row_kept, hguarantee.no_file_appears,
        hguarantee.file_kept⟩

/-! ### Deletions are safe -/

/-- The row of a segment, if there is one, is on its way out. -/
def Marked (segment : Recording) (world : World) : Prop :=
  ∀ row ∈ world.recordings.rows, row.id = segment.id → row.status.isDeleting = true

theorem Marked.lostFootage {segment : Recording} {before after : World}
    (hmarked : Marked segment before) (hlost : LostFootage before after) :
    Marked segment after := by
  intro row hrow hid
  obtain ⟨old, hold, hid', -, hstatus⟩ := hlost.row_origin row hrow
  rcases hstatus with rfl | hdeleting
  · exact hmarked _ hold hid
  · exact hdeleting

theorem LostFootage.gone {path : Path} {before after : World} (hlost : LostFootage before after)
    (hgone : before.onDisk path = false) : after.onDisk path = false := by
  rw [← Bool.not_eq_true] at hgone ⊢
  exact fun hdisk ↦ hgone (hlost.no_file_appears path hdisk)

section Safe

variable {initial : World} {segment : Recording} {world : World}

theorem markDeletePending_safe (hworld : LostFootage initial world) :
    (updateRecordingStatus segment.id .deletePending).Safe deletionDiscipline
      (fun _ world ↦ LostFootage initial world ∧ Marked segment world)
      (fun _ world ↦ LostFootage initial world) world := by
  refine Safe.request (fun _ _ _ hrely hpost ↦
    ⟨hpost.1.trans hrely, hpost.2.lostFootage hrely⟩) ?_
  intro later hlater outcome hallowed
  have hinitial := hworld.trans hlater
  rcases World.answerUpdate_cases later segment.id
    { status := some .deletePending, errorReason := some none } outcome with
    ⟨hpasses, hanswer⟩ | ⟨hfails, hanswer⟩
  · have hstep : KeepsPhases later
        (later.updateRow segment.id
          { status := some .deletePending, errorReason := some none }) :=
      KeepsPhases.updateRow rfl
    simp only [machine, answer, hanswer]
    refine ⟨hstep, hinitial.trans hstep.lostFootage, ?_⟩
    intro row hrow hid
    obtain ⟨old, hold, rfl⟩ := RecordingTable.mem_update.mp hrow
    split_ifs with hold'
    · rfl
    · rw [if_neg hold'] at hid
      exact absurd hid hold'
  · simp only [machine, answer, hanswer]
    refine ⟨KeepsPhases.of_same rfl rfl, hinitial, ?_⟩
    rcases hallowed with hpasses | hmarked
    · exact absurd (hpasses.symm.trans hfails) (by decide)
    · exact hmarked

theorem markGarbage_safe {reason : Option String} (hworld : LostFootage initial world) :
    (updateRecordingStatus segment.id .garbage reason).Safe deletionDiscipline
      (fun _ world ↦ LostFootage initial world) (fun _ world ↦ LostFootage initial world)
          world := by
  refine Safe.request (fun _ _ _ hrely hpost ↦ hpost.trans hrely) ?_
  intro later hlater outcome _
  have hinitial := hworld.trans hlater
  rcases World.answerUpdate_cases later segment.id
    { status := some .garbage, errorReason := some reason } outcome with
    ⟨-, hanswer⟩ | ⟨-, hanswer⟩
  · have hstep : KeepsPhases later
        (later.updateRow segment.id { status := some .garbage, errorReason := some reason }) :=
      KeepsPhases.updateRow rfl
    simp only [machine, answer, hanswer]
    exact ⟨hstep, hinitial.trans hstep.lostFootage⟩
  · simp only [machine, answer, hanswer]
    exact ⟨KeepsPhases.of_same rfl rfl, hinitial⟩

theorem unlink_safe (hsegment : segment ∈ initial.recordings.rows)
    (hworld : LostFootage initial world) (hmarked : Marked segment world) :
    (fsUnlinkFn segment.filePath).Safe deletionDiscipline
      (fun reply world ↦ LostFootage initial world ∧
        ((∀ error, reply = .error error → error.code = .enoent) →
          world.onDisk segment.filePath = false)) (fun _ world ↦ LostFootage initial world)
              world := by
  refine Safe.request (fun _ _ _ hrely hpost ↦
    ⟨hpost.1.trans hrely, fun hmissing ↦ hrely.gone (hpost.2 hmissing)⟩) ?_
  intro later hlater outcome hallowed
  have hinitial := hworld.trans hlater
  rcases World.answerUnlink_cases later segment.filePath outcome with
    ⟨-, hanswer⟩ | ⟨error, hanswer, herror⟩
  · have hstep : KeepsPhases later (later.removeFile segment.filePath) := by
      refine KeepsPhases.removeFile fun row hrow hpath ↦ ?_
      obtain ⟨origin, horigin, hid, hpath', -⟩ := hinitial.row_origin row hrow
      have hsame : origin = segment :=
        RecordingTable.eq_of_filePath_eq horigin hsegment (hpath'.symm.trans hpath)
      exact hmarked.lostFootage hlater row hrow (hid.trans (by rw [hsame]))
    simp only [machine, answer, hanswer]
    exact ⟨hstep, hinitial.trans hstep.lostFootage, fun _ ↦ World.not_onDisk_removeFile _⟩
  · simp only [machine, answer, hanswer]
    refine ⟨KeepsPhases.of_same rfl rfl, hinitial, fun hmissing ↦ ?_⟩
    have hcode : error.code = .enoent := hmissing error rfl
    rcases herror with rfl | ⟨-, hgone⟩
    · exact hallowed error rfl hcode
    · exact hgone

theorem access_safe (segment : Recording) (hworld : LostFootage initial world) :
    (fsAccessFn segment.filePath).Safe deletionDiscipline
      (fun reply world ↦ LostFootage initial world ∧
        (∀ error, reply = .error error → world.onDisk segment.filePath = false))
      (fun _ world ↦ LostFootage initial world) world := by
  refine Safe.request (fun _ _ _ hrely hpost ↦
    ⟨hpost.1.trans hrely, fun error hreply ↦ hrely.gone (hpost.2 error hreply)⟩) ?_
  intro later hlater outcome hallowed
  refine ⟨KeepsPhases.of_same rfl rfl, hworld.trans hlater, fun error hreply ↦ ?_⟩
  rcases World.answerFile_cases later "access" segment.filePath (fun _ ↦ ()) outcome
    with ⟨file, -, -, hanswer⟩ | ⟨_, -, rfl | ⟨-, hgone⟩⟩
  · exact absurd (hanswer.symm.trans hreply) (by simp)
  · exact hallowed.resolve_left (by simp [Outcome.passes])
  · exact hgone

theorem deleteRow_safe (hsegment : segment ∈ initial.recordings.rows)
    (hworld : LostFootage initial world) (hgone : world.onDisk segment.filePath = false) :
    (tryDeleteRecording segment.id).Safe deletionDiscipline
      (fun _ world ↦ LostFootage initial world) (fun _ world ↦ LostFootage initial world)
          world := by
  refine Safe.request (fun _ _ _ hrely hpost ↦ hpost.trans hrely) ?_
  intro later hlater outcome _
  have hinitial := hworld.trans hlater
  rcases World.answerDelete_cases later segment.id outcome with
    hanswer | ⟨error, hanswer⟩
  · have hstep : KeepsPhases later (later.removeRows fun row ↦ row.id = segment.id) := by
      refine KeepsPhases.removeRow fun row hrow hid ↦ ?_
      rw [(hinitial.row_of_id hsegment hrow hid).1]
      exact hlater.gone hgone
    simp only [machine, answer, hanswer]
    exact ⟨hstep, hinitial.trans hstep.lostFootage⟩
  · simp only [machine, answer, hanswer]
    exact ⟨KeepsPhases.of_same rfl rfl, hinitial⟩

theorem deleteRecording_safe (hsegment : segment ∈ initial.recordings.rows)
    (hworld : LostFootage initial world) (hgone : world.onDisk segment.filePath = false) :
    (deleteRecording segment.id).Safe deletionDiscipline
      (fun _ world ↦ LostFootage initial world) (fun _ world ↦ LostFootage initial world)
      world := by
  refine Safe.bind (deleteRow_safe hsegment hworld hgone) fun reply reached hreached ↦ ?_
  exact Safe.orThrow (fun _ _ _ hlater ↦ hreached.trans hlater)
    (fun _ _ _ hlater ↦ hreached.trans hlater)

theorem deleteSegmentInternal_safe (recordingsRoot : Path) (reportedSize : ℕ)
    (hsegment : segment ∈ initial.recordings.rows) (hworld : LostFootage initial world) :
    (deleteSegmentInternal recordingsRoot segment.id segment.filePath reportedSize).Safe
      deletionDiscipline (fun _ world ↦ LostFootage initial world)
      (fun _ world ↦ LostFootage initial world) world := by
  unfold deleteSegmentInternal
  split_ifs with hroot
  · refine Safe.bind (markDeletePending_safe hworld) fun _ marked hmarked ↦ ?_
    refine Safe.bind (unlink_safe hsegment hmarked.1 hmarked.2) ?_
    rintro (error | _) unlinked ⟨hunlinked, hgone⟩
    · by_cases hcode : error.code = .enoent
      · simp only [hcode, if_true]
        refine Safe.bind (deleteRecording_safe hsegment hunlinked (hgone ?_)) ?_
        · rintro _ ⟨⟩
          exact hcode
        · exact fun _ deleted hdeleted later hlater ↦ hdeleted.trans hlater
      · simp only [hcode, if_false]
        refine Safe.bind (markGarbage_safe hunlinked) ?_
        exact fun _ garbage hgarbage later hlater ↦ hgarbage.trans hlater
    · refine Safe.bind (deleteRow_safe hsegment hunlinked (hgone (by simp))) ?_
      rintro (error | _) deleted hdeleted
      · refine Safe.bind (markGarbage_safe hdeleted) ?_
        exact fun _ garbage hgarbage later hlater ↦ hgarbage.trans hlater
      · exact fun later hlater ↦ hdeleted.trans hlater
  · exact fun later hlater ↦ hworld.trans hlater

theorem reconcileSegment_safe (counts : ReconcileResult) {seg : Recording}
    (hsegment : segment ∈ initial.recordings.rows) (hid : seg.id = segment.id)
    (hpath : seg.filePath = segment.filePath) (hworld : LostFootage initial world)
    (hmarked : Marked segment world) :
    (reconcileSegment counts seg).Safe deletionDiscipline
      (fun _ world ↦ LostFootage initial world) (fun _ world ↦ LostFootage initial world)
      world := by
  unfold reconcileSegment
  rw [hid, hpath]
  have haccess := (access_safe segment hworld).frame (Marked segment)
    (fun _ _ hrely hkept ↦ Marked.lostFootage hkept hrely) hmarked
  refine Safe.bind (haccess.mono (fun _ _ hpost ↦ hpost) fun _ _ hthrown ↦ hthrown.1) ?_
  rintro (error | _) probed ⟨⟨hprobed, hgone⟩, hstill⟩
  · refine Safe.bind (deleteRecording_safe hsegment hprobed (hgone error rfl)) ?_
    exact fun _ deleted hdeleted later hlater ↦ hdeleted.trans hlater
  · refine Safe.catching (fun _ world ↦ LostFootage initial world) ?_ ?_
    · refine Safe.bind (unlink_safe hsegment hprobed hstill) ?_
      rintro (error | _) unlinked ⟨hunlinked, hgone⟩
      · exact fun later hlater ↦ hunlinked.trans hlater
      · simp only [orThrow_ok, bind_eq, done_bind]
        refine Safe.bind (deleteRecording_safe hsegment hunlinked (hgone (by simp))) ?_
        exact fun _ deleted hdeleted later hlater ↦ hdeleted.trans hlater
    · intro error reached hreached
      refine Safe.bind (markGarbage_safe hreached) ?_
      exact fun _ garbage hgarbage later hlater ↦ hgarbage.trans hlater

/-- A row that a sweep reads is a marked segment of the initial catalogue. -/
theorem findPending_safe (hworld : LostFootage initial world) :
    (findRecordingsByStatus .deletePending pendingSweepLimit).Safe deletionDiscipline
      (fun pending world ↦ LostFootage initial world ∧ ∀ seg ∈ pending,
        ∃ segment ∈ initial.recordings.rows, seg.id = segment.id ∧
          seg.filePath = segment.filePath ∧ Marked segment world)
      (fun _ world ↦ LostFootage initial world) world := by
  have hstable : ∀ {pending : List Recording} {world later : World},
      LostFootage world later →
        (∀ seg ∈ pending, ∃ segment ∈ initial.recordings.rows, seg.id = segment.id ∧
          seg.filePath = segment.filePath ∧ Marked segment world) →
        ∀ seg ∈ pending, ∃ segment ∈ initial.recordings.rows, seg.id = segment.id ∧
          seg.filePath = segment.filePath ∧ Marked segment later := by
    intro pending world later hrely hpending seg hseg
    obtain ⟨segment, hsegment, hid, hpath, hmarked⟩ := hpending seg hseg
    exact ⟨segment, hsegment, hid, hpath, hmarked.lostFootage hrely⟩
  have hquery : (Program.request
      (.findRecordingsByStatus .deletePending pendingSweepLimit) : Async _).Safe
      deletionDiscipline
      (fun reply world ↦ LostFootage initial world ∧
        ∀ pending, reply = .ok pending → ∀ seg ∈ pending,
          ∃ segment ∈ initial.recordings.rows, seg.id = segment.id ∧
            seg.filePath = segment.filePath ∧ Marked segment world)
      (fun _ world ↦ LostFootage initial world) world := by
    refine Safe.request (fun _ _ _ hrely hpost ↦
      ⟨hpost.1.trans hrely, fun pending hreply ↦ hstable hrely (hpost.2 pending hreply)⟩) ?_
    intro later hlater outcome _
    have hinitial := hworld.trans hlater
    refine ⟨KeepsPhases.of_same rfl rfl, hinitial, fun pending hreply seg hseg ↦ ?_⟩
    have hrows : pending =
        later.recordings.findRecordingsByStatus .deletePending pendingSweepLimit := by
      rcases Outcome.orFail_cases outcome
        (later.recordings.findRecordingsByStatus .deletePending pendingSweepLimit) with
        hok | ⟨error, -, herror⟩
      · exact Except.ok.inj (hreply.symm.trans hok)
      · exact absurd (hreply.symm.trans herror) (by simp)
    rw [hrows, RecordingTable.findRecordingsByStatus] at hseg
    have hseg := List.mem_of_mem_take hseg
    rw [mem_oldestFirst, List.mem_filter, decide_eq_true_eq] at hseg
    obtain ⟨hrow, hstatus⟩ := hseg
    obtain ⟨segment, hsegment, hid, hpath, -⟩ := hinitial.row_origin seg hrow
    refine ⟨segment, hsegment, hid, hpath, fun row hother hsame ↦ ?_⟩
    rw [RecordingTable.eq_of_id_eq hother hrow (hsame.trans hid.symm), hstatus]
    rfl
  refine Safe.bind hquery fun reply reached hreached ↦ ?_
  refine Safe.orThrow ?_ fun _ _ later hlater ↦ hreached.1.trans hlater
  exact fun pending hreply later hlater ↦
    ⟨hreached.1.trans hlater, hstable hlater (hreached.2 pending hreply)⟩

theorem reconcilePendingDeletions_safe (hworld : LostFootage initial world) :
    reconcilePendingDeletions.Safe deletionDiscipline
      (fun _ world ↦ LostFootage initial world) (fun _ world ↦ LostFootage initial world)
      world := by
  unfold reconcilePendingDeletions
  refine Safe.bind (findPending_safe hworld) fun pending reached hreached ↦ ?_
  refine Safe.mono (Safe.foldlM
    (fun _ world ↦ LostFootage initial world ∧ LostFootage reached world)
    (fun _ _ _ hrely hkept ↦ ⟨hkept.1.trans hrely, hkept.2.trans hrely⟩) ?_
    ⟨hreached.1, LostFootage.refl reached⟩) (fun _ _ hpost ↦ hpost.1) fun _ _ hthrown ↦ hthrown
  intro counts seg hseg current hcurrent
  obtain ⟨segment, hsegment, hid, hpath, hmarked⟩ := hreached.2 seg hseg
  have hround := reconcileSegment_safe counts hsegment hid hpath hcurrent.1
    (hmarked.lostFootage hcurrent.2)
  exact (hround.frame (LostFootage reached) (fun _ _ hrely hkept ↦ hkept.trans hrely)
    hcurrent.2).mono (fun _ _ hpost ↦ hpost) fun _ _ hthrown ↦ hthrown.1

end Safe

/-! ### Runs -/

/-- A run whose failures do not mislead it keeps within the discipline. -/
theorem deletionRuns_respects (recordingsRoot : Path) (initial : World) :
    Respects deletionDiscipline (deletionRuns Truthful recordingsRoot initial)
      { threads := [], world := initial } where
  initial_safe := fun thread hthread ↦ absurd hthread List.not_mem_nil
  start_safe := by
    intro system tag program _ hrely hlegal
    cases hlegal with
    | delete hsegment reportedSize =>
      refine Safe.bind ((deleteSegmentInternal_safe recordingsRoot reportedSize hsegment
        hrely).mono (fun _ _ hpost ↦ hpost) fun _ _ _ ↦ trivial) ?_
      exact fun _ _ _ _ _ ↦ trivial
    | reconcile =>
      refine Safe.bind ((reconcilePendingDeletions_safe hrely).mono (fun _ _ hpost ↦ hpost)
        fun _ _ _ ↦ trivial) ?_
      exact fun _ _ _ _ _ ↦ trivial
  advance_allowed := fun hlegal hthread ↦ hlegal _ _ _ hthread
  crash_rely := fun {system} _ ↦
    (KeepsPhases.of_same rfl rfl : KeepsPhases system.world (restart system.world)).lostFootage
  environment_rely := fun hlegal ↦ hlegal.elim

/-- One move of a run keeps the phases. -/
theorem deletionRuns_move {recordingsRoot : Path} {initial : World}
    {system : System Call Reply Failure World Unit}
    {move : Move Call Reply Failure Outcome EnvironmentChange Unit}
    (hreached : Reaches machine.move (deletionRuns Truthful recordingsRoot initial)
      { threads := [], world := initial } system)
    (hlegal : deletionRuns Truthful recordingsRoot initial system move) :
    KeepsPhases system.world (machine.move system move).world := by
  cases move with
  | start tag program =>
    have hsame : (machine.move system (.start tag program)).world = system.world := by
      cases hlegal with
      | delete hsegment reportedSize =>
        unfold deleteSegmentInternal
        split_ifs <;> rfl
      | reconcile => rfl
    rw [hsame]
    exact KeepsPhases.of_same rfl rfl
  | advance thread outcome =>
    rcases hreached.advance_guarantee (deletionRuns_respects recordingsRoot initial) hlegal with
      hsame | hstep
    · rw [hsame]
      exact KeepsPhases.of_same rfl rfl
    · exact hstep
  | crash => exact KeepsPhases.of_same rfl rfl
  | environment event => exact hlegal.elim

/-- Invariant 4 holds of every run whose failures do not mislead it. -/
theorem twoPhase_of_truthful (recordingsRoot : Path) (initial : World) :
    TwoPhase Truthful recordingsRoot initial := by
  intro system hreached
  have hlost := (hreached.safe (deletionRuns_respects recordingsRoot initial)).2
  refine ⟨fun move hlegal row hrow hstatus hdisk ↦ ?_,
    fun segment hsegment htouched ↦ LostFootage.settled hlost hsegment htouched⟩
  have hstep := deletionRuns_move hreached hlegal
  rcases hstep.file_kept row hrow hdisk with hkept | hdeleting
  · exact hkept
  · exact absurd (SegmentStatus.isNonDeleting_eq_false hdeleting) (by simp [hstatus])

/-! ### A mark that fails -/

/-- The database refuses the update. -/
def refuse : Outcome := .fail { code := .other, message := "database is locked" }

/-- When the database refuses the DELETE_PENDING mark, the file is unlinked all the same, under a
row that is still AVAILABLE. -/
theorem not_twoPhase_of_any_failure : ¬ TwoPhase (fun _ _ _ ↦ True) ["rec"] yardWorld := by
  intro htwoPhase
  have hrow : yardSegment ∈ yardWorld.recordings.rows := List.mem_singleton_self _
  have hreached := Reaches.refl.run
    (show LegalRun machine.move (deletionRuns (fun _ _ _ ↦ True) ["rec"] yardWorld)
      { threads := [], world := yardWorld }
      [.start () ((deleteSegmentInternal ["rec"] yardSegment.id yardSegment.filePath 100).bind
        fun _ ↦ done ()), .advance 0 refuse]
      from ⟨.delete hrow 100, fun _ _ _ _ ↦ trivial, trivial⟩)
  have hkept := (htwoPhase _ hreached).1 (.advance 0 .ok) (fun _ _ _ _ ↦ trivial) yardSegment
    (by decide) (by decide) (by decide)
  exact absurd hkept (by decide)

end VmsLite.Recordings
