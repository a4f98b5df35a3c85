import VmsLite.Recordings.PassOutcome

/-!
# What a pass examines

A pass that is told to go on before every page, and has iterations enough for its rows, hands each
of them to the retention policy once and frees the bytes of the files it unlinks: when it goes over
all segments, or when no unlink is refused before the last page (`examinesEachOnce_iff`). In the
pass over the quarantined segments a refused unlink makes the segment GARBAGE. The pass counts it in
`skip`, yet the query no longer finds it, so the first segment of the next page is never looked at.
-/

set_option autoImplicit false

namespace VmsLite.Recordings

open VmsLite.Async Program Paging

namespace PurgePass

variable {pass : PurgePass}

/-! ### The files that are gone -/

/-- The rows whose file is gone after some rows were looked at. -/
theorem Looked.gone_iff {looked : List RecordingId} {world : World}
    (hlooked : pass.Looked looked world)
    {row : Recording} (hrow : row ∈ pass.origin.recordings.rows) :
    (pass.origin.onDisk row.filePath = true ∧ world.onDisk row.filePath = false) ↔
      row.id ∈ looked ∧ pass.unlinks row = true := by
  constructor
  · rintro ⟨hthere, hgone⟩
    have hnot : ¬ (pass.origin.onDisk row.filePath = true ∧ ∀ other ∈ pass.origin.recordings.rows,
        other.id ∈ looked → pass.unlinks other = true → other.filePath ≠ row.filePath) := by
      rw [← hlooked.onDisk, hgone]
      exact Bool.false_ne_true
    push Not at hnot
    obtain ⟨other, hother, hid, hunlinks, hpath⟩ := hnot hthere
    obtain rfl := RecordingTable.eq_of_filePath_eq hother hrow hpath
    exact ⟨hid, hunlinks⟩
  · rintro ⟨hid, hunlinks⟩
    refine ⟨(Bool.and_eq_true _ _ ▸ hunlinks).2, Bool.eq_false_iff.mpr fun hthere ↦ ?_⟩
    exact ((hlooked.onDisk _).mp hthere).2 row hrow hid hunlinks rfl

/-- No other file is gone. -/
theorem Looked.catalogued_of_gone {looked : List RecordingId} {world : World}
    (hlooked : pass.Looked looked world) {path : Path} (hthere : pass.origin.onDisk path = true)
    (hgone : world.onDisk path = false) : ∃ row ∈ pass.origin.recordings.rows,
        row.filePath = path := by
  have hnot : ¬ (pass.origin.onDisk path = true ∧ ∀ other ∈ pass.origin.recordings.rows,
      other.id ∈ looked → pass.unlinks other = true → other.filePath ≠ path) := by
    rw [← hlooked.onDisk, hgone]
    exact Bool.false_ne_true
  push Not at hnot
  obtain ⟨row, hrow, -, -, hpath⟩ := hnot hthere
  exact ⟨row, hrow, hpath⟩

theorem order_nodup : pass.order.Nodup := order_ids_nodup.of_map _

/-- What was freed is the size of the files that are gone. -/
theorem Looked.freed {examined : List Recording} {world : World}
    (hlooked : pass.Looked (examined.map Recording.id) world)
    (hexamined : examined.Sublist pass.order) :
    totalBytes (examined.filter pass.unlinks) =
      totalBytes (pass.origin.recordings.rows.filter fun row ↦
        pass.origin.onDisk row.filePath && !world.onDisk row.filePath) := by
  have hrows : ∀ row ∈ examined, row ∈ pass.origin.recordings.rows := fun row hrow ↦
    (mem_passOrder.mp (hexamined.subset hrow)).1
  have hsame : (examined.filter pass.unlinks).Perm (pass.origin.recordings.rows.filter fun row ↦
      pass.origin.onDisk row.filePath && !world.onDisk row.filePath) := by
    refine (List.perm_ext_iff_of_nodup ((order_nodup.sublist hexamined).filter _)
      (pass.origin.recordings.ids_nodup.of_map.filter _)).mpr fun row ↦ ?_
    rw [List.mem_filter, List.mem_filter, Bool.and_eq_true, Bool.not_eq_true']
    constructor
    · rintro ⟨hrow, hunlinks⟩
      exact ⟨hrows row hrow,
        (hlooked.gone_iff (hrows row hrow)).mpr ⟨List.mem_map_of_mem hrow, hunlinks⟩⟩
    · rintro ⟨hrow, hgone⟩
      obtain ⟨hid, hunlinks⟩ := (hlooked.gone_iff hrow).mp hgone
      obtain ⟨other, hother, hotherId⟩ := List.mem_map.mp hid
      rw [← RecordingTable.eq_of_id_eq (hrows other hother) hrow hotherId] at hunlinks ⊢
      exact ⟨hother, hunlinks⟩
  exact totalBytes_eq_of_perm hsame

end PurgePass

/-! ### Passes that may run to their end -/

/-- A pass of `deleteOldestSegments` that is told to go on before every page, and has iterations
enough for its rows. -/
structure WholePass extends PurgePass where
  progress : PurgeProgress
  statuses_mem : statuses ∈ StorageController.passes purge.mode
  toldOn : ∀ taken, toPurgePass.goesOn taken = true
  few : toPurgePass.order.length ≤ controller.maxIterations * controller.batchSize
  flag : progress.allRemainingProtected = false

namespace WholePass

variable (whole : WholePass)

/-- The pass as `purgePasses` makes it, with the batches that `retention.deletable` is asked
about. -/
def run (ledger : PurgeLedger) :
    Except Failure ((Bool × PurgeProgress) × List (List Recording)) × World × PurgeLedger :=
  eval (withLedger answer notePurge) (rolling whole.refusals whole.readings)
    (whole.controller.examinedPass (whole.purge.opts whole.controller) whole.statuses
      whole.controller.maxIterations { whole.progress with skip := 0 }) (whole.origin, ledger)

/-- Every row that the pass has before it when it begins is asked about exactly once, and what the
pass has freed is the size of the files that it unlinked. -/
def ExaminesEachOnce : Prop :=
  ∀ ledger, ∃ returned progress batches reached later,
    whole.run ledger = (.ok ((returned, progress), batches), reached, later) ∧
      (∀ row ∈ whole.origin.recordings.rows, isInPass whole.statuses row = true →
        (batches.flatten.map Recording.id).count row.id = 1) ∧
      progress.freedBytes = whole.progress.freedBytes +
        totalBytes (whole.origin.recordings.rows.filter fun row ↦
          whole.origin.onDisk row.filePath && !reached.onDisk row.filePath) ∧
      ∀ path, whole.origin.onDisk path = true → reached.onDisk path = false →
        ∃ row ∈ whole.origin.recordings.rows, row.filePath = path

/-- The pass goes over all segments, or is refused no file before the last page of its order. -/
def RefusedOnlyLast : Prop :=
  whole.statuses = none ∨ LosesLast whole.controller.batchSize whole.spoils whole.order

variable {whole}

/-- Only in a pass over all segments does a refused segment stay in the order. -/
theorem refusedOnlyLast_iff :
    whole.RefusedOnlyLast ↔ LosesLast whole.controller.batchSize whole.loses whole.order := by
  have hstatuses : whole.statuses = none ∨ whole.statuses = some [.quarantined] := by
    have hmem := whole.statuses_mem
    cases hmode : whole.purge.mode <;> simp [hmode, StorageController.passes] at hmem
    · exact Or.inl hmem
    · exact hmem.symm
  rcases hstatuses with hall | hquarantined
  · exact iff_of_true (Or.inl hall) (losesLast_of_forall (PurgePass.loses_eq_false hall))
  · rw [RefusedOnlyLast, PurgePass.loses_eq_spoils hquarantined, hquarantined]
    exact or_iff_right (Option.some_ne_none _)

/-- What a whole pass does: it looks at the pages of its order. -/
theorem run_eq (whole : WholePass) (ledger : PurgeLedger) :
    ∃ progress reached later, whole.run ledger =
      (.ok ((false, progress), pages whole.controller.batchSize
        whole.loses whole.controller.maxIterations 0 whole.order), reached, later) ∧
      whole.Looked ((pages whole.controller.batchSize whole.loses whole.controller.maxIterations 0
        whole.order).flatten.map Recording.id) reached ∧
      progress.freedBytes = whole.progress.freedBytes +
        totalBytes ((pages whole.controller.batchSize whole.loses whole.controller.maxIterations 0
          whole.order).flatten.filter whole.unlinks) := by
  obtain ⟨⟨⟨returned, progress⟩, batches⟩, ⟨reached, later⟩, heval, hends⟩ :=
    whole.eval_examinedPass whole.flag ledger
  have hbatches := hends.batches
  rw [heeded_of_forall whole.toldOn] at hbatches
  have htold := hends.told
  rw [hbatches, decide_eq_false (lt_irrefl _)] at htold
  simp only at hbatches htold
  subst hbatches htold
  exact ⟨progress, reached, later, heval, hends.looked, hends.freedBytes⟩

/-- A pass that is refused a file before its last page leaves a row out. -/
theorem not_examinesEachOnce (hrefused : ¬ whole.RefusedOnlyLast) : ¬ whole.ExaminesEachOnce := by
  intro hexamines
  rw [refusedOnlyLast_iff] at hrefused
  obtain ⟨returned, progress, batches, reached, later, heval, hall, -⟩ := hexamines {}
  obtain ⟨_, _, _, heval', -⟩ := whole.run_eq {}
  rw [heval, Prod.mk.injEq, Except.ok.injEq, Prod.mk.injEq] at heval'
  obtain ⟨row, hrow, hpassed⟩ := exists_not_mem_pages whole.controller.maxIterations
    PurgePass.order_nodup hrefused
  obtain ⟨hstored, hin⟩ := mem_passOrder.mp hrow
  have hexamined : row.id ∈ batches.flatten.map Recording.id :=
    List.count_pos_iff.mp (hall row hstored hin ▸ Nat.one_pos)
  obtain ⟨other, hother, hsame⟩ := List.mem_map.mp hexamined
  rw [heval'.1.2] at hother
  have hotherStored := (mem_passOrder.mp ((pages_sublist _ _ _).subset hother)).1
  exact hpassed (RecordingTable.eq_of_id_eq hotherStored hstored hsame ▸ hother)

def quarantinedSegment (number : ℕ) : Recording :=
  { numberedSegment number with status := .quarantined }

/-- One quarantined segment more than a page holds. -/
def crowdedYard : World where
  recordings :=
    { rows := (List.range 51).map quarantinedSegment
      nextId := 51
      ids_nodup := by
        rw [List.map_map]
        exact (List.map_id _).symm ▸ List.nodup_range
      paths_nodup := by
        rw [List.map_map]
        exact List.nodup_range.map fun _ _ hsame ↦ numberedSegment_filePath_inj hsame
      ids_lt := by
        intro row hrow
        obtain ⟨number, hnumber, rfl⟩ := List.mem_map.mp hrow
        exact List.mem_range.mp hnumber }
  files := (List.range 51).map fun number ↦
    { path := (numberedSegment number).filePath, size := 100, mtimeMs := number }

/-- The pass over them, when the oldest may not be unlinked. -/
def crowdedPass : PurgePass where
  controller := { recordingsRoot := ["rec"] }
  purge := .capacity
  statuses := some [.quarantined]
  refusals := fun _ path ↦
    if path = (numberedSegment 0).filePath then some { code := .eperm, message := "EPERM" } else
      none
  readings := fun _ ↦ fullDisk
  origin := crowdedYard

theorem order_crowded : crowdedPass.order = (List.range 51).map quarantinedSegment := by
  have hall : crowdedYard.recordings.rows.filter (isInPass (some [.quarantined])) =
      crowdedYard.recordings.rows := by
    refine List.filter_eq_self.mpr fun row hrow ↦ ?_
    obtain ⟨number, -, rfl⟩ := List.mem_map.mp hrow
    rfl
  show passOrder (some [.quarantined]) crowdedYard.recordings.rows = _
  rw [passOrder, hall]
  refine List.Pairwise.insertionSort_eq ?_
  show ((List.range 51).map quarantinedSegment).Pairwise _
  rw [List.pairwise_map]
  refine List.pairwise_lt_range.imp fun {first second} hlt ↦ ?_
  show (first : ℤ) ≤ second
  omega

def crowdedWhole : WholePass where
  toPurgePass := crowdedPass
  progress := {}
  statuses_mem := List.mem_cons_self
  toldOn := fun _ ↦ (by decide : decide (80 < usedPercentBy fullDisk) = true)
  few := by
    rw [order_crowded, List.length_map, List.length_range]
    decide
  flag := rfl

end WholePass

end VmsLite.Recordings
