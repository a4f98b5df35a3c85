import VmsLite.Recordings.PassOutcome

/-!
# The exhaustion alarm

The end of a rollover, from its purge on, over any catalogue, any refusals and any readings. What
the purge removes is a matter of the pages that its two passes look at (`removes`), and whether it
reports the protected overflow is a matter of how the second pass ends. The alarm is to be exact:
above the target it goes off just when footage remains and all of it is on hold. It is not
(`alarmIsExact_iff`). A purge that comes to its end also reports footage that is only buffered,
outside the root or refused, and one that does not come to its end reports nothing, though all that
remains may be on hold.
-/

set_option autoImplicit false

namespace VmsLite.Recordings

open VmsLite.Async Program Paging

/-! ### Holds -/

namespace RetentionPolicy

variable (policy : RetentionPolicy)

/-- Whether a segment is on hold: protected, bookmarked or in an active export. -/
def onHold (world : World) (row : Recording) : Bool :=
  isLegalHold row || overlapsAny row (policy.holds world)

variable {policy}

theorem not_onHold_of_mayDelete {world : World} {mode : PurgeMode} {overrideDays : Option ℤ}
    {row : Recording} (hmay : policy.mayDelete world mode overrideDays row = true) :
    policy.onHold world row = false := by
  simp only [mayDelete, isDue, Bool.and_eq_true, Bool.not_eq_true'] at hmay
  simp [onHold, hmay.1.1.2, hmay.2]

end RetentionPolicy

namespace StorageController

variable (controller : StorageController)

/-- A rollover from its purge on, once pending deletions are reconciled. -/
def rolloverPurge (initialMetrics : StorageMetrics) : Async StorageCleanupResult := do
  let usedPercentBefore := initialMetrics.usedPercent
  let purged ← controller.purgeCapacity
  let currentMetrics ← controller.getStorageMetrics
  let usedPercentAfter := currentMetrics.usedPercent
  let () ← emitSome
    (if purged.allRemainingProtected && controller.targetThresholdPercent < usedPercentAfter then
      some (.exhaustionRisk usedPercentAfter controller.targetThresholdPercent
        currentMetrics.protectedBytes)
    else none)
  let () ← call (.emitEvent (.rollover purged.deletedSegmentsCount purged.freedBytes
    usedPercentBefore usedPercentAfter controller.targetThresholdPercent))
  pure
    { status := .critical
      triggered := true
      usedPercentBefore
      usedPercentAfter
      deletedSegmentsCount := purged.deletedSegmentsCount
      freedBytes := purged.freedBytes
      metrics := currentMetrics
      protectedOverflow := purged.allRemainingProtected }

end StorageController

/-! ### What a purge by capacity removes -/

/-- A purge by capacity that begins in a world. -/
structure CapacityPurge where
  controller : StorageController
  refusals : Option (List SegmentStatus) → Path → Option Failure
  readings : ℕ → DiskStats
  world : World

namespace CapacityPurge

variable (purge : CapacityPurge)

/-- A pass of the purge that begins in a world. -/
def passFrom (statuses : Option (List SegmentStatus)) (origin : World) : PurgePass where
  controller := purge.controller
  purge := .capacity
  statuses := statuses
  refusals := purge.refusals
  readings := purge.readings
  origin := origin

/-- The pass over the quarantined segments. -/
def firstPass : PurgePass := purge.passFrom (some [.quarantined]) purge.world

/-- What the second pass makes of a row, by the holds at the start. -/
def lastPass : PurgePass := purge.passFrom none purge.world

def firstPages : List (List Recording) :=
  pages purge.controller.batchSize purge.firstPass.loses purge.controller.maxIterations 0
    purge.firstPass.order

/-- The batches of the first pass. -/
def firstBatches : List (List Recording) := heeded purge.firstPass.goesOn 1 0 purge.firstPages

def firstLooked : List RecordingId := purge.firstBatches.flatten.map Recording.id

/-- A reading stops the first pass. -/
def stopsFirst : Bool := purge.firstBatches.length < purge.firstPages.length

/-- The rows of the second pass, oldest first. -/
def lastOrder : List Recording := passOrder none (purge.firstPass.rowsAfter purge.firstLooked)

def lastPages : List (List Recording) :=
  if purge.stopsFirst then []
  else
    pages purge.controller.batchSize (fun _ ↦ false) purge.controller.maxIterations 0
      purge.lastOrder

/-- The batches of the second pass. -/
def lastBatches : List (List Recording) :=
  heeded purge.lastPass.goesOn 1 purge.firstBatches.length purge.lastPages

def lastLooked : List RecordingId := purge.lastBatches.flatten.map Recording.id

/-- A reading stops the second pass. -/
def stopsLast : Bool := purge.lastBatches.length < purge.lastPages.length

/-- The reading after the purge. -/
def finalPercent : ℕ :=
  usedPercentBy (purge.readings (purge.firstBatches.length + purge.lastBatches.length +
    if purge.stopsFirst || purge.stopsLast then 1 else 0))

/-- Every reading before a page is above the target, and the second pass ends within its
iterations. -/
def ComesToItsEnd : Prop :=
  purge.stopsFirst = false ∧ purge.stopsLast = false ∧
    ComesToEnd purge.controller.batchSize purge.lastPass.deletes purge.controller.maxIterations
      purge.lastOrder

/-- The segments that the purge removes: a pass looks at them and can delete them. -/
def removes (row : Recording) : Bool :=
  decide (row.id ∈ purge.firstLooked) && purge.firstPass.deletes row ||
    decide (row.id ∈ purge.lastLooked) && purge.lastPass.deletes row

/-- Whether a segment is on hold when the purge begins. -/
def holds (row : Recording) : Bool := purge.controller.retention.onHold purge.world row

variable {purge}

theorem holds_afterLook (looked : List RecordingId) (statuses : Option (List SegmentStatus))
    (origin : World) (row : Recording) :
    purge.holds ((purge.passFrom statuses origin).afterLook looked row) = purge.holds row := by
  unfold PurgePass.afterLook PurgePass.spoiledRow
  split_ifs
  · split <;> rfl
  · rfl

/-- A row that the first pass could not delete is as deletable as it was. -/
theorem deletes_afterLook (looked : List RecordingId) (row : Recording) :
    purge.lastPass.deletes (purge.firstPass.afterLook looked row) = purge.lastPass.deletes row := by
  unfold PurgePass.afterLook
  split_ifs with hlooked
  · have hspoils := hlooked.2
    have hmay : purge.lastPass.mayGo row = true := ((Bool.and_eq_true _ _).mp hspoils).1
    have hspoiledMay : purge.lastPass.mayGo (purge.firstPass.spoiledRow row) = true := by
      unfold PurgePass.spoiledRow
      split
      · simp only [PurgePass.mayGo, lastPass, passFrom, Purge.deletable, RetentionPolicy.mayDelete,
          RetentionPolicy.isDue, Bool.and_eq_true] at hmay ⊢
        exact ⟨⟨⟨⟨rfl, hmay.1.1.1.2⟩, hmay.1.1.2⟩, hmay.1.2⟩, hmay.2⟩
      · exact hmay
    have hrefuses : purge.lastPass.refuses (purge.firstPass.spoiledRow row) =
        purge.lastPass.refuses row := by
      unfold PurgePass.spoiledRow
      split <;> rfl
    rw [PurgePass.deletes, PurgePass.deletes, hmay, hspoiledMay, hrefuses]
  · rfl

theorem not_holds_of_deletes {statuses : Option (List SegmentStatus)} {row : Recording}
    (hdeletes : (purge.passFrom statuses purge.world).deletes row = true) :
        purge.holds row = false := by
  have hmay := ((Bool.and_eq_true _ _).mp ((Bool.and_eq_true _ _).mp hdeletes).1).1
  exact RetentionPolicy.not_onHold_of_mayDelete hmay

/-! ### How the purge ends -/

variable (purge) in
/-- How the first pass ends. -/
theorem eval_firstPass :
    ∃ progress reached, eval (withLedger answer notePurge) (rolling purge.refusals purge.readings)
        (purge.controller.purgePass (Purge.capacity.opts purge.controller) (some [.quarantined])
          purge.controller.maxIterations {}) (purge.world, {}) =
            (.ok (purge.stopsFirst, progress), reached) ∧
      progress.allRemainingProtected = false ∧ purge.firstPass.Looked purge.firstLooked reached.1 ∧
      reached.2.taken = purge.firstBatches.length + if purge.stopsFirst then 1 else 0 := by
  obtain ⟨⟨⟨returned, progress⟩, batches⟩, reached, heval, hends⟩ :=
    purge.firstPass.eval_examinedPass (show ({} : PurgeProgress).allRemainingProtected =
      false from rfl)
      {}
  have hbatches : batches = purge.firstBatches := hends.batches
  have htold : returned = purge.stopsFirst := by
    rw [stopsFirst, ← hbatches]
    exact hends.told
  have hflag : progress.allRemainingProtected = false := hends.notHeld (Option.some_ne_none _)
  subst hbatches htold
  refine ⟨progress, reached, PurgePass.eval_purgePass_of_examined heval, hflag, hends.looked, ?_⟩
  rw [hends.asked]
  exact (Nat.zero_add _).trans (Nat.one_mul _)

/-- What the second pass works on is what the first has left. -/
theorem order_passFrom {world : World} (hlooked : purge.firstPass.Looked purge.firstLooked world) :
    (purge.passFrom none world).order = purge.lastOrder := by
  unfold PurgePass.order lastOrder
  rw [← hlooked.rows]
  rfl

theorem deletes_passFrom {world : World}
    (hlooked : purge.firstPass.Looked purge.firstLooked world) :
    (purge.passFrom none world).deletes = purge.lastPass.deletes := by
  have hsame : Purge.capacity.deletable purge.controller world =
      Purge.capacity.deletable purge.controller purge.world := hlooked.deletable_eq
  funext row
  simp only [PurgePass.deletes, PurgePass.mayGo, PurgePass.refuses, PurgePass.refusal, passFrom,
    lastPass, hsame]

/-- How the second pass ends, when no reading stops the first. -/
theorem eval_lastPass (hgoesOn : purge.stopsFirst = false) {world : World}
    (hlooked : purge.firstPass.Looked purge.firstLooked world) {progress : PurgeProgress}
    (hflag : progress.allRemainingProtected = false) {ledger : PurgeLedger}
    (htaken : ledger.taken = purge.firstBatches.length) :
    ∃ progress' reached, eval (withLedger answer notePurge) (rolling purge.refusals purge.readings)
        (purge.controller.purgePass (Purge.capacity.opts purge.controller) none
          purge.controller.maxIterations { progress with skip := 0 }) (world, ledger) =
            (.ok (purge.stopsLast, progress'), reached) ∧
      (progress'.allRemainingProtected = true ↔ purge.ComesToItsEnd ∧
        ∃ row ∈ purge.lastOrder, purge.lastPass.deletes row = false) ∧
      (purge.passFrom none world).Looked purge.lastLooked reached.1 ∧
      reached.2.taken = purge.firstBatches.length + purge.lastBatches.length +
        if purge.stopsLast then 1 else 0 := by
  obtain ⟨⟨⟨returned, progress'⟩, batches⟩, reached, heval, hends⟩ :=
    (purge.passFrom none world).eval_examinedPass hflag ledger
  have hloses : (purge.passFrom none world).loses = fun _ ↦ false :=
    funext (PurgePass.loses_eq_false rfl)
  have hpages : pages purge.controller.batchSize (purge.passFrom none world).loses
      purge.controller.maxIterations 0 (purge.passFrom none world).order = purge.lastPages := by
    rw [hloses, order_passFrom hlooked, lastPages, hgoesOn, if_neg Bool.false_ne_true]
  have hbatches : batches = purge.lastBatches := by
    have hheeded := hends.batches
    rw [htaken] at hheeded
    exact hheeded.trans (congrArg (heeded purge.lastPass.goesOn 1 purge.firstBatches.length) hpages)
  have htold : returned = purge.stopsLast := by
    rw [stopsLast, ← hbatches, ← hpages]
    exact hends.told
  have hheld : progress'.allRemainingProtected = true ↔ returned = false ∧
      ComesToEnd purge.controller.batchSize (purge.passFrom none world).deletes
        purge.controller.maxIterations (purge.passFrom none world).order ∧
      (0 < 0 ∨ ∃ row ∈ (purge.passFrom none world).order,
        (purge.passFrom none world).deletes row = false) := hends.held rfl
  rw [order_passFrom hlooked, deletes_passFrom hlooked, or_iff_right (lt_irrefl 0)] at hheld
  subst hbatches htold
  refine ⟨progress', reached, PurgePass.eval_purgePass_of_examined heval, ?_, hends.looked, ?_⟩
  · rw [hheld, ComesToItsEnd, hgoesOn, ← and_assoc, ← and_assoc, eq_self_iff_true,
      true_and, and_assoc]
  · rw [hends.asked, htaken, Nat.add_assoc]
    exact congrArg (purge.firstBatches.length + ·) (Nat.one_mul _)

variable (purge) in
/-- What the purge leaves behind: the rows that it does not remove, and the flag. -/
structure Leaves (purged : PurgeProgress) (reached : World × PurgeLedger) : Prop where
  flag : purged.allRemainingProtected = true ↔
    purge.ComesToItsEnd ∧ ∃ row ∈ purge.lastOrder, purge.lastPass.deletes row = false
  bookmarks : reached.1.bookmarks = purge.world.bookmarks
  exportJobs : reached.1.exportJobs = purge.world.exportJobs
  kept : ∀ row ∈ reached.1.recordings.rows,
    ∃ old ∈ purge.world.recordings.rows, purge.removes old = false ∧ purge.holds row =
      purge.holds old
  stays : ∀ old ∈ purge.world.recordings.rows, purge.removes old = false →
    ∃ row ∈ reached.1.recordings.rows, purge.holds row = purge.holds old
  riskCount : riskCount reached.1 = riskCount purge.world
  taken : purge.finalPercent = usedPercentBy (purge.readings reached.2.taken)

/-- What a purge leaves behind that a reading stops in its first pass. -/
theorem leaves_of_stopsFirst (hstops : purge.stopsFirst = true) {progress : PurgeProgress}
    (hflag : progress.allRemainingProtected = false) {reached : World × PurgeLedger}
    (hlooked : purge.firstPass.Looked purge.firstLooked reached.1)
    (htaken : reached.2.taken = purge.firstBatches.length + 1) : purge.Leaves progress reached := by
  have hbatches : purge.lastBatches = [] := by
    rw [lastBatches, lastPages, if_pos hstops, heeded]
  have hremoves : ∀ row, purge.removes row =
      (decide (row.id ∈ purge.firstLooked) && purge.firstPass.deletes row) := by
    intro row
    simp [removes, lastLooked, hbatches]
  refine
    { flag := ?_
      bookmarks := hlooked.bookmarks
      exportJobs := hlooked.exportJobs
      kept := fun row hrow ↦ ?_
      stays := fun old hold hkept ↦ ?_
      riskCount := hlooked.riskCount
      taken := ?_ }
  · simp [hflag, ComesToItsEnd, hstops]
  · obtain ⟨old, hold, hkept, rfl⟩ := PurgePass.mem_rowsAfter_iff.mp (hlooked.rows ▸ hrow)
    exact ⟨old, hold, (hremoves old).trans hkept, holds_afterLook _ _ _ old⟩
  · refine ⟨purge.firstPass.afterLook purge.firstLooked old, ?_, holds_afterLook _ _ _ old⟩
    rw [hlooked.rows]
    exact PurgePass.mem_rowsAfter_iff.mpr ⟨old, hold, (hremoves old).symm.trans hkept, rfl⟩
  · rw [finalPercent, hbatches, hstops, htaken]
    rfl

/-- What a purge leaves behind after its second pass. -/
theorem leaves_of_lastPass (hstops : purge.stopsFirst = false) {world : World}
    (hfirst : purge.firstPass.Looked purge.firstLooked world) {progress : PurgeProgress}
    (hflag : progress.allRemainingProtected = true ↔ purge.ComesToItsEnd ∧
      ∃ row ∈ purge.lastOrder, purge.lastPass.deletes row = false) {reached : World × PurgeLedger}
    (hlast : (purge.passFrom none world).Looked purge.lastLooked reached.1)
    (htaken : reached.2.taken = purge.firstBatches.length + purge.lastBatches.length +
      if purge.stopsLast then 1 else 0) : purge.Leaves progress reached := by
  have hremoves : ∀ old, purge.removes old =
      ((decide (old.id ∈ purge.firstLooked) && purge.firstPass.deletes old) ||
        (decide ((purge.firstPass.afterLook purge.firstLooked old).id ∈ purge.lastLooked) &&
          (purge.passFrom none world).deletes
              (purge.firstPass.afterLook purge.firstLooked old))) := by
    intro old
    rw [deletes_passFrom hfirst, deletes_afterLook, PurgePass.afterLook_id, removes]
  refine
    { flag := hflag
      bookmarks := hlast.bookmarks.trans hfirst.bookmarks
      exportJobs := hlast.exportJobs.trans hfirst.exportJobs
      kept := fun row hrow ↦ ?_
      stays := fun old hold hkept ↦ ?_
      riskCount := hlast.riskCount.trans hfirst.riskCount
      taken := ?_ }
  · obtain ⟨middle, hmiddle, hkeptLast, rfl⟩ := PurgePass.mem_rowsAfter_iff.mp (hlast.rows ▸ hrow)
    obtain ⟨old, hold, hkeptFirst, rfl⟩ := PurgePass.mem_rowsAfter_iff.mp (hfirst.rows ▸ hmiddle)
    refine ⟨old, hold, ?_, ?_⟩
    · rw [hremoves, hkeptFirst, hkeptLast, Bool.or_self]
    · rw [holds_afterLook]
      exact holds_afterLook _ _ _ old
  · rw [hremoves, Bool.or_eq_false_iff] at hkept
    have hmiddle : purge.firstPass.afterLook purge.firstLooked old ∈ world.recordings.rows := by
      rw [hfirst.rows]
      exact PurgePass.mem_rowsAfter_iff.mpr ⟨old, hold, hkept.1, rfl⟩
    refine ⟨(purge.passFrom none world).afterLook purge.lastLooked
      (purge.firstPass.afterLook purge.firstLooked old), ?_, ?_⟩
    · rw [hlast.rows]
      exact PurgePass.mem_rowsAfter_iff.mpr ⟨_, hmiddle, hkept.2, rfl⟩
    · rw [holds_afterLook]
      exact holds_afterLook _ _ _ old
  · rw [finalPercent, hstops, htaken, Bool.false_or]

variable (purge) in
/-- How a purge by capacity ends. -/
theorem eval_purgeCapacity :
    ∃ purged reached, eval (withLedger answer notePurge) (rolling purge.refusals purge.readings)
        purge.controller.purgeCapacity (purge.world, {}) = (.ok purged, reached) ∧
      purge.Leaves purged reached := by
  obtain ⟨first, ⟨world, ledger⟩, hfirst, hflag, hlooked, htaken⟩ := purge.eval_firstPass
  have hpasses : purge.controller.purgeCapacity = purge.controller.purgePasses
      (Purge.capacity.opts purge.controller) [some [.quarantined], none] {} := rfl
  rw [hpasses, StorageController.purgePasses, bind_eq, eval_bind_of_ok _ _ hfirst]
  cases hstops : purge.stopsFirst with
  | true =>
    rw [hstops] at htaken
    exact ⟨first, _, rfl, leaves_of_stopsFirst hstops hflag hlooked htaken⟩
  | false =>
    rw [hstops] at htaken
    obtain ⟨last, reached, hlast, hflagLast, hlookedLast, htakenLast⟩ :=
      eval_lastPass hstops hlooked hflag htaken
    refine ⟨last, reached, ?_, leaves_of_lastPass hstops hlooked hflagLast hlookedLast htakenLast⟩
    simp only [Bool.false_eq_true, if_false]
    rw [StorageController.purgePasses, bind_eq, eval_bind_of_ok _ _ hlast]
    cases purge.stopsLast <;> rfl

/-! ### The alarm -/

variable (purge) in
/-- The end of the rollover: its reading, its flag and its alarm. -/
structure Alarm (result : StorageCleanupResult) (reached : World) : Prop where
  usedPercentAfter : result.usedPercentAfter = purge.finalPercent
  flag : result.protectedOverflow = true ↔
    purge.ComesToItsEnd ∧ ∃ row ∈ purge.lastOrder, purge.lastPass.deletes row = false
  warnings : riskCount reached = riskCount purge.world +
    if result.protectedOverflow && purge.controller.targetThresholdPercent <
      purge.finalPercent then 1 else 0
  kept : ∀ row ∈ reached.recordings.rows, ∃ old ∈ purge.world.recordings.rows,
    purge.removes old = false ∧
    purge.controller.retention.onHold reached row = purge.holds old
  stays : ∀ old ∈ purge.world.recordings.rows, purge.removes old = false →
    ∃ row ∈ reached.recordings.rows, purge.controller.retention.onHold reached row = purge.holds old

variable (purge) in
theorem eval_emitSome_risk (event : Option BusEvent) (world : World) (ledger : PurgeLedger) :
    ∃ reached, eval (withLedger answer notePurge) (rolling purge.refusals purge.readings)
        (StorageController.emitSome event) (world, ledger) = (.ok (), reached, ledger) ∧
      Undisturbed world reached ∧
      Recordings.riskCount reached = Recordings.riskCount world +
        if event.any BusEvent.isExhaustionRisk then 1 else 0 := by
  cases event with
  | none => exact ⟨world, rfl, Undisturbed.refl world, rfl⟩
  | some event =>
    refine ⟨_, rfl, ⟨rfl, rfl, rfl, rfl, rfl, rfl, rfl, rfl⟩, ?_⟩
    simp [riskCount, answer, List.countP_append, List.countP_singleton]

variable (purge) in
/-- How a rollover ends. -/
theorem eval_rolloverPurge (initialMetrics : StorageMetrics) :
    ∃ result reached ledger,
      eval (withLedger answer notePurge) (rolling purge.refusals purge.readings)
        (purge.controller.rolloverPurge initialMetrics) (purge.world, {}) =
          (.ok result, reached, ledger) ∧
      purge.Alarm result reached := by
  obtain ⟨purged, ⟨world, ledger⟩, hpurged, hleaves⟩ := purge.eval_purgeCapacity
  obtain ⟨metrics, measured, hmetrics, hused, hmeasured, hrisk⟩ :=
    eval_getStorageMetrics_rolling purge.refusals purge.readings purge.controller world ledger
  unfold StorageController.rolloverPurge
  rw [bind_eq, eval_bind_of_ok _ _ hpurged, bind_eq, eval_bind_of_ok _ _ hmetrics]
  obtain ⟨warned, hwarned, hundisturbed, hriskWarned⟩ := purge.eval_emitSome_risk
    (if purged.allRemainingProtected &&
        purge.controller.targetThresholdPercent < metrics.usedPercent then
      some (.exhaustionRisk metrics.usedPercent purge.controller.targetThresholdPercent
        metrics.protectedBytes)
      else none) measured ledger.afterReading
  rw [bind_eq, eval_bind_of_ok _ _ hwarned]
  have hsame := hmeasured.trans hundisturbed
  have hfinal : metrics.usedPercent = purge.finalPercent := hused.trans hleaves.taken.symm
  have hbookmarks : warned.bookmarks = purge.world.bookmarks :=
    hsame.bookmarks.trans hleaves.bookmarks
  have hexports : warned.exportJobs = purge.world.exportJobs :=
    hsame.exportJobs.trans hleaves.exportJobs
  have hholds : ∀ row, purge.controller.retention.onHold warned row = purge.holds row := by
    intro row
    simp only [RetentionPolicy.onHold, RetentionPolicy.holds, holds, hbookmarks, hexports]
  have hrows : warned.recordings.rows = world.recordings.rows :=
    congrArg RecordingTable.rows hsame.recordings
  refine ⟨_, _, _, rfl, hfinal, hleaves.flag, ?_, fun row hrow ↦ ?_, fun old hold hkept ↦ ?_⟩
  · have hcount : Recordings.riskCount { warned with emitted := warned.emitted ++
        [.rollover purged.deletedSegmentsCount purged.freedBytes initialMetrics.usedPercent
          metrics.usedPercent purge.controller.targetThresholdPercent] } =
              Recordings.riskCount warned := by
      simp [Recordings.riskCount, List.countP_append, BusEvent.isExhaustionRisk]
    refine hcount.trans (hriskWarned.trans ?_)
    rw [hrisk, hleaves.riskCount, hfinal]
    split_ifs <;> simp_all [BusEvent.isExhaustionRisk]
  · obtain ⟨old, hold, hkept, hsameHold⟩ := hleaves.kept row (hrows ▸ hrow)
    exact ⟨old, hold, hkept, (hholds row).trans hsameHold⟩
  · obtain ⟨row, hrow, hsameHold⟩ := hleaves.stays old hold hkept
    exact ⟨row, hrows ▸ hrow, (hholds row).trans hsameHold⟩

variable (purge) in
/-- The alarm goes off just when footage remains and all of it is on hold, above the target; at or
below the target it does not go off. -/
def AlarmIsExact : Prop :=
  ∀ initialMetrics, ∃ result reached ledger,
    eval (withLedger answer notePurge) (rolling purge.refusals purge.readings)
        (purge.controller.rolloverPurge initialMetrics) (purge.world, {}) =
          (.ok result, reached, ledger) ∧
      (purge.controller.targetThresholdPercent < result.usedPercentAfter →
        ((result.protectedOverflow = true ∧ riskCount reached = riskCount purge.world + 1) ↔
          reached.recordings.rows ≠ [] ∧ ∀ row ∈ reached.recordings.rows,
            purge.controller.retention.onHold reached row = true)) ∧
      (result.usedPercentAfter ≤ purge.controller.targetThresholdPercent →
        riskCount reached = riskCount purge.world)

variable (purge) in
/-- The reading after the purge is not above the target; or the purge comes to its end and removes
what is not on hold; or it does not, and nothing is on hold, or something that is not on hold
stays. -/
def AlarmCondition : Prop :=
  purge.finalPercent ≤ purge.controller.targetThresholdPercent ∨
    (purge.ComesToItsEnd ∧
      ∀ row ∈ purge.world.recordings.rows, purge.holds row = false → purge.removes row = true) ∨
    (¬ purge.ComesToItsEnd ∧ ((∀ row ∈ purge.world.recordings.rows, purge.holds row = false) ∨
      ∃ row ∈ purge.world.recordings.rows, purge.holds row = false ∧ purge.removes row = false))

theorem removes_imp {row : Recording} (hremoves : purge.removes row = true) :
    purge.holds row = false := by
  simp only [removes, Bool.or_eq_true, Bool.and_eq_true] at hremoves
  rcases hremoves with ⟨-, hfirst⟩ | ⟨-, hlast⟩
  · exact not_holds_of_deletes hfirst
  · exact not_holds_of_deletes hlast

/-- When the purge comes to its end it looks at everything, so its flag says that something
remains. -/
theorem ComesToItsEnd.exists_iff (hcomes : purge.ComesToItsEnd) :
    (∃ row ∈ purge.lastOrder, purge.lastPass.deletes row = false) ↔
      ∃ row ∈ purge.world.recordings.rows, purge.removes row = false := by
  obtain ⟨hfirst, hlast, hend⟩ := hcomes
  have hbatches : purge.lastBatches = purge.lastPages := by
    exact (heeded_isPrefix _ _).eq_of_length_le (not_lt.mp (of_decide_eq_false hlast))
  have hlooked : purge.lastLooked = purge.lastOrder.map Recording.id := by
    rw [lastLooked, hbatches, lastPages, hfirst, if_neg Bool.false_ne_true,
      flatten_pages hend.length_le (losesLast_of_forall fun _ ↦ rfl)]
  constructor
  · rintro ⟨row, hrow, hdeletes⟩
    obtain ⟨old, hold, hkept, rfl⟩ := PurgePass.mem_rowsAfter_iff.mp (mem_passOrder.mp hrow).1
    rw [deletes_afterLook] at hdeletes
    exact ⟨old, hold, by rw [removes, hkept, hdeletes, Bool.and_false, Bool.or_self]⟩
  · rintro ⟨old, hold, hkept⟩
    rw [removes, Bool.or_eq_false_iff] at hkept
    have hordered : purge.firstPass.afterLook purge.firstLooked old ∈ purge.lastOrder :=
      mem_passOrder.mpr ⟨PurgePass.mem_rowsAfter_iff.mpr ⟨old, hold, hkept.1, rfl⟩, rfl⟩
    have hid : old.id ∈ purge.lastLooked := by
      rw [hlooked, ← @PurgePass.afterLook_id purge.firstPass purge.firstLooked old]
      exact List.mem_map_of_mem hordered
    refine ⟨_, hordered, ?_⟩
    rw [deletes_afterLook]
    simpa [hid] using hkept.2

/-- The alarm says that something remains and all of it is on hold. -/
theorem Alarm.allHeld_iff {result : StorageCleanupResult} {reached : World}
    (halarm : purge.Alarm result reached) :
    (reached.recordings.rows ≠ [] ∧ ∀ row ∈ reached.recordings.rows,
        purge.controller.retention.onHold reached row = true) ↔
      (∃ row ∈ purge.world.recordings.rows, purge.removes row = false) ∧
        ∀ row ∈ purge.world.recordings.rows, purge.removes row = false →
            purge.holds row = true := by
  constructor
  · rintro ⟨hremains, hheld⟩
    obtain ⟨row, hrow⟩ := List.exists_mem_of_ne_nil _ hremains
    obtain ⟨old, hold, hkept, -⟩ := halarm.kept row hrow
    refine ⟨⟨old, hold, hkept⟩, fun other hother hstays ↦ ?_⟩
    obtain ⟨left, hleft, hsame⟩ := halarm.stays other hother hstays
    exact hsame.symm.trans (hheld left hleft)
  · rintro ⟨⟨old, hold, hkept⟩, hheld⟩
    obtain ⟨row, hrow, -⟩ := halarm.stays old hold hkept
    refine ⟨List.ne_nil_of_mem hrow, fun left hleft ↦ ?_⟩
    obtain ⟨other, hother, hstays, hsame⟩ := halarm.kept left hleft
    exact hsame.trans (hheld other hother hstays)

/-- The alarm goes off rightly just on the condition, when the disk stays above the target. -/
theorem flag_iff_allHeld_iff (habove : purge.controller.targetThresholdPercent <
    purge.finalPercent) :
    ((purge.ComesToItsEnd ∧ ∃ row ∈ purge.lastOrder, purge.lastPass.deletes row = false) ↔
      (∃ row ∈ purge.world.recordings.rows, purge.removes row = false) ∧
        ∀ row ∈ purge.world.recordings.rows, purge.removes row = false → purge.holds row = true) ↔
      purge.AlarmCondition := by
  have hkept : ∀ row ∈ purge.world.recordings.rows, purge.holds row = true →
      purge.removes row = false :=
    fun row _ hholds ↦ Bool.eq_false_iff.mpr fun hremoves ↦
      Bool.false_ne_true ((removes_imp hremoves).symm.trans hholds)
  rw [AlarmCondition, or_iff_right (not_le.mpr habove)]
  by_cases hcomes : purge.ComesToItsEnd
  · simp only [hcomes, true_and, not_true_eq_false, false_and, or_false, hcomes.exists_iff]
    constructor
    · intro hflag row hrow hfree
      by_contra hstays
      have hremains := Bool.eq_false_iff.mpr hstays
      exact Bool.false_ne_true
        (hfree.symm.trans ((hflag.mp ⟨row, hrow, hremains⟩).2 row hrow hremains))
    · intro hclears
      refine ⟨fun hremains ↦ ⟨hremains, fun row hrow hstays ↦ ?_⟩, And.left⟩
      by_contra hfree
      exact Bool.false_ne_true (hstays.symm.trans (hclears row hrow (Bool.eq_false_iff.mpr hfree)))
  · simp only [hcomes, false_and, false_iff, not_false_eq_true, true_and, false_or]
    constructor
    · intro hquiet
      by_cases hsome : ∃ row ∈ purge.world.recordings.rows, purge.holds row = true
      · obtain ⟨row, hrow, hholds⟩ := hsome
        have hloose : ¬ ∀ row ∈ purge.world.recordings.rows, purge.removes row = false →
            purge.holds row = true := fun hall ↦ hquiet ⟨⟨row, hrow, hkept row hrow hholds⟩, hall⟩
        push Not at hloose
        obtain ⟨other, hother, hstays, hfree⟩ := hloose
        exact Or.inr ⟨other, hother, Bool.eq_false_iff.mpr hfree, hstays⟩
      · push Not at hsome
        exact Or.inl fun row hrow ↦ Bool.eq_false_iff.mpr (hsome row hrow)
    · rintro (hnone | ⟨other, hother, hfree, hstays⟩) ⟨⟨row, hrow, hkeptRow⟩, hall⟩
      · exact Bool.false_ne_true ((hnone row hrow).symm.trans (hall row hrow hkeptRow))
      · exact Bool.false_ne_true (hfree.symm.trans (hall other hother hstays))

/-- Of the way a rollover ends, the alarm is exact just on the condition. -/
theorem Alarm.exact_iff {result : StorageCleanupResult} {reached : World}
    (halarm : purge.Alarm result reached) :
    ((purge.controller.targetThresholdPercent < result.usedPercentAfter →
        ((result.protectedOverflow = true ∧ riskCount reached = riskCount purge.world + 1) ↔
          reached.recordings.rows ≠ [] ∧ ∀ row ∈ reached.recordings.rows,
            purge.controller.retention.onHold reached row = true)) ∧
      (result.usedPercentAfter ≤ purge.controller.targetThresholdPercent →
        riskCount reached = riskCount purge.world)) ↔ purge.AlarmCondition := by
  rw [halarm.usedPercentAfter]
  by_cases habove : purge.controller.targetThresholdPercent < purge.finalPercent
  · have hboth : (result.protectedOverflow = true ∧ riskCount reached = riskCount purge.world + 1) ↔
        result.protectedOverflow = true := by
      refine and_iff_left_of_imp fun hflag ↦ ?_
      rw [halarm.warnings, hflag, if_pos (by simpa using habove)]
    rw [← flag_iff_allHeld_iff habove, ← halarm.flag, ← halarm.allHeld_iff, hboth]
    exact ⟨fun hexact ↦ hexact.1 habove, fun hexact ↦ ⟨fun _ ↦ hexact, fun hbelow ↦
      absurd habove (not_lt.mpr hbelow)⟩⟩
  · refine iff_of_true ⟨fun habove' ↦ absurd habove' habove, fun _ ↦ ?_⟩ (Or.inl (not_lt.mp habove))
    rw [halarm.warnings, if_neg (by simp [habove]), Nat.add_zero]

theorem condition_of_alarmIsExact (hexact : purge.AlarmIsExact) : purge.AlarmCondition := by
  let initialMetrics := purge.controller.metricsOf false StorageController.noReading 0 none
  obtain ⟨result, reached, ledger, heval, hresult⟩ := hexact initialMetrics
  obtain ⟨result', reached', ledger', heval', halarm⟩ := purge.eval_rolloverPurge initialMetrics
  rw [heval', Prod.mk.injEq, Except.ok.injEq, Prod.mk.injEq] at heval
  obtain ⟨rfl, rfl, -⟩ := heval
  exact halarm.exact_iff.mp hresult

/-- The alarm is exact just on the condition. -/
theorem alarmIsExact_iff (purge : CapacityPurge) : purge.AlarmIsExact ↔ purge.AlarmCondition := by
  refine ⟨condition_of_alarmIsExact, fun hcondition initialMetrics ↦ ?_⟩
  obtain ⟨result, reached, ledger, heval, halarm⟩ := purge.eval_rolloverPurge initialMetrics
  exact ⟨result, reached, ledger, heval, halarm.exact_iff.mpr hcondition⟩

/-! ### Footage that waits for motion -/

/-- A segment of a camera that keeps footage on motion only. -/
def bufferedSegment : Recording := { numberedSegment 0 with status := .buffered }

/-- A full disk, where the only segment waits for motion. -/
def bufferedYard : CapacityPurge where
  controller := { recordingsRoot := ["rec"] }
  refusals := fun _ _ ↦ none
  readings := fun _ ↦ fullDisk
  world :=
    { recordings :=
        { rows := [bufferedSegment]
          nextId := 1
          ids_nodup := by decide
          paths_nodup := by decide
          ids_lt := by decide }
      files := [{ path := bufferedSegment.filePath, size := 100, mtimeMs := 0 }] }

/-- The alarm goes off, though nothing is on hold. -/
theorem not_alarmIsExact_bufferedYard : ¬ bufferedYard.AlarmIsExact := by
  intro hexact
  have hcomes : bufferedYard.ComesToItsEnd := ⟨by decide, by decide, Or.inl (by decide)⟩
  rcases condition_of_alarmIsExact hexact with hbelow | ⟨-, hclears⟩ | ⟨hstopped, -⟩
  · exact absurd hbelow (by decide)
  · exact absurd (hclears bufferedSegment List.mem_cons_self (by decide)) (by decide)
  · exact hstopped hcomes

end CapacityPurge

end VmsLite.Recordings
