import VmsLite.Recordings.ExpiryReach

/-!
# Footage that no pass deletes

What becomes of one segment while the engine passes over the catalogue: the motion buffer expires,
the periodic purge runs within the segment's INCIDENT lifetime, and anything else happens that
leaves the segment alone. It stands through all of that exactly when it is not buffered and is an
INCIDENT segment or on legal hold (`keptFrom_iff`). A purge by an age of its own, which an operator
asks for, is no such pass.
-/

set_option autoImplicit false

namespace VmsLite.Recordings

open VmsLite.Async Program

/-- A row as it is, and its file on the disk. -/
def Standing (row : Recording) (world : World) : Prop :=
  row ∈ world.recordings.rows ∧ world.onDisk row.filePath = true

/-- The worlds after some passes, their calls failing or not, and after anything else that leaves a
row standing. The purges run while the row is within its INCIDENT lifetime. -/
inductive Later (row : Recording) (world : World) : World → Prop
  | now : Later row world world
  | meanwhile {reached after : World} (hlater : Later row world reached)
      (hstands : Standing row reached → Standing row after) : Later row world after
  | expiry {reached : World} (ingest : SegmentIngest) (outcomes : Call → World → Outcome)
      (hlater : Later row world reached) :
      Later row world (eval answer outcomes ingest.expireBufferedSegments reached).2
  | ageing {reached : World} (controller : StorageController) (outcomes : Call → World → Outcome)
      (hlater : Later row world reached)
      (hinTime : reached.now ≤ row.startTime + controller.retention.getDays.incident * dayMs) :
      Later row world (eval answer outcomes controller.purgeRetention reached).2

/-- No pass deletes the row, from a world on. -/
def KeptFrom (row : Recording) (world : World) : Prop :=
  ∀ later, Later row world later → Standing row later

/-- A row that neither the motion buffer nor, within its INCIDENT lifetime, its age can delete. -/
def IsEvidence (row : Recording) : Prop :=
  row.status ≠ .buffered ∧
    (row.retentionTier = .incident ∨ RetentionPolicy.isLegalHold row = true)

variable {row : Recording} {world : World}

theorem LeavesAlone.standing {touched : Recording → Prop} {after : World}
    (h : LeavesAlone touched world after) (hnot : ¬ touched row) (hstands : Standing row world) :
    Standing row after := by
  obtain ⟨hrow, hdisk⟩ := h.kept row hstands.1 hnot
  exact ⟨hrow, hdisk hstands.2⟩

theorem Gone.not_standing (hgone : Gone row world) : ¬ Standing row world :=
  fun hstands ↦ hgone row hstands.1 rfl

/-- The policy keeps evidence within its INCIDENT lifetime. -/
theorem IsEvidence.mayDelete (hevidence : IsEvidence row) (policy : RetentionPolicy)
    (hinTime : world.now ≤ row.startTime + policy.getDays.incident * dayMs) :
    policy.mayDelete world .age none row = false := by
  obtain ⟨-, htier | hhold⟩ := hevidence
  · have hlifetime : policy.lifetimeMs none row = policy.getDays.incident * dayMs := by
      unfold RetentionPolicy.lifetimeMs
      rw [htier]
      rfl
    have hyoung : ¬ row.startTime < world.now - policy.lifetimeMs none row := by
      rw [hlifetime]
      omega
    simp [RetentionPolicy.mayDelete, RetentionPolicy.isDue, hyoung]
  · simp [RetentionPolicy.mayDelete, RetentionPolicy.isDue, hhold]

/-- Every pass leaves evidence standing. -/
theorem IsEvidence.keptFrom (hevidence : IsEvidence row) (hstands : Standing row world) :
    KeptFrom row world := by
  intro later hlater
  induction hlater with
  | now => exact hstands
  | meanwhile hlater hmeanwhile ih => exact hmeanwhile ih
  | @expiry reached ingest outcomes hlater ih =>
    obtain ⟨halone, -⟩ := expireBufferedSegments_spec outcomes ingest reached
    refine halone.standing ?_ ih
    rintro ⟨hpage, -⟩
    exact hevidence.1 (mem_bufferedPage hpage).2
  | @ageing reached controller outcomes hlater hinTime ih =>
    obtain ⟨halone, -⟩ := purgeRetention_spec outcomes controller none reached
    refine halone.standing ?_ ih
    rintro ⟨⟨hmay, -⟩, -⟩
    rw [hevidence.mayDelete controller.retention hinTime] at hmay
    contradiction

/-! ### What is not evidence -/

/-- A world whose one segment is a row, at an instant. -/
def onlyRow (row : Recording) (now : ℤ) : World where
  recordings :=
    { rows := [row]
      nextId := row.id + 1
      ids_nodup := List.nodup_singleton _
      paths_nodup := List.nodup_singleton _
      ids_lt := by simp }
  files := [{ path := row.filePath, size := row.sizeBytes, mtimeMs := row.endTime }]
  now := now

theorem standing_onlyRow (row : Recording) (now : ℤ) : Standing row (onlyRow row now) :=
  ⟨List.mem_singleton_self _, World.onDisk_iff.mpr ⟨_, List.mem_singleton_self _, rfl⟩⟩

theorem isWithinRoot_nil (path : Path) : isWithinRoot [] path = true := rfl

/-- The motion buffer can expire a buffered row. -/
theorem not_keptFrom_of_buffered (hbuffered : row.status = .buffered) : ¬ KeptFrom row world := by
  let ingest : SegmentIngest := { recordingsRoot := [] }
  let now := row.endTime + (ingest.preBufferSeconds + ingest.lateMotionGraceSeconds) * 1000 + 1
  intro hkept
  have hlater : Later row world (onlyRow row now) :=
    Later.now.meanwhile fun _ ↦ standing_onlyRow row now
  obtain ⟨-, hgone⟩ := expireBufferedSegments_spec calm ingest (onlyRow row now)
  refine (hgone rfl row ?_ ⟨?_, isWithinRoot_nil _⟩).not_standing
    (hkept _ (hlater.expiry ingest calm))
  · have hpage : bufferedPage (onlyRow row now) = [row] := by
      simp [bufferedPage, RecordingTable.findRecordingsByStatus, onlyRow, oldestFirst, hbuffered,
        maxBufferedScan]
    rw [hpage]
    exact List.mem_singleton_self _
  · simp only [SegmentIngest.expiryCutoff, onlyRow, now]
    omega

/-- By its age the purge can delete a row that is neither an INCIDENT segment nor held, before its
INCIDENT lifetime is over. -/
theorem not_keptFrom_of_unheld (hbuffered : row.status ≠ .buffered)
    (htier : row.retentionTier ≠ .incident) (hhold : RetentionPolicy.isLegalHold row = false) :
    ¬ KeptFrom row world := by
  let controller : StorageController := { recordingsRoot := [] }
  let now := row.startTime + controller.retention.getDays.event * dayMs + 1
  intro hkept
  have hlater : Later row world (onlyRow row now) :=
    Later.now.meanwhile fun _ ↦ standing_onlyRow row now
  have hinTime : (onlyRow row now).now ≤
      row.startTime + controller.retention.getDays.incident * dayMs := by
    have hdays : controller.retention.getDays.event * dayMs + 1 ≤
        controller.retention.getDays.incident * dayMs := by decide
    simp only [onlyRow, now]
    omega
  obtain ⟨-, hgone⟩ := purgeRetention_spec calm controller none (onlyRow row now)
  refine (hgone rfl row ?_ ⟨?_, isWithinRoot_nil _⟩).not_standing
    (hkept _ (hlater.ageing controller calm hinTime))
  · have horder : passOrder none (onlyRow row now).recordings.rows = [row] := rfl
    have hreach : 0 < controller.maxIterations * controller.batchSize := by decide
    rw [horder, List.take_of_length_le hreach]
    exact List.mem_singleton_self _
  · have hlifetime : controller.retention.lifetimeMs none row ≤
        controller.retention.getDays.event * dayMs := by
      unfold RetentionPolicy.lifetimeMs
      cases htiers : row.retentionTier with
      | incident => exact absurd htiers htier
      | continuous => decide
      | event => decide
      | protectedTier => decide
    have hold : row.startTime <
        (onlyRow row now).now - controller.retention.lifetimeMs none row := by
      simp only [onlyRow, now]
      omega
    have hfree : controller.retention.holds (onlyRow row now) = [] := rfl
    unfold RetentionPolicy.mayDelete RetentionPolicy.isDue
    rw [hfree]
    simp [hbuffered, hhold, hold, RetentionPolicy.overlapsAny]

/-- What stands through every pass is evidence, and nothing else is. -/
theorem keptFrom_iff (hstands : Standing row world) : KeptFrom row world ↔ IsEvidence row := by
  constructor
  · intro hkept
    by_contra hnot
    by_cases hbuffered : row.status = .buffered
    · exact not_keptFrom_of_buffered hbuffered hkept
    · obtain ⟨htier, hhold⟩ := not_or.mp fun hheld ↦ hnot ⟨hbuffered, hheld⟩
      exact not_keptFrom_of_unheld hbuffered htier (Bool.not_eq_true _ ▸ hhold) hkept
  · intro hevidence
    exact hevidence.keptFrom hstands

end VmsLite.Recordings
