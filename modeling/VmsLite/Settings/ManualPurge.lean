import VmsLite.Recordings.PurgeReach

/-!
# The manual purge of the settings

The settings service drives the storage controller: it hands the stored retention days to it as the
lifetime of continuous footage, and its `purgeStorage` runs the purge by age and the storage check
on demand. Without an override it still passes the retention days on as one, so the purge forgets
that events and incidents live longer; `deletesOnlyExpired_iff` says when that makes no difference.
Of the settings, the motion window, the mode and the weekly schedule are left out.
-/

set_option autoImplicit false

namespace VmsLite.Settings

open VmsLite.Async VmsLite.Recordings Program

structure OperationalSettings where
  retentionDays : ℤ := 15
  warningThresholdPercent : ℕ := 80
  criticalThresholdPercent : ℕ := 90
  deriving DecidableEq, Repr

/-- `Partial<OperationalSettings>`. -/
structure OperationalSettingsPatch where
  retentionDays : Option ℤ := none
  warningThresholdPercent : Option ℕ := none
  criticalThresholdPercent : Option ℕ := none

/-- `{ ...settings, ...patch }`. -/
def OperationalSettings.merge (settings : OperationalSettings) (patch : OperationalSettingsPatch) :
    OperationalSettings where
  retentionDays := patch.retentionDays.getD settings.retentionDays
  warningThresholdPercent := patch.warningThresholdPercent.getD settings.warningThresholdPercent
  criticalThresholdPercent := patch.criticalThresholdPercent.getD settings.criticalThresholdPercent

structure SettingsService where
  operationalSettings : OperationalSettings := {}
  engine : StorageController

structure StoragePurge where
  retentionPurge : PurgeProgress
  quotaCleanup : StorageCleanupResult
  metricsAfter : StorageMetrics

namespace SettingsService

variable (service : SettingsService)

def applyToEngine : SettingsService :=
  { service with
    engine := (service.engine.setRetentionDays
      service.operationalSettings.retentionDays).setThresholds
      service.operationalSettings.warningThresholdPercent
      service.operationalSettings.criticalThresholdPercent none none }

/-- Loads persisted operational settings; `none` when they cannot be read. -/
def load (stored : Option OperationalSettingsPatch) : SettingsService :=
  applyToEngine
    { service with operationalSettings := service.operationalSettings.merge (stored.getD {}) }

/-- Updates operational settings and syncs them with the engine. -/
def updateOperationalSettings (input : OperationalSettingsPatch) : SettingsService :=
  applyToEngine { service with operationalSettings := service.operationalSettings.merge input }

/-- The purge by retention days of `purgeStorage`. -/
def retentionPurge (overrideRetentionDays : Option ℤ) : Async PurgeProgress :=
  let days := overrideRetentionDays.getD service.operationalSettings.retentionDays
  service.engine.purgeRetention (some days)

/-- Runs storage cleanup honoring both retention days and FIFO quota thresholds. -/
def purgeStorage (overrideRetentionDays : Option ℤ) : Async StoragePurge := do
  let retentionPurge ← service.retentionPurge overrideRetentionDays
  let quotaCleanup ← service.engine.checkStorage
  let metricsAfter ← service.engine.getStorageMetrics
  pure { retentionPurge, quotaCleanup, metricsAfter }

end SettingsService

/-- A segment is deleted when its row is gone or marked, or its file is gone. -/
def Deleted (segment : Recording) (before after : World) : Prop :=
  segment ∉ after.recordings.rows ∨
    before.onDisk segment.filePath = true ∧ after.onDisk segment.filePath = false

/-- Whichever calls fail, the purge by age of `purgeStorage` without an override deletes only what
the retention policy lets go at its own tier's lifetime, and what the periodic purge would delete
from the same store. -/
def DeletesOnlyExpired (service : SettingsService) (world : World) : Prop :=
  ∀ (outcomes : Call → World → Outcome), ∀ row ∈ world.recordings.rows,
    Deleted row world (eval answer outcomes (service.retentionPurge none) world).2 →
      service.engine.retention.mayDelete world .age none row = true ∧
        Deleted row world (eval answer calm service.engine.purgeRetention world).2

/-- Every row among the first in reach that is old enough by the retention days, kept by nothing and
below the root is past the lifetime of its own tier. -/
def AllExpired (service : SettingsService) (world : World) : Prop :=
  ∀ row ∈ (passOrder none world.recordings.rows).take
      (service.engine.maxIterations * service.engine.batchSize),
    MayTouch service.engine world (some service.operationalSettings.retentionDays) row →
      row.startTime < world.now - service.engine.retention.lifetimeMs none row

variable {controller : StorageController} {world : World} {row : Recording}

theorem touched_of_deleted {outcomes : Call → World → Outcome} {overrideDays : Option ℤ}
    (hrow : row ∈ world.recordings.rows) (hdeleted : Deleted row world
      (eval answer outcomes (controller.purgeRetention overrideDays) world).2) :
    MayTouch controller world overrideDays row ∧
      row ∈ (passOrder none world.recordings.rows).take
        (controller.maxIterations * controller.batchSize) := by
  obtain ⟨hspares, -⟩ := purgeRetention_spec outcomes controller overrideDays world
  by_contra hnot
  obtain ⟨hstays, hdisk⟩ := hspares.kept row hrow hnot
  rcases hdeleted with hgone | ⟨hbefore, hafter⟩
  · exact hgone hstays
  · rw [hdisk hbefore] at hafter
    contradiction

theorem deleted_of_touched {overrideDays : Option ℤ}
    (hmay : MayTouch controller world overrideDays row)
    (hreach : row ∈ (passOrder none world.recordings.rows).take
      (controller.maxIterations * controller.batchSize)) :
    Deleted row world (eval answer calm (controller.purgeRetention overrideDays) world).2 := by
  obtain ⟨-, hgone⟩ := purgeRetention_spec calm controller overrideDays world
  exact Or.inl fun hstays ↦ hgone rfl row hreach hmay row hstays rfl

/-- A row that may go by one age may go by another exactly when it is old enough for that too. -/
theorem mayDelete_age_iff {policy : RetentionPolicy} {overrideDays : Option ℤ}
    (hmay : policy.mayDelete world .age overrideDays row = true) (otherDays : Option ℤ) :
    policy.mayDelete world .age otherDays row = true ↔
      row.startTime < world.now - policy.lifetimeMs otherDays row := by
  simp only [RetentionPolicy.mayDelete, RetentionPolicy.isDue, Bool.and_eq_true, Bool.or_eq_true,
    decide_eq_true_eq, reduceCtorEq, false_or] at hmay ⊢
  exact ⟨fun h ↦ h.1.2, fun h ↦ ⟨⟨hmay.1.1, h⟩, hmay.2⟩⟩

/-- A manual purge without an age deletes only what has expired exactly when every row in its reach
that it deletes by the retention days is past the lifetime of its own tier. -/
theorem deletesOnlyExpired_iff (service : SettingsService) (world : World) :
    DeletesOnlyExpired service world ↔ AllExpired service world := by
  constructor
  · intro honly row hreach hmay
    have hrow := (mem_passOrder.mp (List.mem_of_mem_take hreach)).1
    have hexpired := (honly calm row hrow (deleted_of_touched hmay hreach)).1
    exact (mayDelete_age_iff hmay.1 none).mp hexpired
  · intro hexpired outcomes row hrow hdeleted
    obtain ⟨hmay, hreach⟩ := touched_of_deleted hrow hdeleted
    have hpolicy := (mayDelete_age_iff hmay.1 none).mpr (hexpired row hreach hmay)
    exact ⟨hpolicy, deleted_of_touched ⟨hpolicy, hmay.2⟩ hreach⟩

/-- The settings service of a server that has stored none, at its start. -/
def defaultService : SettingsService :=
  SettingsService.load { engine := { recordingsRoot := ["rec"] } } none

/-- Twenty days after the footage of an incident. -/
def incidentWorld : World where
  recordings := { rows := [{ yardSegment with retentionTier := .incident }], nextId := 1 }
  files := [{ path := yardSegment.filePath, size := 100, mtimeMs := 0 }]
  now := 20 * dayMs

/-- With default settings, a manual purge deletes the footage of an incident twenty days after it,
forty days before its time. -/
theorem not_deletesOnlyExpired_incident :
    ¬ DeletesOnlyExpired defaultService incidentWorld := by
  rw [deletesOnlyExpired_iff]
  intro hexpired
  have hsegment := hexpired { yardSegment with retentionTier := .incident } (by decide)
    ⟨by decide, by decide⟩
  revert hsegment
  decide

end VmsLite.Settings
