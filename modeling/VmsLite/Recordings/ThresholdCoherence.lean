import VmsLite.Recordings.CrashReconciliation
import VmsLite.Recordings.Footprint

/-!
# Coherence of the storage thresholds

The settings service accepts a warning and a critical threshold, each within its own bounds, and
applies the two to the storage controller, whose target it leaves alone. Two functions then compare
the same reading with them: `getStorageMetrics` from the critical threshold down, `checkStorage`
from the warning threshold up. `coherent_iff` says for which settings the two agree, and a rollover
goes on until usage is below critical: those with the warning threshold at most the critical one,
and the target below it. The disk may read anything, and may read differently after every deletion.
-/

set_option autoImplicit false

namespace VmsLite.Recordings

open VmsLite.Async Program

/-! ### Settings -/

/-- What `OperationalSettingsSchema` accepts, without the recording mode and the schedule. -/
structure OperationalSettings where
  retentionDays : ℤ := 15
  warningThresholdPercent : ℕ := 80
  criticalThresholdPercent : ℕ := 90
  preBufferSeconds : ℤ := 10
  postBufferSeconds : ℤ := 30
  retentionDays_bounds : 0 ≤ retentionDays ∧ retentionDays ≤ 365 := by decide
  warning_bounds : 50 ≤ warningThresholdPercent ∧ warningThresholdPercent ≤ 95 := by decide
  critical_bounds : 60 ≤ criticalThresholdPercent ∧ criticalThresholdPercent ≤ 99 := by decide
  preBuffer_bounds : 2 ≤ preBufferSeconds ∧ preBufferSeconds ≤ 60 := by decide
  postBuffer_bounds : 5 ≤ postBufferSeconds ∧ postBufferSeconds ≤ 300 := by decide

/-- The parts of the engine that settings drive. -/
structure RecordingEngine where
  storageController : StorageController
  segmentIngest : SegmentIngest

namespace RecordingEngine

variable (engine : RecordingEngine)

def setRetentionDays (days : ℤ) : RecordingEngine :=
  { engine with storageController := engine.storageController.setRetentionDays days }

def setStorageThresholds (warningPercent criticalPercent : ℕ) : RecordingEngine :=
  { engine with
    storageController :=
      engine.storageController.setThresholds warningPercent criticalPercent none none }

def setMotionWindow (preBufferSeconds postBufferSeconds : ℤ) : RecordingEngine :=
  { engine with
    segmentIngest := engine.segmentIngest.setMotionWindow preBufferSeconds postBufferSeconds }

end RecordingEngine

/-- `applyToEngine` of the settings service. -/
def OperationalSettings.applyToEngine (settings : OperationalSettings)
    (engine : RecordingEngine) : RecordingEngine :=
  ((engine.setRetentionDays settings.retentionDays).setStorageThresholds
    settings.warningThresholdPercent settings.criticalThresholdPercent).setMotionWindow
      settings.preBufferSeconds settings.postBufferSeconds

/-! ### Coherence -/

/-- Calls whose outcome says more than that they went through. -/
def Call.varies : Call → Bool
  | .statfs _ | .writeCanary | .promiseAllOrder => true
  | _ => false

/-- The volume is mounted and reads `disk`, the write canary succeeds, and no call fails. -/
structure Mounted (policy : Call → World → Outcome) (disk : World → DiskStats) : Prop where
  statfs : ∀ dir world, policy (.statfs dir) world = .reading (disk world)
  writeCanary : ∀ world, ∃ latencyMs, policy .writeCanary world = .latency latencyMs
  others : ∀ call world, call.varies = false → policy call world = .ok

/-- The used percentage of a reading. -/
def DiskStats.usedPercent (stats : DiskStats) : ℕ :=
  percentOf (stats.blocks * stats.bsize - stats.bfree * stats.bsize) (stats.blocks * stats.bsize)

def BusEvent.isStorageWarning : BusEvent → Bool
  | .storageWarning .. => true
  | _ => false

/-- How often `storage.warning` was emitted. -/
def warningCount (world : World) : ℕ := world.emitted.countP BusEvent.isStorageWarning

/-- `checkStorage` and `getStorageMetrics` agree on a reading: the purge is run at the critical
threshold, and with a canary that is not slow the health tells what the check does. -/
structure Agrees (controller : StorageController) (usedPercent : ℕ) (before : World)
    (metrics : StorageMetrics) (result : StorageCleanupResult) (after : World) : Prop where
  purges_iff : result.triggered = true ↔ controller.criticalThresholdPercent ≤ usedPercent
  critical_iff : metrics.healthStatus ≠ .writeDegraded →
    (metrics.healthStatus = .critical ↔ result.triggered = true)
  warning_iff : metrics.healthStatus ≠ .writeDegraded →
    (metrics.healthStatus = .warning ↔ warningCount before < warningCount after)
  healthy_iff : metrics.healthStatus ≠ .writeDegraded →
    (metrics.healthStatus = .healthy ↔ result.status = .ok)

/-- Coherence of the thresholds of a controller, over every world and every reading of its disk. -/
structure Coherent (controller : StorageController) : Prop where
  agrees : ∀ policy disk world, Mounted policy disk → ∃ metrics read result after,
    eval answer policy controller.getStorageMetrics world = (.ok metrics, read) ∧
      eval answer policy controller.checkStorage world = (.ok result, after) ∧
      Agrees controller (disk world).usedPercent world metrics result after
  target_lt_critical : controller.targetThresholdPercent < controller.criticalThresholdPercent
  /-- A purge that stops of its own accord has read a usage below critical. -/
  stops_below_critical : ∀ policy disk world, Mounted policy disk →
    ∀ statuses iterations progress stopped after,
      eval answer policy (controller.purgePass
        { mode := .capacity, shouldContinue := some controller.aboveTarget } statuses iterations
          progress) world = (.ok (true, stopped), after) →
        ∃ read ∈ world :: visited answer policy (controller.purgePass
          { mode := .capacity, shouldContinue := some controller.aboveTarget } statuses iterations
            progress) world, (disk read).usedPercent < controller.criticalThresholdPercent

/-! ### What the programs of a check use -/

/-- Calls that emit no storage warning. -/
def Call.silent : Call → Bool
  | .emitEvent event => !event.isStorageWarning
  | _ => true

theorem Call.silent_of_harmless {call : Call} (hharmless : call.harmless = true) :
    call.silent = true := by
  cases call with
  | emitEvent event => cases event <;> first | rfl | cases hharmless
  | _ => rfl

theorem Call.silent_of_deletes {call : Call} (hdeletes : call.deletes = true) :
    call.silent = true := by
  cases call <;> first | rfl | cases hdeletes

/-- No storage warning was emitted between two worlds. -/
def WarnsNothing (before after : World) : Prop := warningCount after = warningCount before

/-- A silent call emits no storage warning. -/
theorem WarnsNothing.answer {before world : World} (hworld : WarnsNothing before world)
    {call : Call} (hsilent : call.silent = true) (outcome : Outcome) :
    WarnsNothing before (answer call outcome world).2 := by
  by_cases hemits : ∃ event, call = .emitEvent event
  · obtain ⟨event, rfl⟩ := hemits
    have hevent : event.isStorageWarning = false := by simpa [Call.silent] using hsilent
    refine Eq.trans ?_ hworld
    simp [Recordings.answer, warningCount, List.countP_append, hevent]
  · have hemitted := emitted_answer (fun event hcall ↦ hemits ⟨event, hcall⟩) outcome world
    exact (congrArg (List.countP BusEvent.isStorageWarning) hemitted).trans hworld

namespace StorageController

variable (controller : StorageController)

/-- A rollover emits no storage warning. -/
theorem rollover_uses (initialMetrics : StorageMetrics) :
    (controller.rollover initialMetrics).Uses (Call.silent · = true) := by
  have hmetrics := controller.getStorageMetrics_uses.mono fun _ ↦ Call.silent_of_harmless
  unfold rollover
  refine Uses.bind (Uses.request rfl) fun _ ↦ ?_
  refine Uses.bind (reconcilePendingDeletions_uses.mono fun _ ↦ Call.silent_of_deletes) fun _ ↦ ?_
  refine Uses.bind (controller.purgePasses_uses (fun _ ↦ Call.silent_of_harmless)
    (fun _ ↦ Call.silent_of_deletes) (fun shouldContinue hshould ↦ ?_) _ _) fun purged ↦ ?_
  · cases hshould
    exact Uses.bind hmetrics fun _ ↦ trivial
  refine Uses.bind hmetrics fun currentMetrics ↦ ?_
  refine Uses.bind (emitSome_uses fun event hevent ↦ ?_) fun _ ↦ ?_
  · split_ifs at hevent <;> cases hevent
    rfl
  exact Uses.bind (Uses.request rfl) fun _ ↦ trivial

/-! ### A rollover throws nothing -/

/-- The replies a purge needs: its queries are answered. -/
def Answered : (call : Call) → Reply call → Prop
  | .findOldestRecordings .., reply => ∃ rows, reply = .ok rows
  | .findBookmarks .., reply => ∃ bookmarks, reply = .ok bookmarks
  | .findActiveExports, reply => ∃ jobs, reply = .ok jobs
  | _, _ => True

theorem emitSome_returns (event : Option BusEvent) : (emitSome event).Returns Answered := by
  cases event with
  | none => trivial
  | some event => exact Returns.request

theorem getStorageMetrics_returns : controller.getStorageMetrics.Returns Answered := by
  unfold getStorageMetrics
  refine Returns.bind Returns.request fun _ ↦ ?_
  refine Returns.bind (Returns.catching fun _ ↦ trivial) fun reading ↦ ?_
  refine Returns.bind (Returns.catching fun _ ↦ trivial) fun protectedBytes ↦ ?_
  refine Returns.bind (Returns.bind Returns.request fun reply ↦ ?_) fun canary ↦ ?_
  · cases reply <;> trivial
  refine Returns.bind Returns.request fun _ ↦ Returns.bind (emitSome_returns _) fun _ ↦ ?_
  refine Returns.bind Returns.request fun _ ↦ Returns.bind (emitSome_returns _) fun _ ↦ ?_
  exact Returns.bind Returns.request fun _ ↦ trivial

theorem deletable_returns (policy : RetentionPolicy) (candidates : List Recording)
    (mode : PurgeMode) (overrideDays : Option ℤ) :
    (policy.deletable candidates mode overrideDays).Returns Answered := by
  unfold RetentionPolicy.deletable
  refine Returns.bind Returns.request fun now ↦ ?_
  dsimp only
  split_ifs
  · trivial
  refine Returns.bind (Returns.bind Returns.request fun first ↦ ?_) fun _ ↦ trivial
  cases first with
  | true =>
    rintro reply ⟨bookmarks, rfl⟩ reply ⟨jobs, rfl⟩
    trivial
  | false =>
    rintro reply ⟨jobs, rfl⟩ reply ⟨bookmarks, rfl⟩
    trivial

theorem deleteCandidate_returns (ids : List RecordingId) (progress : PurgeProgress)
    (segment : Recording) : (controller.deleteCandidate ids progress segment).Returns Answered := by
  unfold deleteCandidate
  split_ifs
  · exact Returns.catching fun _ ↦ trivial
  · trivial

theorem purgePass_returns {opts : PurgeOptions}
    (hcontinue : (continues opts).Returns Answered)
    (statuses : Option (List SegmentStatus)) (iterations : ℕ) (progress : PurgeProgress) :
    (controller.purgePass opts statuses iterations progress).Returns Answered := by
  induction iterations generalizing progress with
  | zero => trivial
  | succ iterations ih =>
    rintro reply ⟨candidates, rfl⟩
    show Returns Answered (if _ then _ else _)
    split_ifs
    · trivial
    refine Returns.bind hcontinue fun goesOn ↦ ?_
    split_ifs
    · refine Returns.bind (deletable_returns _ _ _ _) fun deletable ↦ ?_
      refine Returns.bind (Returns.foldlM (controller.deleteCandidate_returns _)) fun progress ↦ ?_
      split_ifs
      · trivial
      · exact ih _
    · trivial

theorem purgePasses_returns {opts : PurgeOptions} (hcontinue : (continues opts).Returns Answered)
    (passes : List (Option (List SegmentStatus))) (progress : PurgeProgress) :
    (controller.purgePasses opts passes progress).Returns Answered := by
  induction passes generalizing progress with
  | nil => trivial
  | cons statuses passes ih =>
    refine Returns.bind (controller.purgePass_returns hcontinue _ _ _) fun passed ↦ ?_
    dsimp only
    split_ifs
    · trivial
    · exact ih _

/-! ### Runs on a mounted volume -/

section Runs

variable {policy : Call → World → Outcome} {disk : World → DiskStats}
  (hmounted : Mounted policy disk)

include hmounted

theorem answered (call : Call) (world : World) :
    Answered call (answer call (policy call world) world).1 := by
  cases call with
  | findOldestRecordings limit skip statuses =>
    rw [hmounted.others _ _ rfl]
    exact ⟨_, rfl⟩
  | findBookmarks start stop =>
    rw [hmounted.others _ _ rfl]
    exact ⟨_, rfl⟩
  | findActiveExports =>
    rw [hmounted.others _ _ rfl]
    exact ⟨_, rfl⟩
  | _ => trivial

theorem eval_statfsUpwards_mounted (dir : Path) (depth : ℕ) (world : World) :
    eval answer policy (statfsUpwards dir depth) world = (.ok (disk world), world) := by
  cases depth with
  | zero =>
    unfold statfsUpwards
    simp only [call, bind_eq, request_bind, eval_await, hmounted.statfs]
    rfl
  | succ depth =>
    unfold statfsUpwards
    simp only [call, bind_eq, request_bind, eval_await, hmounted.statfs]
    rfl

/-- What `getStorageMetrics` reports of a reading. -/
theorem eval_getStorageMetrics_mounted (world : World) :
    ∃ metrics read latencyMs, eval answer policy controller.getStorageMetrics world =
        (.ok metrics, read) ∧ metrics.usedPercent = (disk world).usedPercent ∧
      metrics.healthStatus =
        controller.healthStatus false (some latencyMs) (disk world).usedPercent ∧
      warningCount read = warningCount world := by
  have hreading : eval answer policy (catching
      ((statfsNearestExisting controller.recordingsRoot).bind fun stats ↦ done (false, stats))
      fun _ ↦ done (true, noReading)) world = (.ok (false, disk world), world) := by
    unfold statfsNearestExisting
    rw [eval_catching, eval_bind_of_ok answer policy
      (eval_statfsUpwards_mounted hmounted _ _ world)]
    rfl
  have hprotected : controller.calculateProtectedBytes.Returns Answered :=
    Returns.catching fun _ ↦ trivial
  obtain ⟨bytes, counted, hbytes⟩ := hprotected.eval (answered hmounted) world
  obtain ⟨latencyMs, hlatency⟩ := hmounted.writeCanary counted
  have hcanary : eval answer policy runWriteCanary counted = (.ok (some latencyMs), counted) := by
    unfold runWriteCanary
    simp only [call, bind_eq, request_bind, eval_await, hlatency]
    rfl
  have hmetrics : ∃ read, eval answer policy controller.getStorageMetrics world =
      (.ok (controller.metricsOf false (disk world) bytes (some latencyMs)), read) := by
    unfold getStorageMetrics
    simp only [call, bind_eq, request_bind, pure_eq]
    rw [eval_await, hmounted.others _ _ rfl,
      show answer (.mkdir controller.recordingsRoot) .ok world = ((), world) from rfl,
      eval_bind_of_ok answer policy hreading, eval_bind_of_ok answer policy hbytes,
      eval_bind_of_ok answer policy hcanary, eval_await]
    obtain ⟨_, announced, hannounced⟩ := (emitSome_returns _).eval (answered hmounted) _
    rw [eval_bind_of_ok answer policy hannounced, eval_await]
    obtain ⟨_, alerted, halerted⟩ := (emitSome_returns _).eval (answered hmounted) _
    rw [eval_bind_of_ok answer policy halerted, eval_await]
    exact ⟨_, rfl⟩
  obtain ⟨read, heval⟩ := hmetrics
  have hsilent : WarnsNothing world (eval answer policy controller.getStorageMetrics world).2 :=
    controller.getStorageMetrics_uses.eval policy (fun call outcome reached hharmless hreached ↦
      hreached.answer (Call.silent_of_harmless hharmless) outcome) rfl
  rw [heval] at hsilent
  exact ⟨_, read, latencyMs, heval, rfl, rfl, hsilent⟩

theorem eval_reconcilePendingDeletions_mounted (world : World) :
    ∃ counts swept, eval answer policy reconcilePendingDeletions world = (.ok counts, swept) := by
  obtain ⟨counts, swept, heval, -⟩ := eval_reconcilePendingDeletions world
  refine ⟨counts, swept, ?_⟩
  rw [← heval]
  refine reconcilePendingDeletions_uses.eval_congr (fun call reached hdeletes ↦ ?_) world
  exact hmounted.others call reached (by cases call <;> first | rfl | cases hdeletes)

/-- A rollover runs to its end, and warns of nothing. -/
theorem eval_rollover_mounted (initialMetrics : StorageMetrics) (world : World) :
    ∃ result reached, eval answer policy (controller.rollover initialMetrics) world =
        (.ok result, reached) ∧ result.triggered = true ∧ result.status = .critical ∧
      warningCount reached = warningCount world := by
  have hcontinue : (continues
      { mode := .capacity, shouldContinue := some controller.aboveTarget }).Returns Answered :=
    Returns.bind controller.getStorageMetrics_returns fun _ ↦ trivial
  have hrun : ∃ result reached, eval answer policy (controller.rollover initialMetrics) world =
      (.ok result, reached) ∧ result.triggered = true ∧ result.status = .critical := by
    unfold rollover
    simp only [call, bind_eq, request_bind, pure_eq]
    rw [eval_await]
    obtain ⟨counts, swept, hsweep⟩ := eval_reconcilePendingDeletions_mounted hmounted _
    obtain ⟨purged, rolled, hpurge⟩ :=
      (controller.purgePasses_returns hcontinue _ _).eval (answered hmounted) swept
    obtain ⟨metrics, read, hread⟩ :=
      controller.getStorageMetrics_returns.eval (answered hmounted) rolled
    rw [eval_bind_of_ok answer policy hsweep]
    unfold purgeCapacity deleteOldestSegments
    rw [eval_bind_of_ok answer policy hpurge, eval_bind_of_ok answer policy hread]
    obtain ⟨_, alerted, halerted⟩ := (emitSome_returns _).eval (answered hmounted) read
    rw [eval_bind_of_ok answer policy halerted, eval_await]
    exact ⟨_, _, rfl, rfl, rfl⟩
  obtain ⟨result, reached, heval, htriggered, hstatus⟩ := hrun
  have hsilent : WarnsNothing world
      (eval answer policy (controller.rollover initialMetrics) world).2 :=
    (controller.rollover_uses initialMetrics).eval policy
      (fun call outcome reached hsilent hreached ↦ hreached.answer hsilent outcome) rfl
  rw [heval] at hsilent
  exact ⟨result, reached, heval, htriggered, hstatus, hsilent⟩

omit hmounted in
/-- A mounted volume whose canary succeeds is neither missing nor failed. -/
theorem healthStatus_writable (latencyMs usedPercent : ℕ) :
    controller.healthStatus false (some latencyMs) usedPercent ≠ .mountMissing ∧
      controller.healthStatus false (some latencyMs) usedPercent ≠ .writeFailed := by
  simp only [healthStatus, Bool.false_eq_true, if_false]
  split_ifs <;> simp

omit hmounted in
/-- Below the warning threshold nothing is done. -/
theorem eval_checkStorage_of_lt_warning {world read : World} {metrics : StorageMetrics}
    (heval : eval answer policy controller.getStorageMetrics world = (.ok metrics, read))
    (hmount : metrics.healthStatus ≠ .mountMissing) (hcanary : metrics.healthStatus ≠ .writeFailed)
    (hlow : metrics.usedPercent < controller.warningThresholdPercent) :
    eval answer policy controller.checkStorage world =
      (.ok (untriggered (if metrics.healthStatus = .writeDegraded then .writeDegraded else .ok)
        metrics), read) := by
  unfold checkStorage
  rw [bind_eq, eval_bind_of_ok answer policy heval, if_neg hmount, if_neg hcanary, if_pos hlow]
  rfl

/-- Between the two thresholds a warning is emitted. -/
theorem eval_checkStorage_of_warning {world read : World} {metrics : StorageMetrics}
    (heval : eval answer policy controller.getStorageMetrics world = (.ok metrics, read))
    (hmount : metrics.healthStatus ≠ .mountMissing) (hcanary : metrics.healthStatus ≠ .writeFailed)
    (hwarning : controller.warningThresholdPercent ≤ metrics.usedPercent)
    (hcritical : metrics.usedPercent < controller.criticalThresholdPercent) :
    ∃ after, eval answer policy controller.checkStorage world =
      (.ok (untriggered .warning metrics), after) ∧
        warningCount after = warningCount read + 1 := by
  unfold checkStorage
  rw [bind_eq, eval_bind_of_ok answer policy heval, if_neg hmount, if_neg hcanary,
    if_neg (not_lt.mpr hwarning), if_pos (by simp [hwarning, hcritical])]
  simp only [call, bind_eq, request_bind, pure_eq]
  rw [eval_await, hmounted.others _ _ rfl]
  refine ⟨_, rfl, ?_⟩
  simp [answer, warningCount, BusEvent.isStorageWarning]

/-- At both thresholds the rollover is run. -/
theorem eval_checkStorage_of_critical {world read : World} {metrics : StorageMetrics}
    (heval : eval answer policy controller.getStorageMetrics world = (.ok metrics, read))
    (hmount : metrics.healthStatus ≠ .mountMissing) (hcanary : metrics.healthStatus ≠ .writeFailed)
    (hwarning : controller.warningThresholdPercent ≤ metrics.usedPercent)
    (hcritical : controller.criticalThresholdPercent ≤ metrics.usedPercent) :
    ∃ result after, eval answer policy controller.checkStorage world = (.ok result, after) ∧
      result.triggered = true ∧ result.status = .critical ∧
        warningCount after = warningCount read := by
  unfold checkStorage
  rw [bind_eq, eval_bind_of_ok answer policy heval, if_neg hmount, if_neg hcanary,
    if_neg (not_lt.mpr hwarning), if_neg (by simp [not_lt.mpr hcritical])]
  exact controller.eval_rollover_mounted hmounted metrics read

/-- With ordered thresholds the check and the metrics agree on every reading. -/
theorem agrees_of_le (hle : controller.warningThresholdPercent ≤
    controller.criticalThresholdPercent)
    (world : World) :
    ∃ metrics read result after,
      eval answer policy controller.getStorageMetrics world = (.ok metrics, read) ∧
        eval answer policy controller.checkStorage world = (.ok result, after) ∧
        Agrees controller (disk world).usedPercent world metrics result after := by
  obtain ⟨metrics, read, latencyMs, heval, hused, hhealth, hquiet⟩ :=
    controller.eval_getStorageMetrics_mounted hmounted world
  have hwritable := controller.healthStatus_writable latencyMs (disk world).usedPercent
  rw [← hhealth] at hwritable
  obtain ⟨hmount, hcanary⟩ := hwritable
  have hstate : metrics.healthStatus ≠ .writeDegraded → metrics.healthStatus =
      if controller.criticalThresholdPercent ≤ metrics.usedPercent then .critical
      else if controller.warningThresholdPercent ≤ metrics.usedPercent then .warning
      else .healthy := by
    intro hslow
    rw [hhealth] at hslow
    rw [hhealth, hused]
    simp only [healthStatus, Bool.false_eq_true, if_false] at hslow ⊢
    split_ifs at hslow ⊢ <;> first | rfl | exact absurd rfl hslow
  rw [← hused]
  rcases lt_or_ge metrics.usedPercent controller.warningThresholdPercent with hlow | hwarning
  · have hcritical : ¬ controller.criticalThresholdPercent ≤ metrics.usedPercent := by omega
    refine ⟨metrics, read, _, read, heval,
      controller.eval_checkStorage_of_lt_warning heval hmount hcanary hlow, ?_⟩
    constructor
    · simp [untriggered, hcritical]
    all_goals
      intro hslow
      rw [hstate hslow, if_neg hcritical, if_neg (not_le.mpr hlow)]
    · simp [untriggered]
    · simp [hquiet]
    · simp [untriggered]
  rcases lt_or_ge metrics.usedPercent controller.criticalThresholdPercent with hbelow | hcritical
  · obtain ⟨after, hcheck, hwarned⟩ := controller.eval_checkStorage_of_warning hmounted heval
      hmount hcanary hwarning hbelow
    refine ⟨metrics, read, _, after, heval, hcheck, ?_⟩
    constructor
    · simp [untriggered, hbelow]
    all_goals
      intro hslow
      rw [hstate hslow, if_neg (not_le.mpr hbelow), if_pos hwarning]
    · simp [untriggered]
    · simp only [true_iff]
      omega
    · simp [untriggered]
  · obtain ⟨result, after, hcheck, htriggered, hstatus, hsilent⟩ :=
      controller.eval_checkStorage_of_critical hmounted heval hmount hcanary hwarning hcritical
    refine ⟨metrics, read, result, after, heval, hcheck, ?_⟩
    constructor
    · simp [htriggered, hcritical]
    all_goals
      intro hslow
      rw [hstate hslow, if_pos hcritical]
    · simp [htriggered]
    · simp only [reduceCtorEq, false_iff]
      omega
    · simp [hstatus]

/-- Whether a rollover goes on, by the reading it takes. -/
theorem eval_aboveTarget_mounted (world : World) :
    ∃ read, eval answer policy controller.aboveTarget world =
      (.ok (controller.targetThresholdPercent < (disk world).usedPercent : Bool), read) := by
  obtain ⟨metrics, read, -, heval, hused, -⟩ :=
    controller.eval_getStorageMetrics_mounted hmounted world
  unfold aboveTarget
  rw [bind_eq, eval_bind_of_ok answer policy heval, hused]
  exact ⟨read, rfl⟩

/-- With a target below critical, a pass of a rollover stops only below critical. -/
theorem purgePass_stops_below_critical
    (hlt : controller.targetThresholdPercent < controller.criticalThresholdPercent)
    (statuses : Option (List SegmentStatus)) (iterations : ℕ) (progress : PurgeProgress)
    {world after : World} {stopped : PurgeProgress}
    (hstop : eval answer policy (controller.purgePass
      { mode := .capacity, shouldContinue := some controller.aboveTarget } statuses iterations
        progress) world = (.ok (true, stopped), after)) :
    ∃ read ∈ world :: visited answer policy (controller.purgePass
      { mode := .capacity, shouldContinue := some controller.aboveTarget } statuses iterations
        progress) world, (disk read).usedPercent < controller.criticalThresholdPercent := by
  induction iterations generalizing progress world with
  | zero => cases hstop
  | succ iterations ih =>
    have hquery : eval answer policy
        (getOldestRecordings controller.batchSize progress.skip statuses) world =
          (.ok (world.recordings.findOldestRecordings controller.batchSize progress.skip statuses),
            world) := by
      unfold getOldestRecordings
      simp only [call, bind_eq, request_bind, eval_await]
      rw [hmounted.others _ _ rfl]
      rfl
    obtain ⟨checked, habove⟩ := controller.eval_aboveTarget_mounted hmounted world
    unfold purgePass at hstop ⊢
    rw [bind_eq, eval_bind_of_ok answer policy hquery] at hstop
    refine Exists.imp (fun read ↦ And.imp_left (mem_visited_bind_of_ok answer policy hquery)) ?_
    split_ifs at hstop ⊢ with hempty
    · cases hstop
    simp only [continues, Option.getD_some, bind_eq] at hstop ⊢
    rw [eval_bind_of_ok answer policy habove] at hstop
    by_cases hgoes : controller.targetThresholdPercent < (disk world).usedPercent
    · -- The pass goes on, and stops in a later iteration
      refine Exists.imp (fun read ↦ And.imp_left (mem_visited_bind_of_ok answer policy habove)) ?_
      simp only [hgoes, decide_true, if_true] at hstop ⊢
      obtain ⟨deletable, asked, hdeletable⟩ := (deletable_returns controller.retention
        (world.recordings.findOldestRecordings controller.batchSize progress.skip statuses)
          .capacity none).eval (answered hmounted) checked
      rw [eval_bind_of_ok answer policy hdeletable] at hstop
      refine Exists.imp
        (fun read ↦ And.imp_left (mem_visited_bind_of_ok answer policy hdeletable)) ?_
      obtain ⟨batch, deleted, hbatch⟩ := (Returns.foldlM (fun progress segment ↦
        controller.deleteCandidate_returns (deletable.map Recording.id) progress segment)).eval
          (answered hmounted) asked
      rw [eval_bind_of_ok answer policy hbatch] at hstop
      refine Exists.imp
        (fun read ↦ And.imp_left (mem_visited_bind_of_ok answer policy hbatch)) ?_
      split_ifs at hstop ⊢ with hlast
      · cases hstop
      · exact ih batch hstop
    · refine ⟨world, List.mem_cons_self, ?_⟩
      omega

end Runs

end StorageController

/-! ### The settings that cohere -/

/-- A volume that reads one and the same. -/
def steady (stats : DiskStats) : Call → World → Outcome
  | .statfs _, _ => .reading stats
  | .writeCanary, _ => .latency 0
  | _, _ => .ok

theorem steady_mounted (stats : DiskStats) : Mounted (steady stats) fun _ ↦ stats where
  statfs := fun _ _ ↦ rfl
  writeCanary := fun _ ↦ ⟨0, rfl⟩
  others := fun call _ hvaries ↦ by cases call <;> first | rfl | cases hvaries

/-- A disk of a hundred blocks, some of them used. -/
def usedBlocks (used : ℕ) : DiskStats := { bsize := 1, blocks := 100, bfree := 100 - used }

theorem usedPercent_usedBlocks {used : ℕ} (hused : used ≤ 100) :
    (usedBlocks used).usedPercent = used := by
  show percentOf (100 * 1 - (100 - used) * 1) (100 * 1) = used
  unfold percentOf
  rw [if_pos (by decide)]
  omega

/-- Coherent thresholds are in order: a reading between them tells when they are not. -/
theorem Coherent.warning_le_critical {controller : StorageController}
    (hcoherent : Coherent controller) (hpercent : controller.criticalThresholdPercent ≤ 100) :
    controller.warningThresholdPercent ≤ controller.criticalThresholdPercent := by
  by_contra hinverted
  have hmounted := steady_mounted (usedBlocks controller.criticalThresholdPercent)
  obtain ⟨_, _, result, after, -, hcheck, hagrees⟩ := hcoherent.agrees _ _ {} hmounted
  obtain ⟨metrics, read, latencyMs, heval, hused, hhealth, -⟩ :=
    controller.eval_getStorageMetrics_mounted hmounted {}
  have hreading := usedPercent_usedBlocks hpercent
  rw [hreading] at hused hhealth hagrees
  have hwritable := controller.healthStatus_writable latencyMs controller.criticalThresholdPercent
  rw [← hhealth] at hwritable
  have hlow := controller.eval_checkStorage_of_lt_warning heval hwritable.1 hwritable.2 (by omega)
  rw [hlow, Prod.mk.injEq, Except.ok.injEq] at hcheck
  have htriggered := hagrees.purges_iff.mpr le_rfl
  rw [← hcheck.1] at htriggered
  cases htriggered

/-- The settings service leaves a controller coherent exactly when the warning threshold is at most
the critical one, and the target that the controller keeps is below it. -/
theorem coherent_iff (settings : OperationalSettings) (engine : RecordingEngine) :
    Coherent (settings.applyToEngine engine).storageController ↔
      settings.warningThresholdPercent ≤ settings.criticalThresholdPercent ∧
        engine.storageController.targetThresholdPercent < settings.criticalThresholdPercent := by
  constructor
  · intro hcoherent
    exact ⟨hcoherent.warning_le_critical (settings.critical_bounds.2.trans (by decide)),
      hcoherent.target_lt_critical⟩
  · rintro ⟨hle, hlt⟩
    exact
      { agrees := fun policy disk world hmounted ↦
          StorageController.agrees_of_le _ hmounted hle world
        target_lt_critical := hlt
        stops_below_critical := fun policy disk world hmounted statuses iterations progress _ _ ↦
          StorageController.purgePass_stops_below_critical _ hmounted hlt statuses iterations
            progress }

/-- A warning threshold of 95 with a critical one of 85 is accepted and applied. A disk that is 85
percent full is then never rolled over. -/
theorem not_coherent_inverted :
    ¬ Coherent (OperationalSettings.applyToEngine
      { warningThresholdPercent := 95, criticalThresholdPercent := 85 }
      { storageController := { recordingsRoot := ["rec"] }
        segmentIngest := { recordingsRoot := ["rec"] } }).storageController := by
  intro hcoherent
  have hle := hcoherent.warning_le_critical (by decide)
  exact absurd hle (by decide)

end VmsLite.Recordings
