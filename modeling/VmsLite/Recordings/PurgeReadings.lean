import VmsLite.Async.Ledger
import VmsLite.Recordings.Footprint
import VmsLite.Recordings.PurgeProgress

/-!
# A disk that refuses and fills

The environment of a purge: a file system that refuses to unlink some files, and a disk whose
readings are any sequence. A refusal may change from one pass to the next; within a pass no file is
tried twice. What a program does that neither asks for a page nor takes a reading does not depend on
the ledger (`eval_rolling`), and a measurement reports the next reading
(`eval_getStorageMetrics_rolling`).
-/

set_option autoImplicit false

namespace VmsLite.Recordings

open VmsLite.Async Program

/-! ### Refusals and readings -/

/-- The file system refuses to unlink some files; every other call goes through. -/
def refusing (refusals : Path → Option Failure) : Call → World → Outcome
  | .unlink path, _ =>
    match refusals path with
    | some error => .fail error
    | none => .ok
  | _, _ => .ok

theorem refusing_unhindered (refusals : Path → Option Failure) :
    Unhindered (refusing refusals) := by
  intro call world hcall
  cases call <;> first | rfl | exact absurd rfl (hcall _)

/-- What is noted of a purge: how many readings it took, and which pass it last asked a page for. -/
structure PurgeLedger where
  taken : ℕ := 0
  statuses : Option (List SegmentStatus) := none

def PurgeLedger.afterReading (ledger : PurgeLedger) : PurgeLedger :=
  { ledger with taken := ledger.taken + 1 }

/-- Notes the calls of a purge. -/
def notePurge : Call → PurgeLedger → PurgeLedger
  | .statfs _, ledger => ledger.afterReading
  | .findOldestRecordings _ _ statuses, ledger => { ledger with statuses }
  | _, ledger => ledger

/-- The file system refuses in every pass what it refuses then, and the disk gives its readings one
after another. -/
def rolling (refusals : Option (List SegmentStatus) → Path → Option Failure)
    (readings : ℕ → DiskStats) : Call → World × PurgeLedger → Outcome
  | .statfs _, state => .reading (readings state.2.taken)
  | call, state => refusing (refusals state.2.statuses) call state.1

/-- Calls that the ledger notes. -/
def Call.isNoted : Call → Bool
  | .statfs _ | .findOldestRecordings .. => true
  | _ => false

theorem Call.not_isNoted_of_asksHolds {call : Call} (hasks : call.asksHolds = true) :
    call.isNoted = false := by
  cases call <;> first | rfl | cases hasks

theorem Call.not_isNoted_of_deletes {call : Call} (hdeletes : call.deletes = true) :
    call.isNoted = false := by
  cases call <;> first | rfl | cases hdeletes

section Metered

variable {α : Type} {refusals : Option (List SegmentStatus) → Path → Option Failure}
  {readings : ℕ → DiskStats}

/-- A program whose calls are not noted runs as it does without the ledger. -/
theorem eval_rolling {program : Async α} (huses : program.Uses (Call.isNoted · = false))
    (world : World) (ledger : PurgeLedger) :
    eval (withLedger answer notePurge) (rolling refusals readings) program (world, ledger) =
      ((eval answer (refusing (refusals ledger.statuses)) program world).1,
        (eval answer (refusing (refusals ledger.statuses)) program world).2, ledger) :=
  huses.eval_withLedger (fun call hcall ↦ by cases call <;> first | rfl | cases hcall)
    (fun call _ hcall ↦ by cases call <;> first | rfl | cases hcall) world

/-- How full the disk is by a reading. -/
def usedPercentBy (stats : DiskStats) : ℕ :=
  percentOf (stats.blocks * stats.bsize - stats.bfree * stats.bsize) (stats.blocks * stats.bsize)

/-- A disk that is filled to 95 percent. -/
def fullDisk : DiskStats := { bsize := 1, blocks := 100, bfree := 5 }

/-- The events that warn of an exhausted disk. -/
def BusEvent.isExhaustionRisk : BusEvent → Bool
  | .exhaustionRisk .. => true
  | _ => false

/-- How often it was warned of an exhausted disk. -/
def riskCount (world : World) : ℕ := world.emitted.countP BusEvent.isExhaustionRisk

/-- A measurement warns of no exhausted disk. -/
theorem riskCount_answer {call : Call} (hmeasurement : call.isMeasurement = true)
    (outcome : Outcome)
    (world : World) : riskCount (answer call outcome world).2 = riskCount world := by
  by_cases hemits : ∃ event, call = .emitEvent event
  · obtain ⟨event, rfl⟩ := hemits
    have hevent : event.isExhaustionRisk = false := by
      cases event <;> first | rfl | cases hmeasurement
    simp [answer, riskCount, List.countP_append, hevent]
  · have hemitted := emitted_answer (fun event hcall ↦ hemits ⟨event, hcall⟩) outcome world
    exact congrArg (List.countP BusEvent.isExhaustionRisk) hemitted

/-- The reading of the recordings root is the next one. -/
theorem eval_statfsUpwards_rolling (dir : Path) (depth : ℕ) (world : World) (ledger : PurgeLedger) :
    eval (withLedger answer notePurge) (rolling refusals readings)
        (StorageController.statfsUpwards dir depth) (world, ledger) =
      (.ok (readings ledger.taken), world, ledger.afterReading) := by
  cases depth <;> rfl

theorem eval_emitSome_rolling (event : Option BusEvent) (world : World) (ledger : PurgeLedger) :
    ∃ reached, eval (withLedger answer notePurge) (rolling refusals readings)
      (StorageController.emitSome event) (world, ledger) = (.ok (), reached, ledger) := by
  cases event with
  | none => exact ⟨world, rfl⟩
  | some event => exact ⟨_, rfl⟩

variable (refusals readings) in
/-- What `getStorageMetrics` reports is the next reading. -/
theorem eval_getStorageMetrics_rolling (controller : StorageController) (world : World)
    (ledger : PurgeLedger) :
    ∃ metrics reached, eval (withLedger answer notePurge) (rolling refusals readings)
        controller.getStorageMetrics (world, ledger) = (.ok metrics, reached, ledger.afterReading) ∧
      metrics.usedPercent = usedPercentBy (readings ledger.taken) ∧ Undisturbed world reached ∧
      riskCount reached = riskCount world := by
  have hbytes : ∃ bytes, eval (withLedger answer notePurge) (rolling refusals readings)
      controller.calculateProtectedBytes (world, ledger.afterReading) =
        (.ok bytes, world, ledger.afterReading) := by
    obtain ⟨bytes, hbytes⟩ := controller.eval_calculateProtectedBytes
      (refusing_unhindered (refusals ledger.afterReading.statuses)) world
    have huses : controller.calculateProtectedBytes.Uses (Call.isNoted · = false) :=
      Uses.catching (controller.retention.protectedBytes_asks.mono fun _ ↦
        Call.not_isNoted_of_asksHolds) fun _ ↦ trivial
    rw [eval_rolling huses, hbytes]
    exact ⟨bytes, rfl⟩
  obtain ⟨bytes, hbytes⟩ := hbytes
  have hcanary : eval (withLedger answer notePurge) (rolling refusals readings)
      StorageController.runWriteCanary (world, ledger.afterReading) =
        (.ok world.volume.canaryLatencyMs, world, ledger.afterReading) := by
    have huses : StorageController.runWriteCanary.Uses (Call.isNoted · = false) := by
      refine Uses.bind (Uses.request rfl) fun reply ↦ ?_
      cases reply <;> trivial
    rw [eval_rolling huses,
      StorageController.eval_runWriteCanary (refusing_unhindered _) world]
  have hmetrics : ∃ reached, eval (withLedger answer notePurge) (rolling refusals readings)
      controller.getStorageMetrics (world, ledger) =
        (.ok (controller.metricsOf false (readings ledger.taken) bytes
          world.volume.canaryLatencyMs), reached, ledger.afterReading) := by
    have hmount : eval (withLedger answer notePurge) (rolling refusals readings) (catching
        ((StorageController.statfsNearestExisting controller.recordingsRoot).bind fun stats ↦
          done (false, stats)) fun _ ↦ done (true, StorageController.noReading)) (world, ledger) =
        (.ok (false, readings ledger.taken), world, ledger.afterReading) := by
      unfold StorageController.statfsNearestExisting
      rw [eval_catching, eval_bind_of_ok _ _ (eval_statfsUpwards_rolling _ _ _ _)]
      rfl
    unfold StorageController.getStorageMetrics
    simp only [call, bind_eq, request_bind, pure_eq]
    rw [eval_await, show withLedger answer notePurge (.mkdir controller.recordingsRoot) _
        (world, ledger) = ((), world, ledger) from rfl, eval_bind_of_ok _ _ hmount,
      eval_bind_of_ok _ _ hbytes, eval_bind_of_ok _ _ hcanary, eval_await]
    obtain ⟨announced, hannounced⟩ := eval_emitSome_rolling _ _ _
    rw [eval_bind_of_ok _ _ hannounced, eval_await]
    obtain ⟨alerted, halerted⟩ := eval_emitSome_rolling _ _ _
    rw [eval_bind_of_ok _ _ halerted, eval_await]
    exact ⟨_, rfl⟩
  obtain ⟨reached, heval⟩ := hmetrics
  have hkept : ∀ (request : Call) (outcome : Outcome) (state : World × PurgeLedger),
      request.isMeasurement = true →
        Undisturbed world state.1 ∧ riskCount state.1 = riskCount world →
          Undisturbed world (withLedger answer notePurge request outcome state).2.1 ∧
            riskCount (withLedger answer notePurge request outcome state).2.1 = riskCount world :=
    fun request outcome state hmeasurement hstate ↦
      ⟨hstate.1.answer request outcome _ (Call.harmless_of_isMeasurement hmeasurement),
        (riskCount_answer hmeasurement outcome _).trans hstate.2⟩
  have hreached := controller.getStorageMetrics_isMeasurement.eval (rolling refusals readings) hkept
    (⟨Undisturbed.refl world, rfl⟩ :
      Undisturbed world (world, ledger).1 ∧ riskCount (world, ledger).1 = riskCount world)
  rw [heval] at hreached
  exact ⟨_, reached, heval, rfl, hreached⟩

end Metered

end VmsLite.Recordings
