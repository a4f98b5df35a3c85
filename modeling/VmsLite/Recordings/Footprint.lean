import VmsLite.Recordings.Evaluation
import VmsLite.Recordings.SegmentIngest
import VmsLite.Recordings.StorageInvariants

/-!
# Which calls the programs of the engine make

The calls fall into kinds: those that leave rows and files alone (`Call.harmless`), those of a
deletion (`Call.deletes`), the insert of Segment Ingest (`Call.ingests`), and the updates of a row
(`Call.keeps`). For each program of the engine, the kinds it uses, whatever the replies. What a kind
of call preserves, the programs of that kind preserve.
-/

set_option autoImplicit false

namespace VmsLite.Recordings

open VmsLite.Async Program

/-! ### Deletions -/

/-- The calls of a deletion. -/
def Call.deletes : Call → Bool
  | .updateRecordingStatus .. | .deleteRecording _ | .findRecordingsByStatus .. | .unlink _
  | .access _ => true
  | _ => false

theorem deleteRecording_uses (id : RecordingId) :
    (deleteRecording id).Uses (Call.deletes · = true) :=
  Uses.bind (Uses.request rfl) fun _ ↦ Uses.orThrow

/-- The updates of a deletion put a row on its way out. -/
def Call.removes : Call → Bool
  | .updateRecordingStatus _ status _ => status.isDeleting
  | .deleteRecording _ | .unlink _ => true
  | _ => false

/-- The row that a call puts on its way out. -/
def Call.marked : Call → Option RecordingId
  | .updateRecordingStatus id .deletePending _ => some id
  | _ => none

/-- A deletion makes the calls of one, and marks no row but its own. -/
theorem deleteSegmentInternal_marks (recordingsRoot filePath : Path) (id : RecordingId)
    (reportedSize : ℕ) :
    (deleteSegmentInternal recordingsRoot id filePath reportedSize).Uses
      fun call ↦ call.removes = true ∧ ∀ marked ∈ call.marked, marked = id := by
  unfold deleteSegmentInternal
  split_ifs
  · have hmark : ∀ marked ∈ some id, marked = id :=
      fun marked hmarked ↦ (Option.some.inj hmarked).symm
    refine Uses.bind (Uses.request ⟨rfl, hmark⟩) fun _ ↦
      Uses.bind (Uses.request ⟨rfl, nofun⟩) fun unlinked ↦ ?_
    cases unlinked with
    | ok _ =>
      refine Uses.bind (Uses.request ⟨rfl, nofun⟩) fun deleted ↦ ?_
      cases deleted with
      | ok _ => trivial
      | error dbErr => exact Uses.bind (Uses.request ⟨rfl, nofun⟩) fun _ ↦ trivial
    | error err =>
      dsimp only
      split_ifs
      · exact Uses.bind (Uses.bind (Uses.request ⟨rfl, nofun⟩) fun _ ↦ Uses.orThrow) fun _ ↦ trivial
      · exact Uses.bind (Uses.request ⟨rfl, nofun⟩) fun _ ↦ trivial
  · trivial

theorem deleteSegmentInternal_removes (recordingsRoot filePath : Path) (id : RecordingId)
    (reportedSize : ℕ) :
    (deleteSegmentInternal recordingsRoot id filePath reportedSize).Uses
      (Call.removes · = true) :=
  (deleteSegmentInternal_marks ..).mono fun _ ↦ And.left

theorem deleteSegmentInternal_uses (recordingsRoot filePath : Path) (id : RecordingId)
    (reportedSize : ℕ) :
    (deleteSegmentInternal recordingsRoot id filePath reportedSize).Uses
      (Call.deletes · = true) := by
  refine (deleteSegmentInternal_removes ..).mono fun call hcall ↦ ?_
  cases call <;> first | rfl | cases hcall

theorem reconcilePendingDeletions_uses :
    reconcilePendingDeletions.Uses (Call.deletes · = true) := by
  unfold reconcilePendingDeletions
  refine Uses.bind (Uses.bind (Uses.request rfl) fun _ ↦ Uses.orThrow) fun pending ↦ ?_
  refine Uses.foldlM fun counts seg _ ↦ ?_
  unfold reconcileSegment
  refine Uses.bind (Uses.request rfl) fun access ↦ ?_
  cases access with
  | ok _ =>
    refine Uses.catching (Uses.bind (Uses.request rfl) fun _ ↦ ?_) fun _ ↦ ?_
    · exact Uses.bind Uses.orThrow fun _ ↦ Uses.bind (deleteRecording_uses _) fun _ ↦ trivial
    · exact Uses.bind (Uses.request rfl) fun _ ↦ trivial
  | error _ => exact Uses.bind (deleteRecording_uses _) fun _ ↦ trivial

/-! ### Purges -/

namespace StorageController

variable (controller : StorageController)

section Purges

variable {allowed : Call → Prop} (hharmless : ∀ call : Call, call.harmless = true → allowed call)
  (hdeletes : ∀ call : Call, call.deletes = true → allowed call)

include hdeletes in
theorem deleteCandidate_uses (ids : List RecordingId) (progress : PurgeProgress)
    (segment : Recording) :
    (controller.deleteCandidate ids progress segment).Uses allowed := by
  unfold deleteCandidate
  split_ifs
  · refine Uses.catching (Uses.bind ?_ fun _ ↦ trivial) fun _ ↦ trivial
    exact (deleteSegmentInternal_uses _ _ _ _).mono hdeletes
  · trivial

include hharmless hdeletes in
theorem purgePass_uses {opts : PurgeOptions}
    (hcontinue : ∀ shouldContinue ∈ opts.shouldContinue, shouldContinue.Uses allowed)
    (statuses : Option (List SegmentStatus)) (iterations : ℕ) (progress : PurgeProgress) :
    (controller.purgePass opts statuses iterations progress).Uses allowed := by
  induction iterations generalizing progress with
  | zero => trivial
  | succ iterations ih =>
    refine Uses.bind (Uses.bind (Uses.request (hharmless _ rfl)) fun _ ↦ Uses.orThrow)
      fun candidates ↦ ?_
    split_ifs
    · trivial
    refine Uses.bind ?_ fun goesOn ↦ ?_
    · unfold continues
      cases hopts : opts.shouldContinue with
      | none => trivial
      | some shouldContinue => exact hcontinue shouldContinue hopts
    · split_ifs
      · refine Uses.bind ((controller.retention.deletable_uses _ _ _).mono hharmless)
          fun deletable ↦ Uses.bind (Uses.foldlM fun progress segment _ ↦ ?_) fun progress ↦ ?_
        · exact controller.deleteCandidate_uses hdeletes _ progress segment
        · split_ifs
          · trivial
          · exact ih _
      · trivial

include hharmless hdeletes in
theorem purgePasses_uses {opts : PurgeOptions}
    (hcontinue : ∀ shouldContinue ∈ opts.shouldContinue, shouldContinue.Uses allowed)
    (passes : List (Option (List SegmentStatus))) (progress : PurgeProgress) :
    (controller.purgePasses opts passes progress).Uses allowed := by
  induction passes generalizing progress with
  | nil => trivial
  | cons statuses passes ih =>
    refine Uses.bind (controller.purgePass_uses hharmless hdeletes hcontinue _ _ _) fun passed ↦ ?_
    dsimp only
    split_ifs
    · trivial
    · exact ih _

end Purges

end StorageController

/-! ### Ingest -/

/-- Calls that leave rows and files alone, and the insert of a row. -/
def Call.ingests (call : Call) : Bool :=
  match call with
  | .createRecording _ => true
  | _ => call.harmless

/-- Calls that leave rows and files alone, and the updates of a row. -/
def Call.keeps (call : Call) : Bool :=
  match call with
  | .updateRecordingTier .. | .updateRecordingStatus .. => true
  | _ => call.harmless

theorem Call.ingests_of_harmless {call : Call} (hharmless : call.harmless = true) :
    call.ingests = true := by
  cases call <;> first | rfl | exact hharmless

theorem Call.keeps_of_harmless {call : Call} (hharmless : call.harmless = true) :
    call.keeps = true := by
  cases call <;> first | rfl | exact hharmless

/-- The calls of the validator. -/
def Call.inspects : Call → Bool
  | .stat _ | .readHeader _ | .clockNow => true
  | _ => false

theorem Call.ingests_of_inspects {call : Call} (hinspects : call.inspects = true) :
    call.ingests = true := by
  cases call <;> first | rfl | cases hinspects

theorem validate_uses (recordingsRoot : Path) (opts : SegmentValidationOptions) :
    (validate recordingsRoot opts).Uses (Call.inspects · = true) := by
  unfold validate
  split_ifs
  · refine Uses.bind (Uses.request rfl) fun stated ↦ ?_
    cases stated with
    | error err => trivial
    | ok stat =>
      refine Uses.bind (Uses.request rfl) fun now ↦ ?_
      dsimp only
      split_ifs
      · trivial
      · trivial
      refine Uses.bind (Uses.request rfl) fun read ↦ ?_
      cases read with
      | error err => trivial
      | ok header =>
        dsimp only
        split
        · trivial
        · split <;> trivial
  · trivial

namespace SegmentIngest

variable (ingest : SegmentIngest)

theorem emitSegmentCreated_uses {allowed : Call → Prop}
    (hharmless : ∀ call : Call, call.harmless = true → allowed call) (recording : Recording)
    (camera : Option Camera) : (emitSegmentCreated recording camera).Uses allowed := by
  unfold emitSegmentCreated
  cases camera with
  | some camera => exact Uses.request (hharmless _ rfl)
  | none =>
    refine Uses.bind (Uses.request (hharmless _ rfl)) fun _ ↦ Uses.bind Uses.orThrow fun _ ↦ ?_
    exact Uses.request (hharmless _ rfl)

theorem keepSegment_uses (segment : Recording) :
    (keepSegment segment).Uses (Call.keeps · = true) := by
  unfold keepSegment
  refine Uses.bind (Uses.request rfl) fun _ ↦ Uses.bind (Uses.request rfl) fun updated ↦ ?_
  cases updated with
  | none => trivial
  | some kept => exact emitSegmentCreated_uses (fun _ ↦ Call.keeps_of_harmless) kept none

theorem onMotion_uses (cameraId : CameraId) (motionAt : ℤ) :
    (ingest.onMotion cameraId motionAt).Uses (Call.keeps · = true) := by
  unfold onMotion
  refine Uses.bind (Uses.request rfl) fun _ ↦ Uses.bind Uses.orThrow fun buffered ↦ ?_
  refine Uses.bind (Uses.foldlM fun _ segment _ ↦ keepSegment_uses segment) fun _ ↦ ?_
  refine Uses.bind (Uses.request rfl) fun _ ↦ Uses.bind Uses.orThrow fun available ↦ ?_
  refine Uses.bind (Uses.foldlM fun _ segment _ ↦ ?_) fun _ ↦ trivial
  split_ifs
  · exact Uses.bind (Uses.request rfl) fun _ ↦ trivial
  · trivial

theorem catalogueFile_uses (camera : Camera) (filePath : Path) (start durationMs : ℤ)
    (mode : RecordingMode) :
    (ingest.catalogueFile camera filePath start durationMs mode).Uses (Call.ingests · = true) := by
  unfold catalogueFile
  refine Uses.bind (Uses.request rfl) fun _ ↦ Uses.bind Uses.orThrow fun found ↦ ?_
  cases found with
  | some existing => trivial
  | none =>
    refine Uses.bind ((validate_uses _ _).mono fun _ ↦ Call.ingests_of_inspects) fun validated ↦ ?_
    cases validated with
    | error failure =>
      dsimp only
      split_ifs
      · trivial
      · refine Uses.bind (Uses.request rfl) fun stated ↦ ?_
        cases stated <;>
          exact Uses.bind (Uses.request rfl) fun _ ↦ Uses.bind Uses.orThrow fun _ ↦ trivial
    | ok validation =>
      have hnear : (ingest.isNearMotion camera.id validation.startTime validation.endTime).Uses
          (Call.ingests · = true) :=
        Uses.bind (Uses.request rfl) fun _ ↦ Uses.bind Uses.orThrow fun _ ↦ trivial
      refine Uses.bind hnear fun nearMotion ↦ ?_
      refine Uses.bind (Uses.request rfl) fun _ ↦ Uses.bind Uses.orThrow fun recording ↦ ?_
      split_ifs
      · refine Uses.bind (emitSegmentCreated_uses (fun _ ↦ Call.ingests_of_harmless) _ _) ?_
        exact fun _ ↦ trivial
      · trivial

theorem scanNames_uses (camera : Camera) (watermark : Option ℤ) (names : List String)
    (mode : Option RecordingMode) (catalogued : ℕ) :
    (ingest.scanNames camera watermark names mode catalogued).Uses (Call.ingests · = true) := by
  induction names generalizing mode catalogued with
  | nil => trivial
  | cons name newer ih =>
    unfold scanNames
    cases parseSegmentFileTime name with
    | none => exact ih mode catalogued
    | some start =>
      dsimp only
      split_ifs
      · exact ih mode catalogued
      refine Uses.bind (Uses.request rfl) fun stated ↦ ?_
      cases stated with
      | error err => exact ih mode catalogued
      | ok stat =>
        refine Uses.bind ?_ fun inFlight ↦ ?_
        · unfold isInFlight
          split_ifs
          · exact Uses.bind (Uses.request rfl) fun _ ↦ trivial
          · trivial
        split_ifs
        · trivial
        refine Uses.bind ?_ fun mode ↦ ?_
        · cases mode with
          | some mode => trivial
          | none => exact Uses.bind (Uses.request rfl) fun _ ↦ Uses.orThrow
        refine Uses.bind (ingest.catalogueFile_uses _ _ _ _ _) fun row ↦ ?_
        exact Uses.bind (Uses.request rfl) fun _ ↦ ih _ _

theorem scanCamera_uses (camera : Camera) :
    (ingest.scanCamera camera).Uses (Call.ingests · = true) := by
  unfold scanCamera
  refine Uses.bind (Uses.request rfl) fun read ↦ ?_
  cases read with
  | error err =>
    dsimp only
    split_ifs <;> trivial
  | ok entries =>
    refine Uses.bind (Uses.bind (Uses.request rfl) fun known ↦ ?_) fun watermark ↦ ?_
    · cases known with
      | some watermark => trivial
      | none =>
        refine Uses.bind (Uses.request rfl) fun _ ↦ Uses.bind Uses.orThrow fun latest ↦ ?_
        exact Uses.bind (Uses.request rfl) fun _ ↦ trivial
    · exact ingest.scanNames_uses _ _ _ _ _

end SegmentIngest

/-! ### The audit -/

theorem auditRecording_uses (validPaths : List String)
    (progress : List Path × InvariantAuditReport) (row : Recording) :
    (auditRecording validPaths progress row).Uses (Call.keeps · = true) := by
  unfold auditRecording
  refine Uses.bind ?_ fun checked ↦ trivial
  unfold checkFile
  split_ifs
  · refine Uses.bind (Uses.request rfl) fun access ↦ ?_
    cases access with
    | ok _ => trivial
    | error _ => exact Uses.bind (Uses.request rfl) fun _ ↦ trivial
  · trivial

theorem auditDirectories_uses (recordingsRoot : Path) (validPaths : List String)
    (report : InvariantAuditReport) :
    (auditDirectories recordingsRoot validPaths report).Uses (Call.keeps · = true) := by
  unfold auditDirectories
  refine Uses.bind (Uses.request rfl) fun read ↦ ?_
  cases read <;> trivial

end VmsLite.Recordings
