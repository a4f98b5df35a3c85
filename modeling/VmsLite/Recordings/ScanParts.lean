import VmsLite.Async.Typestate
import VmsLite.Recordings.Footprint

/-!
# The parts of a scan

A scan catalogues every camera and then passes over the motion buffer (`scan_eq`), and a pass reads
the clock first (`expireBufferedSegments_eq`). Of the cataloguing only `catalogueFile` decides
anything about a file: around it the scan makes calls that read the directory, the clock and the
catalogue, and keeps its watermark (`Call.surveys`). So whatever typestate settles these calls and
`catalogueFile` settles the cataloguing (`catalogueAll_settles`).
-/

set_option autoImplicit false

namespace VmsLite.Recordings

open VmsLite.Async Program

/-- Calls that leave rows and files alone and neither ask for motion nor announce anything. -/
def Call.surveys : Call → Bool
  | .findMotionTimes .. | .emitEvent _ => false
  | call => call.harmless

theorem Call.surveys_of_inspects {call : Call} (hinspects : call.inspects = true) :
    call.surveys = true := by
  cases call <;> first | rfl | cases hinspects

namespace SegmentIngest

variable (ingest : SegmentIngest)

/-- The cataloguing of a scan. -/
def catalogueAll : Async ℕ := do
  let cameras ← orThrow (← call .listAllCameras)
  cameras.foldlM
    (fun catalogued camera ↦
      catching
        (do
          let count ← ingest.scanCamera camera
          pure (catalogued + count))
        fun _ ↦ pure catalogued) 0

theorem scan_eq :
    ingest.scan = ingest.catalogueAll.bind fun catalogued ↦
      ingest.expireBufferedSegments.bind fun _ ↦ done catalogued := by
  unfold scan catalogueAll
  simp only [bind_eq, bind_assoc]
  rfl

/-- A pass over the motion buffer, after it has read the clock. -/
def expireAt (now : ℤ) : Async Unit := do
  let buffered ← findRecordingsByStatus .buffered maxBufferedScan
  buffered.foldlM (fun _ segment ↦ ingest.expireSegment (ingest.expiryCutoff now) segment) ()

/-! ### Typestates of the cataloguing -/

section Settles

variable {State : Type} {automaton : Typestate Call Reply State} {rests : State → Prop}
  (hsurveys : ∀ call state, call.surveys = true → rests state → automaton.permits state call ∧
    ∀ reply, automaton.expects state call reply → rests (automaton.step state call reply))
  (hfile : ∀ camera filePath start durationMs mode,
    Settles automaton rests (ingest.catalogueFile camera filePath start durationMs mode))

include hsurveys in
theorem settles_of_surveys {α : Type} {program : Async α}
    (huses : program.Uses (Call.surveys · = true)) : Settles automaton rests program :=
  Settles.of_uses huses hsurveys

include hsurveys hfile in
theorem scanNames_settles (camera : Camera) (watermark : Option ℤ) (names : List String)
    (mode : Option RecordingMode) (catalogued : ℕ) :
    Settles automaton rests (ingest.scanNames camera watermark names mode catalogued) := by
  induction names generalizing mode catalogued with
  | nil => exact Settles.done _
  | cons name newer ih =>
    unfold scanNames
    cases parseSegmentFileTime name with
    | none => exact ih mode catalogued
    | some start =>
      dsimp only
      split_ifs
      · exact ih mode catalogued
      refine (settles_of_surveys hsurveys (Uses.request rfl)).bind fun stated ↦ ?_
      cases stated with
      | error err => exact ih mode catalogued
      | ok stat =>
        refine Settles.bind (settles_of_surveys hsurveys ?_) fun inFlight ↦ ?_
        · unfold isInFlight
          split_ifs
          · exact Uses.bind (Uses.request rfl) fun _ ↦ trivial
          · trivial
        split_ifs
        · exact Settles.done _
        refine Settles.bind (settles_of_surveys hsurveys ?_) fun mode ↦ ?_
        · cases mode with
          | some mode => trivial
          | none => exact Uses.bind (Uses.request rfl) fun _ ↦ Uses.orThrow
        refine (hfile _ _ _ _ _).bind fun row ↦ ?_
        exact (settles_of_surveys hsurveys (Uses.request rfl)).bind fun _ ↦ ih _ _

include hsurveys hfile in
theorem scanCamera_settles (camera : Camera) :
    Settles automaton rests (ingest.scanCamera camera) := by
  refine (settles_of_surveys hsurveys (Uses.request rfl)).bind fun read ↦ ?_
  cases read with
  | error err =>
    dsimp only
    split_ifs
    · exact Settles.done _
    · exact Settles.failed _
  | ok entries =>
    refine Settles.bind (settles_of_surveys hsurveys ?_) fun watermark ↦
      ingest.scanNames_settles hsurveys hfile _ _ _ _ _
    refine Uses.bind (Uses.request rfl) fun known ↦ ?_
    cases known with
    | some watermark => trivial
    | none =>
      exact Uses.bind (Uses.request rfl) fun _ ↦ Uses.bind Uses.orThrow fun latest ↦
        Uses.bind (Uses.request rfl) fun _ ↦ trivial

include hsurveys hfile in
theorem catalogueAll_settles : Settles automaton rests ingest.catalogueAll := by
  refine (settles_of_surveys hsurveys (Uses.request rfl)).bind fun reply ↦
    (Settles.orThrow reply).bind fun cameras ↦ Settles.foldlM (fun catalogued camera _ ↦ ?_) 0
  exact ((ingest.scanCamera_settles hsurveys hfile camera).bind fun _ ↦ Settles.done _).catching
    fun _ ↦ Settles.done _

end Settles

end SegmentIngest

end VmsLite.Recordings
