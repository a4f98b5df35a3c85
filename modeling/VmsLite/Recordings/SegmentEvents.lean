import Mathlib.Data.List.Perm.Basic
import VmsLite.Async.Observation
import VmsLite.Recordings.ScanParts

/-!
# Segment-created events

Scans and motion notifications side by side, with any failures. An observer notes which recordings
become AVAILABLE. A thread that has made one AVAILABLE owes an event for it: what has been emitted
and what is owed together are what has become AVAILABLE (`Balanced`), as long as every promotion
finds a row that has not become AVAILABLE before (`PromotesOnce`). Nothing in the code sees to that:
`onMotion` promotes the rows it was listed without looking at them again.
-/

set_option autoImplicit false

namespace VmsLite.Recordings

open VmsLite.Async Program

/-! ### What becomes AVAILABLE -/

def World.isAvailable (world : World) (id : RecordingId) : Bool :=
  (world.recordings.find id).any fun row ↦ row.status = .available

/-- The recording that a call makes AVAILABLE. -/
def madeAvailable : (call : Call) → Reply call → World → Option RecordingId
  | .createRecording _, .ok row, _ => if row.status = .available then some row.id else none
  | .updateRecordingStatus id .available _, some _, world =>
    if world.isAvailable id then none else some id
  | _, _, _ => none

def observeCreated (_ : Unit) (call : Call) (reply : Reply call) (world : World)
    (became : List RecordingId) : List RecordingId :=
  became ++ (madeAvailable call reply world).toList

/-- The recordings that became AVAILABLE, beside the world. -/
abbrev creationMachine : Machine (Unit × Call) (fun call ↦ Reply call.2) (World × List RecordingId)
    Outcome EnvironmentChange :=
  machine.watched observeCreated

abbrev CreationSystem : Type :=
  System (Unit × Call) (fun call ↦ Reply call.2) Failure (World × List RecordingId) Unit

def BusEvent.createdId : BusEvent → Option RecordingId
  | .segmentCreated recording => some recording.id
  | _ => none

/-- The recordings that a `recording.segment_created` was emitted for, in order. -/
def createdIds (world : World) : List RecordingId := world.emitted.filterMap BusEvent.createdId

/-! ### Runs -/

/-- The moves of a run; awaited calls meet a condition. -/
inductive IngestMove (ingest : SegmentIngest)
    (condition : Call → Outcome → World × List RecordingId → Prop) (system : CreationSystem) :
    Move (Unit × Call) (fun call ↦ Reply call.2) Failure Outcome EnvironmentChange Unit → Prop
  | scan : IngestMove ingest condition system
      (.start () ((ingest.scan.bind fun _ ↦ done ()).labelled ()))
  | motion (cameraId : CameraId) (motionAt : ℤ) : IngestMove ingest condition system
      (.start () (((ingest.onMotion cameraId motionAt).bind fun _ ↦ done ()).labelled ()))
  | advance (thread : ℕ) (outcome : Outcome)
    (hcall : ∀ call next, system.threads[thread]? = some ((), .await ((), call) next) →
      condition call outcome system.world) :
    IngestMove ingest condition system (.advance thread outcome)
  | environment (event : EnvironmentChange) :
    IngestMove ingest condition system (.environment event)

/-- A row that a promotion finds is not AVAILABLE and has not become so before, and the camera of a
promoted segment can be read. -/
def PromotesOnce : Call → Outcome → World × List RecordingId → Prop
  | .updateRecordingStatus id .available _, outcome, world =>
    outcome.passes = true → ∀ row, world.1.recordings.find id = some row →
      row.status ≠ .available ∧ id ∉ world.2
  | .getCameraById _, outcome, _ => outcome.passes = true
  | _, _, _ => True

/-- At most one event was emitted for each recording, only for recordings that became AVAILABLE,
and, once all calls have completed, for each of them. -/
structure CreatedOnce (system : CreationSystem) : Prop where
  once : (createdIds system.world.1).Nodup
  sound : ∀ id ∈ createdIds system.world.1, id ∈ system.world.2
  complete : (∀ thread ∈ system.threads, thread.2.isOver = true) →
    ∀ id ∈ system.world.2, id ∈ createdIds system.world.1

/-- A run of scans and motion notifications, as far as it has come. -/
structure CreationRun (condition : Call → Outcome → World × List RecordingId → Prop) where
  ingest : SegmentIngest
  world : World
  system : CreationSystem
  fresh : createdIds world = []
  reached : Reaches creationMachine.move (IngestMove ingest condition)
    { threads := [], world := (world, []) } system

/-! ### The typestate of a thread -/

/-- Where a thread is: it may owe the event of a recording. -/
inductive CreationState
  | idle
  | owes (id : RecordingId)

def CreationState.owed : CreationState → List RecordingId
  | .idle => []
  | .owes id => [id]

def creationPermits : CreationState → Call → Prop
  | .idle, .emitEvent event => event.createdId = none
  | .idle, _ => True
  | .owes _, .getCameraById _ => True
  | .owes id, .emitEvent event => event.createdId = some id
  | .owes _, _ => False

def creationExpects : CreationState → (call : Call) → Reply call → Prop
  | .idle, .createRecording data, reply => ∀ row, reply = .ok row → row.status = data.status
  | .owes _, .getCameraById _, reply => ∃ camera, reply = .ok camera
  | _, _, _ => True

def creationStep : CreationState → (call : Call) → Reply call → CreationState
  | .idle, .createRecording _, .ok row => if row.status = .available then .owes row.id else .idle
  | .idle, .updateRecordingStatus _ .available _, some row => .owes row.id
  | .owes _, .emitEvent _, _ => .idle
  | state, _, _ => state

def creation : Typestate Call Reply CreationState where
  permits := creationPermits
  expects := creationExpects
  step := creationStep

/-- The calls that neither make a recording AVAILABLE nor announce one. -/
def Call.isQuiet : Call → Bool
  | .createRecording _ | .updateRecordingStatus _ .available _ | .emitEvent _ => false
  | _ => true

theorem creationStep_of_isQuiet {call : Call} (hcall : call.isQuiet = true) (reply : Reply call) :
    creationStep .idle call reply = .idle := by
  cases call with
  | createRecording data => cases hcall
  | updateRecordingStatus id status reason =>
    cases status with
    | available => cases hcall
    | _ => rfl
  | _ => rfl

theorem creationPermits_of_isQuiet {call : Call} (hcall : call.isQuiet = true) :
    creationPermits .idle call := by
  cases call <;> trivial

/-! ### The programs follow it -/

/-- A program that owes no event at its start owes none at its end. -/
abbrev PaysUp {α : Type} (program : Async α) : Prop := Settles creation (· = .idle) program

theorem PaysUp.of_quiet {α : Type} {program : Async α}
    (huses : program.Uses (Call.isQuiet · = true)) :
    PaysUp program := by
  refine Settles.of_uses huses fun call state hcall hidle ↦ ?_
  obtain rfl := hidle
  exact ⟨creationPermits_of_isQuiet hcall, fun reply _ ↦ creationStep_of_isQuiet hcall reply⟩

theorem isQuiet_of_inspects {call : Call} (hcall : call.inspects = true) : call.isQuiet = true := by
  cases call <;> first | rfl | cases hcall

theorem isQuiet_of_surveys {call : Call} (hcall : call.surveys = true) : call.isQuiet = true := by
  cases call <;> first | rfl | cases hcall

theorem isQuiet_of_removes {call : Call} (hcall : call.removes = true) : call.isQuiet = true := by
  cases call with
  | updateRecordingStatus id status reason =>
    cases status with
    | available => cases hcall
    | _ => rfl
  | emitEvent event => cases hcall
  | createRecording data => cases hcall
  | _ => rfl

namespace SegmentIngest

variable (ingest : SegmentIngest)

/-- Announcing a recording pays the event that is owed for it. -/
theorem emitSegmentCreated_follows (recording : Recording) (camera : Option Camera) :
    (emitSegmentCreated recording camera).Follows creation (fun _ ↦ (· = .idle))
    (fun _ ↦ (· = .idle))
      (.owes recording.id) := by
  unfold emitSegmentCreated
  cases camera with
  | some camera => exact ⟨rfl, fun _ _ ↦ rfl⟩
  | none =>
    refine ⟨trivial, fun reply hreply ↦ ?_⟩
    obtain ⟨camera, rfl⟩ := hreply
    exact ⟨rfl, fun _ _ ↦ rfl⟩

theorem keepSegment_paysUp (segment : Recording) : PaysUp (keepSegment segment) := by
  refine (PaysUp.of_quiet (Uses.request rfl)).bind fun _ state hidle ↦ ?_
  obtain rfl := hidle
  refine ⟨trivial, fun reply _ ↦ ?_⟩
  cases reply with
  | none => exact rfl
  | some kept => exact emitSegmentCreated_follows kept none

theorem onMotion_paysUp (cameraId : CameraId) (motionAt : ℤ) :
    PaysUp (ingest.onMotion cameraId motionAt) := by
  refine (PaysUp.of_quiet (Uses.request rfl)).bind fun reply ↦ (Settles.orThrow reply).bind
    fun buffered ↦ (Settles.foldlM (fun _ segment _ ↦ keepSegment_paysUp segment) ()).bind fun _ ↦
      ?_
  refine (PaysUp.of_quiet (Uses.request rfl)).bind fun reply ↦ (Settles.orThrow reply).bind
    fun available ↦ (Settles.foldlM (fun _ segment _ ↦ ?_) ()).bind fun _ ↦ Settles.done _
  split_ifs
  · exact (PaysUp.of_quiet (Uses.request rfl)).bind fun _ ↦ Settles.done ()
  · exact Settles.done ()

/-- Inserting a row that is not AVAILABLE owes nothing. -/
theorem createRecording_follows {α : Type} {data : NewRecording} {rest : Recording → Async α}
    (hrest : ∀ row, row.status = data.status → (rest row).Follows creation (fun _ ↦ (· = .idle))
      (fun _ ↦ (· = .idle)) (if data.status = .available then .owes row.id else .idle)) :
    PaysUp ((call (.createRecording data)).bind fun reply ↦ (orThrow reply).bind rest) := by
  intro state hidle
  obtain rfl := hidle
  refine ⟨trivial, fun reply hreply ↦ ?_⟩
  cases reply with
  | error error => exact rfl
  | ok row =>
    have hstatus := hreply row rfl
    show (rest row).Follows creation _ _ (if row.status = .available then _ else _)
    rw [hstatus]
    exact hrest row hstatus

theorem catalogueFile_paysUp (camera : Camera) (filePath : Path) (start durationMs : ℤ)
    (mode : RecordingMode) :
    PaysUp (ingest.catalogueFile camera filePath start durationMs mode) := by
  refine (PaysUp.of_quiet (Uses.request rfl)).bind fun reply ↦ (Settles.orThrow reply).bind
    fun found ↦ ?_
  cases found with
  | some existing => exact Settles.done _
  | none =>
    refine (PaysUp.of_quiet ((validate_uses _ _).mono fun _ ↦ isQuiet_of_inspects)).bind
      fun validated ↦ ?_
    cases validated with
    | error failure =>
      dsimp only
      split_ifs
      · exact Settles.done _
      · refine (PaysUp.of_quiet (Uses.request rfl)).bind fun stated ↦ ?_
        exact createRecording_follows fun row _ ↦ rfl
    | ok validation =>
      have hnear : (ingest.isNearMotion camera.id validation.startTime validation.endTime).Uses
          (Call.isQuiet · = true) :=
        Uses.bind (Uses.request rfl) fun _ ↦ Uses.bind Uses.orThrow fun _ ↦ trivial
      refine (PaysUp.of_quiet hnear).bind fun nearMotion ↦ createRecording_follows fun row _ ↦ ?_
      split_ifs with havailable
      · exact (emitSegmentCreated_follows row (some camera)).bind fun _ _ hidle ↦ hidle
      · exact rfl

theorem expireBufferedSegments_quiet :
    ingest.expireBufferedSegments.Uses (Call.isQuiet · = true) := by
  refine Uses.bind (Uses.request rfl) fun now ↦
    Uses.bind (Uses.bind (Uses.request rfl) fun _ ↦ Uses.orThrow) fun buffered ↦
      Uses.foldlM fun _ segment _ ↦ ?_
  unfold expireSegment
  split_ifs
  · trivial
  · exact Uses.catching (((deleteSegmentInternal_removes _ _ _ _).mono
      fun _ ↦ isQuiet_of_removes).bind fun _ ↦ trivial) fun _ ↦ trivial

theorem scan_paysUp : PaysUp ingest.scan := by
  rw [scan_eq]
  refine (ingest.catalogueAll_settles (fun call state hcall hidle ↦ ?_)
    ingest.catalogueFile_paysUp).bind fun _ ↦
      (PaysUp.of_quiet ingest.expireBufferedSegments_quiet).bind fun _ ↦ Settles.done _
  obtain rfl := hidle
  have hquiet := isQuiet_of_surveys hcall
  exact ⟨creationPermits_of_isQuiet hquiet, fun reply _ ↦ creationStep_of_isQuiet hquiet reply⟩

end SegmentIngest

/-! ### What a call does -/

section Answers

variable {call : Call} (outcome : Outcome) {world : World}

theorem isAvailable_iff {id : RecordingId} :
    world.isAvailable id = true ↔ ∃ row ∈ world.recordings.rows, row.id = id ∧
      row.status = .available := by
  unfold World.isAvailable
  rw [Option.any_eq_true]
  constructor
  · rintro ⟨row, hfind, hstatus⟩
    obtain ⟨hrow, hid⟩ := RecordingTable.find_eq_some_iff.mp hfind
    exact ⟨row, hrow, hid, of_decide_eq_true hstatus⟩
  · rintro ⟨row, hrow, hid, hstatus⟩
    exact ⟨row, RecordingTable.find_eq_some_iff.mpr ⟨hrow, hid⟩, decide_eq_true hstatus⟩

/-- Fewer rows, or the same ones with their identifiers and statuses, make no recording
AVAILABLE. -/
theorem isAvailable_of_rows {later : World} {id : RecordingId}
    (hrows : ∀ row ∈ later.recordings.rows, ∃ old ∈ world.recordings.rows, old.id = row.id ∧
      old.status = row.status)
    (havailable : later.isAvailable id = true) : world.isAvailable id = true := by
  obtain ⟨row, hrow, rfl, hstatus⟩ := isAvailable_iff.mp havailable
  obtain ⟨old, hold, hid, hsame⟩ := hrows row hrow
  exact isAvailable_iff.mpr ⟨old, hold, hid, hsame.trans hstatus⟩

variable (world) in
/-- The events and the identifiers that were drawn, which only an event and an insert add to. -/
theorem answer_leaves (hcall : ∀ event, call ≠ .emitEvent event) :
    (answer call outcome world).2.emitted = world.emitted ∧
      world.recordings.nextId ≤ (answer call outcome world).2.recordings.nextId := by
  have hupdate : ∀ id patch, (world.answerUpdate id patch outcome).2.emitted = world.emitted ∧
      world.recordings.nextId ≤ (world.answerUpdate id patch outcome).2.recordings.nextId := by
    intro id patch
    rcases world.answerUpdate_cases id patch outcome with ⟨-, hdone⟩ | ⟨-, hfailed⟩
    · rw [hdone]
      exact ⟨rfl, le_rfl⟩
    · rw [hfailed]
      exact ⟨rfl, le_rfl⟩
  cases call with
  | emitEvent event => exact absurd rfl (hcall event)
  | createRecording data =>
    show (world.answerCreate data outcome).2.emitted = _ ∧
      _ ≤ (world.answerCreate data outcome).2.recordings.nextId
    rcases world.answerCreate_cases data outcome with ⟨hfree, hdone⟩ | ⟨error, hfailed⟩
    · rw [hdone]
      exact ⟨rfl, Nat.le_succ _⟩
    · rw [hfailed]
      exact ⟨rfl, le_rfl⟩
  | updateRecordingTier id tier => exact hupdate ..
  | updateRecordingStatus id status reason => exact hupdate ..
  | deleteRecording id =>
    show (world.answerDelete id outcome).2.emitted = _ ∧
      _ ≤ (world.answerDelete id outcome).2.recordings.nextId
    rcases world.answerDelete_cases id outcome with hdone | ⟨error, hfailed⟩
    · rw [hdone]
      exact ⟨rfl, le_rfl⟩
    · rw [hfailed]
      exact ⟨rfl, le_rfl⟩
  | deleteCamera cameraId =>
    show (world.answerDeleteCamera cameraId outcome).2.emitted = _ ∧
      _ ≤ (world.answerDeleteCamera cameraId outcome).2.recordings.nextId
    unfold World.answerDeleteCamera
    split
    · exact ⟨rfl, le_rfl⟩
    · split_ifs
      · exact ⟨rfl, le_rfl⟩
      · exact ⟨rfl, le_rfl⟩
  | unlink path =>
    show (world.answerUnlink path outcome).2.emitted = _ ∧
      _ ≤ (world.answerUnlink path outcome).2.recordings.nextId
    rcases world.answerUnlink_cases path outcome with ⟨-, hdone⟩ | ⟨error, hfailed, -⟩
    · rw [hdone]
      exact ⟨rfl, le_rfl⟩
    · rw [hfailed]
      exact ⟨rfl, le_rfl⟩
  | _ => exact ⟨rfl, le_rfl⟩

theorem madeAvailable_of_isQuiet (hcall : call.isQuiet = true) (reply : Reply call)
    (world : World) :
    madeAvailable call reply world = none := by
  cases call with
  | createRecording data => cases hcall
  | updateRecordingStatus id status reason =>
    cases status with
    | available => cases hcall
    | _ => rfl
  | _ => rfl

theorem isAvailable_nextId (world : World) : world.isAvailable world.recordings.nextId = false := by
  rw [Bool.eq_false_iff]
  intro havailable
  obtain ⟨row, hrow, hid, -⟩ := isAvailable_iff.mp havailable
  exact (world.recordings.ids_lt row hrow).ne hid

theorem isAvailable_insert {data : NewRecording}
    (hfree : ∀ row ∈ world.recordings.rows, row.filePath ≠ data.filePath) (id : RecordingId) :
    World.isAvailable { world with recordings := world.recordings.insert data hfree } id = true ↔
      world.isAvailable id = true ∨ world.recordings.nextId = id ∧ data.status = .available := by
  rw [isAvailable_iff, isAvailable_iff]
  constructor
  · rintro ⟨row, hrow, hid, hstatus⟩
    rcases List.mem_append.mp hrow with hold | hnew
    · exact Or.inl ⟨row, hold, hid, hstatus⟩
    · obtain rfl := List.mem_singleton.mp hnew
      exact Or.inr ⟨hid, hstatus⟩
  · rintro (⟨row, hrow, hid, hstatus⟩ | ⟨hid, hstatus⟩)
    · exact ⟨row, List.mem_append_left _ hrow, hid, hstatus⟩
    · exact ⟨_, List.mem_append_right _ List.mem_cons_self, hid, hstatus⟩

theorem isAvailable_updateRow (id : RecordingId) (patch : RowPatch) (other : RecordingId) :
    (world.updateRow id patch).isAvailable other = true ↔
      if other = id then ∃ row ∈ world.recordings.rows, row.id = id ∧
        patch.status.getD row.status = .available
      else world.isAvailable other = true := by
  rw [isAvailable_iff]
  split_ifs with hsame
  · subst hsame
    constructor
    · rintro ⟨row, hrow, hid, hstatus⟩
      obtain ⟨old, hold, rfl⟩ := RecordingTable.mem_update.mp hrow
      split_ifs at hid hstatus with hold'
      · exact ⟨old, hold, hold', hstatus⟩
      · exact absurd hid hold'
    · rintro ⟨row, hrow, hid, hstatus⟩
      exact ⟨patch.apply row, RecordingTable.mem_update.mpr ⟨row, hrow, (if_pos hid).symm⟩, hid,
        hstatus⟩
  · rw [isAvailable_iff]
    constructor
    · rintro ⟨row, hrow, hid, hstatus⟩
      obtain ⟨old, hold, rfl⟩ := RecordingTable.mem_update.mp hrow
      split_ifs at hid hstatus with hold'
      · exact absurd (hid.symm.trans hold') hsame
      · exact ⟨old, hold, hid, hstatus⟩
    · rintro ⟨row, hrow, hid, hstatus⟩
      have hne : row.id ≠ id := fun hid' ↦ hsame (hid.symm.trans hid')
      exact ⟨row, RecordingTable.mem_update.mpr ⟨row, hrow, (if_neg hne).symm⟩, hid, hstatus⟩

/-- A call that adds no row and changes no status makes nothing AVAILABLE. -/
theorem not_becomes_of_rows {later : World} {id : RecordingId}
    (hrows : ∀ row ∈ later.recordings.rows, ∃ old ∈ world.recordings.rows, old.id = row.id ∧
      old.status = row.status) :
    (none : Option RecordingId) = some id ↔
      world.isAvailable id = false ∧ later.isAvailable id = true := by
  refine ⟨nofun, fun ⟨hbefore, hafter⟩ ↦ ?_⟩
  rw [isAvailable_of_rows hrows hafter] at hbefore
  cases hbefore

theorem not_becomes_of_recordings {later : World} {id : RecordingId}
    (hrecordings : later.recordings = world.recordings) :
    (none : Option RecordingId) = some id ↔
      world.isAvailable id = false ∧ later.isAvailable id = true :=
  not_becomes_of_rows fun row hrow ↦ ⟨row, hrecordings ▸ hrow, rfl, rfl⟩

theorem not_becomes_of_remove (condition : Recording → Bool) {id : RecordingId} :
    (none : Option RecordingId) = some id ↔
      world.isAvailable id = false ∧ (world.removeRows condition).isAvailable id = true :=
  not_becomes_of_rows fun row hrow ↦ ⟨row, (RecordingTable.mem_remove.mp hrow).1, rfl, rfl⟩

/-- Setting a row AVAILABLE makes it so, unless it is already or is not there. -/
theorem madeAvailable_promote_iff (id : RecordingId) (reason : Option String)
    (other : RecordingId) :
    madeAvailable (.updateRecordingStatus id .available reason)
        ((world.recordings.update id
          { status := some .available, errorReason := some reason }).find id) world = some other ↔
      world.isAvailable other = false ∧
        (world.updateRow id { status := some .available, errorReason := some reason }).isAvailable
          other = true := by
  let patch : RowPatch := { status := some .available, errorReason := some reason }
  rw [isAvailable_updateRow]
  cases hfind : (world.recordings.update id patch).find id with
  | none =>
    refine ⟨nofun, ?_⟩
    rintro ⟨hbefore, hafter⟩
    split_ifs at hafter with hsame
    · obtain ⟨row, hrow, rfl, -⟩ := hafter
      have hthere := RecordingTable.find_update_isSome hrow patch
      rw [hfind] at hthere
      cases hthere
    · rw [hafter] at hbefore
      cases hbefore
  | some found =>
    obtain ⟨old, hfound, -⟩ := RecordingTable.find_update_eq_some hfind
    obtain ⟨hold, hthere⟩ := RecordingTable.find_eq_some_iff.mp hfound
    show (if world.isAvailable id then none else some id) = some other ↔ _
    by_cases hsame : other = id
    · rw [if_pos hsame, hsame]
      by_cases havailable : world.isAvailable id = true
      · rw [if_pos havailable, havailable]
        exact ⟨nofun, fun hboth ↦ nomatch hboth.1⟩
      · rw [if_neg havailable]
        exact ⟨fun _ ↦ ⟨Bool.eq_false_iff.mpr havailable, old, hold, hthere, rfl⟩, fun _ ↦ rfl⟩
    · rw [if_neg hsame]
      constructor
      · intro hother
        split_ifs at hother
        exact absurd (Option.some.inj hother).symm hsame
      · rintro ⟨hbefore, hafter⟩
        rw [hafter] at hbefore
        cases hbefore

/-- The observer notes what becomes AVAILABLE, and nothing else. -/
theorem madeAvailable_iff (call : Call) (id : RecordingId) :
    madeAvailable call (answer call outcome world).1 world = some id ↔
      world.isAvailable id = false ∧ (answer call outcome world).2.isAvailable id = true := by
  cases call with
  | createRecording data =>
    show madeAvailable (.createRecording data) (world.answerCreate data outcome).1 world = _ ↔
      _ ∧ (world.answerCreate data outcome).2.isAvailable id = true
    rcases world.answerCreate_cases data outcome with ⟨hfree, hdone⟩ | ⟨error, hfailed⟩
    · rw [hdone, isAvailable_insert]
      show (if data.status = .available then some world.recordings.nextId else none) = some id ↔ _
      split_ifs with havailable
      · constructor
        · intro hid
          obtain rfl := Option.some.inj hid
          exact ⟨isAvailable_nextId world, Or.inr ⟨rfl, havailable⟩⟩
        · rintro ⟨hbefore, hold | ⟨rfl, -⟩⟩
          · rw [hold] at hbefore
            cases hbefore
          · rfl
      · refine ⟨nofun, ?_⟩
        rintro ⟨hbefore, hold | ⟨-, hstatus⟩⟩
        · rw [hold] at hbefore
          cases hbefore
        · exact absurd hstatus havailable
    · rw [hfailed]
      exact not_becomes_of_recordings rfl
  | updateRecordingTier other tier =>
    show (none : Option RecordingId) = _ ↔ _ ∧
      (world.answerUpdate other _ outcome).2.isAvailable id = true
    rcases world.answerUpdate_cases other { retentionTier := some tier } outcome with
      ⟨-, hdone⟩ | ⟨-, hfailed⟩
    · rw [hdone]
      refine not_becomes_of_rows fun row hrow ↦ ?_
      obtain ⟨old, hold, rfl⟩ := RecordingTable.mem_update.mp hrow
      refine ⟨old, hold, ?_, ?_⟩
      · split_ifs <;> rfl
      · split_ifs <;> rfl
    · rw [hfailed]
      exact not_becomes_of_recordings rfl
  | updateRecordingStatus other status reason =>
    show madeAvailable (.updateRecordingStatus other status reason)
      (world.answerUpdate other { status := some status, errorReason := some reason } outcome).1
        world = _ ↔ _ ∧ (world.answerUpdate other _ outcome).2.isAvailable id = true
    rcases world.answerUpdate_cases other { status := some status, errorReason := some reason }
      outcome with ⟨-, hdone⟩ | ⟨-, hfailed⟩
    · rw [hdone]
      cases status with
      | available => exact madeAvailable_promote_iff other reason id
      | _ =>
        refine ⟨nofun, fun ⟨hbefore, hafter⟩ ↦ ?_⟩
        rw [isAvailable_updateRow] at hafter
        split_ifs at hafter
        · obtain ⟨row, -, -, hstatus⟩ := hafter
          cases hstatus
        · rw [hafter] at hbefore
          cases hbefore
    · rw [hfailed]
      cases status <;> exact not_becomes_of_recordings rfl
  | deleteRecording other =>
    show (none : Option RecordingId) = _ ↔ _ ∧ (world.answerDelete other outcome).2.isAvailable id =
      true
    rcases world.answerDelete_cases other outcome with hdone | ⟨error, hfailed⟩
    · rw [hdone]
      exact not_becomes_of_remove _
    · rw [hfailed]
      exact not_becomes_of_recordings rfl
  | deleteCamera cameraId =>
    show (none : Option RecordingId) = _ ↔
      _ ∧ (world.answerDeleteCamera cameraId outcome).2.isAvailable id = true
    refine not_becomes_of_rows fun row hrow ↦ ⟨row, ?_, rfl, rfl⟩
    unfold World.answerDeleteCamera at hrow
    split at hrow
    · exact hrow
    · split_ifs at hrow
      · exact (RecordingTable.mem_remove.mp hrow).1
      · exact hrow
  | unlink path =>
    show (none : Option RecordingId) = _ ↔ _ ∧ (world.answerUnlink path outcome).2.isAvailable id =
      true
    rcases world.answerUnlink_cases path outcome with ⟨-, hdone⟩ | ⟨error, hfailed, -⟩
    · rw [hdone]
      exact not_becomes_of_recordings rfl
    · rw [hfailed]
      exact not_becomes_of_recordings rfl
  | _ => exact not_becomes_of_recordings rfl

end Answers

/-! ### What has been emitted and what is owed -/

/-- The typestate of a thread whose calls are watched. -/
def announcing : Typestate (Unit × Call) (fun call ↦ Reply call.2) CreationState where
  permits := fun state call ↦ creationPermits state call.2
  expects := fun state call ↦ creationExpects state call.2
  step := fun state call ↦ creationStep state call.2

theorem PaysUp.labelled {program : Async Unit} (hpays : PaysUp program) :
    (program.labelled ()).Follows announcing (fun _ ↦ (· = .idle)) (fun _ ↦ (· = .idle)) .idle :=
  (hpays .idle rfl).labelled fun _ _ hpermits ↦ ⟨hpermits, fun _ hexpects ↦ ⟨hexpects, rfl⟩⟩

/-- What has been emitted and what is owed together are what has become AVAILABLE, each once. -/
structure Balanced (world : World × List RecordingId) (owed : List RecordingId) : Prop where
  paid : (createdIds world.1 ++ owed).Perm world.2
  once : world.2.Nodup
  known : ∀ id ∈ world.2, id < world.1.recordings.nextId

namespace Balanced

variable {world : World × List RecordingId} {owed others : List RecordingId}

theorem perm (hbalanced : Balanced world owed) (hperm : owed.Perm others) :
    Balanced world others where
  paid := (hperm.symm.append_left _).trans hbalanced.paid
  once := hbalanced.once
  known := hbalanced.known

/-- The events and the rows that were drawn are all that the balance reads of the world. -/
theorem of_leaves (hbalanced : Balanced world owed) {later : World}
    (hemitted : later.emitted = world.1.emitted)
    (hnext : world.1.recordings.nextId ≤ later.recordings.nextId) :
    Balanced (later, world.2) owed where
  paid := by
    have hsame : createdIds later = createdIds world.1 := by rw [createdIds, hemitted, createdIds]
    rw [hsame]
    exact hbalanced.paid
  once := hbalanced.once
  known := fun id hid ↦ (hbalanced.known id hid).trans_le hnext

/-- A recording that becomes AVAILABLE is owed an event. -/
theorem owe (hbalanced : Balanced world owed) {id : RecordingId} (hnew : id ∉ world.2)
    (hknown : id < world.1.recordings.nextId) :
    Balanced (world.1, world.2 ++ [id]) (id :: owed) where
  paid := by
    have hmiddle : (createdIds world.1 ++ id :: owed).Perm (id :: (createdIds world.1 ++ owed)) :=
      List.perm_middle
    exact (hmiddle.trans (hbalanced.paid.cons id)).trans
      (List.perm_append_singleton id world.2).symm
  once := List.nodup_append.mpr ⟨hbalanced.once, List.nodup_singleton id, by
    rintro other hother found hfound rfl
    rw [List.mem_singleton.mp hfound] at hother
    exact hnew hother⟩
  known := by
    intro other hother
    rcases List.mem_append.mp hother with hold | hlast
    · exact hbalanced.known other hold
    · rwa [List.mem_singleton.mp hlast]

end Balanced

/-- An idle thread owes what its call has made AVAILABLE, and this has not become so before. -/
theorem owed_creationStep {call : Call} {outcome : Outcome} {world : World × List RecordingId}
    (hcall : ∀ event, call ≠ .emitEvent event) (honce : PromotesOnce call outcome world)
    (hknown : ∀ id ∈ world.2, id < world.1.recordings.nextId) :
    (creationStep .idle call (answer call outcome world.1).1).owed =
        (madeAvailable call (answer call outcome world.1).1 world.1).toList ∧
      ∀ id, madeAvailable call (answer call outcome world.1).1 world.1 = some id →
        id ∉ world.2 ∧ id < (answer call outcome world.1).2.recordings.nextId := by
  by_cases hquiet : call.isQuiet = true
  · rw [creationStep_of_isQuiet hquiet, madeAvailable_of_isQuiet hquiet]
    exact ⟨rfl, nofun⟩
  cases call with
  | createRecording data =>
    show (creationStep .idle (.createRecording data) (world.1.answerCreate data outcome).1).owed =
        (madeAvailable (.createRecording data) (world.1.answerCreate data outcome).1
          world.1).toList ∧
      ∀ id, madeAvailable (.createRecording data) (world.1.answerCreate data outcome).1 world.1 =
        some id → id ∉ world.2 ∧ id < (world.1.answerCreate data outcome).2.recordings.nextId
    rcases world.1.answerCreate_cases data outcome with ⟨hfree, hdone⟩ | ⟨error, hfailed⟩
    · rw [hdone]
      by_cases havailable : data.status = .available
      · have hmade : madeAvailable (.createRecording data)
            (.ok (data.toRecording world.1.recordings.nextId)) world.1 =
              some world.1.recordings.nextId := if_pos havailable
        have hstep : creationStep .idle (.createRecording data)
            (.ok (data.toRecording world.1.recordings.nextId)) =
              .owes world.1.recordings.nextId := if_pos havailable
        rw [hmade, hstep]
        refine ⟨rfl, fun id hid ↦ ?_⟩
        obtain rfl := Option.some.inj hid
        exact ⟨fun hbefore ↦ (hknown _ hbefore).ne rfl, Nat.lt_succ_self _⟩
      · have hmade : madeAvailable (.createRecording data)
            (.ok (data.toRecording world.1.recordings.nextId)) world.1 = none := if_neg havailable
        have hstep : creationStep .idle (.createRecording data)
            (.ok (data.toRecording world.1.recordings.nextId)) = .idle := if_neg havailable
        rw [hmade, hstep]
        exact ⟨rfl, nofun⟩
    · rw [hfailed]
      exact ⟨rfl, nofun⟩
  | updateRecordingStatus id status reason =>
    cases status with
    | available =>
      let patch : RowPatch := { status := some .available, errorReason := some reason }
      show (creationStep .idle (.updateRecordingStatus id .available reason)
          (world.1.answerUpdate id patch outcome).1).owed =
          (madeAvailable (.updateRecordingStatus id .available reason)
            (world.1.answerUpdate id patch outcome).1 world.1).toList ∧
        ∀ found, madeAvailable (.updateRecordingStatus id .available reason)
          (world.1.answerUpdate id patch outcome).1 world.1 = some found →
            found ∉ world.2 ∧ found < (world.1.answerUpdate id patch outcome).2.recordings.nextId
      rcases world.1.answerUpdate_cases id patch outcome with ⟨hpasses, hdone⟩ | ⟨-, hfailed⟩
      · rw [hdone]
        cases hfind : (world.1.recordings.update id patch).find id with
        | none => exact ⟨rfl, nofun⟩
        | some row =>
          obtain ⟨old, hold, -⟩ := RecordingTable.find_update_eq_some hfind
          obtain ⟨hbuffered, hnew⟩ := honce hpasses old hold
          have hidle : world.1.isAvailable id = false := by
            rw [World.isAvailable, hold]
            exact decide_eq_false hbuffered
          have hmade : madeAvailable (.updateRecordingStatus id .available reason) (some row)
              world.1 = some id := by
            show (if world.1.isAvailable id then none else some id) = some id
            rw [hidle]
            rfl
          obtain ⟨hrow, hid⟩ := RecordingTable.find_eq_some_iff.mp hfind
          rw [hmade]
          refine ⟨congrArg (fun id ↦ [id]) hid, fun found hfound ↦ ?_⟩
          obtain rfl := Option.some.inj hfound
          exact ⟨hnew, hid ▸ (world.1.recordings.update id patch).ids_lt row hrow⟩
      · rw [hfailed]
        exact ⟨rfl, nofun⟩
    | _ => exact absurd rfl hquiet
  | emitEvent event => exact absurd rfl (hcall event)
  | _ => exact absurd rfl hquiet

/-- Every call keeps the balance. -/
theorem balanced_keeps (others : List RecordingId) :
    announcing.Keeps creationMachine (fun call ↦ PromotesOnce call.2)
      fun world state ↦ Balanced world (state.owed ++ others) := by
  rintro ⟨⟨⟩, call⟩ outcome world state honce hpermits hbalanced
  by_cases hemits : ∃ event, call = .emitEvent event
  · obtain ⟨event, rfl⟩ := hemits
    refine ⟨by cases state <;> trivial, ?_⟩
    have hnothing : creationMachine.answer ((), .emitEvent event) outcome world =
        ((), { world.1 with emitted := world.1.emitted ++ [event] }, world.2 ++ []) := rfl
    rw [hnothing, List.append_nil]
    have hemitted : createdIds { world.1 with emitted := world.1.emitted ++ [event] } =
        createdIds world.1 ++ [event].filterMap BusEvent.createdId := List.filterMap_append
    refine ⟨?_, hbalanced.once, hbalanced.known⟩
    rw [hemitted]
    cases state with
    | idle =>
      have hother : event.createdId = none := hpermits
      rw [List.filterMap_cons_none hother, List.filterMap_nil, List.append_nil]
      exact hbalanced.paid
    | owes id =>
      have hpays : event.createdId = some id := hpermits
      rw [List.filterMap_cons_some hpays, List.filterMap_nil, List.append_assoc]
      exact hbalanced.paid
  · have hcall : ∀ event, call ≠ .emitEvent event := fun event hevent ↦ hemits ⟨event, hevent⟩
    obtain ⟨hemitted, hnext⟩ := answer_leaves outcome world.1 hcall
    cases state with
    | idle =>
      obtain ⟨howed, hnew⟩ := owed_creationStep hcall honce hbalanced.known
      refine ⟨?_, ?_⟩
      · cases call with
        | createRecording data =>
          intro row hrow
          rcases world.1.answerCreate_cases data outcome with ⟨hfree, hdone⟩ | ⟨error, hfailed⟩
          · have hreply : (.ok (data.toRecording world.1.recordings.nextId) : Except Failure _) =
                .ok row := (congrArg Prod.fst hdone).symm.trans hrow
            rw [← Except.ok.inj hreply]
            rfl
          · have hreply : (.error error : Except Failure Recording) = .ok row :=
              (congrArg Prod.fst hfailed).symm.trans hrow
            cases hreply
        | _ => trivial
      · show Balanced (_, world.2 ++ (madeAvailable call (answer call outcome world.1).1
          world.1).toList) ((creationStep .idle call (answer call outcome world.1).1).owed ++
            others)
        rw [howed]
        have hleft := hbalanced.of_leaves hemitted hnext
        cases hmade : madeAvailable call (answer call outcome world.1).1 world.1 with
        | none =>
          show Balanced (_, world.2 ++ []) ([] ++ others)
          rw [List.append_nil]
          exact hleft
        | some id => exact hleft.owe (hnew id hmade).1 (hnew id hmade).2
    | owes id =>
      cases call with
      | getCameraById cameraId =>
        refine ⟨?_, ?_⟩
        · rcases Outcome.orFail_cases outcome (world.1.cameras.find? fun camera ↦
            camera.id = cameraId) with hok | ⟨error, rfl, -⟩
          · exact ⟨_, hok⟩
          · cases honce
        · have hsame : creationMachine.answer ((), .getCameraById cameraId) outcome world =
              (_, world.1, world.2 ++ []) := rfl
          rw [hsame, List.append_nil]
          exact hbalanced
      | emitEvent event => exact absurd rfl (hcall event)
      | _ => exact hpermits.elim

theorem promotesOnce_of_synchronous (call : Unit × Call) (world : World × List RecordingId)
    (hsynchronous : creationMachine.synchronous call = true) :
    PromotesOnce call.2 creationMachine.calm world := by
  obtain ⟨⟨⟩, call⟩ := call
  cases call with
  | updateRecordingStatus id status reason => cases hsynchronous
  | getCameraById cameraId => cases hsynchronous
  | _ => trivial

theorem balanced_maintained (ingest : SegmentIngest) :
    Maintains creationMachine announcing (· = .idle) (IngestMove ingest PromotesOnce)
      fun world states ↦ Balanced world (states.flatMap CreationState.owed) where
  start := by
    intro system tag program states hlegal htyped hbalanced
    have hfollows : program.Follows announcing (fun _ ↦ (· = .idle))
        (fun _ ↦ (· = .idle)) .idle := by
      cases hlegal with
      | scan => exact PaysUp.labelled (ingest.scan_paysUp.bind fun _ ↦ Settles.done ())
      | motion cameraId motionAt =>
        exact PaysUp.labelled ((ingest.onMotion_paysUp cameraId motionAt).bind fun _ ↦
          Settles.done ())
    refine ⟨states, .idle, _, _, htyped, hfollows,
      Machine.SettleCalls.of_synchronous creationMachine promotesOnce_of_synchronous _ _,
      balanced_keeps (states.flatMap CreationState.owed), hbalanced, fun world state hkept ↦ ?_⟩
    rw [List.flatMap_append, List.flatMap_singleton]
    exact hkept.perm List.perm_append_comm
  advance := by
    intro system thread outcome tag program states hlegal hthread htyped hbalanced
    have hbound : thread < states.length := by
      rw [htyped.length]
      exact (List.getElem?_eq_some_iff.mp hthread).1
    refine ⟨states, _, _, htyped, ?_, balanced_keeps ((states.eraseIdx thread).flatMap
      CreationState.owed), fun state hstate ↦ ?_, fun world state hkept ↦ ?_⟩
    · cases hlegal with
      | advance _ _ hcall =>
        refine Machine.ResumeCalls.of_awaited creationMachine promotesOnce_of_synchronous ?_
        rintro ⟨⟨⟩, call⟩ next rfl
        exact hcall call next hthread
    · obtain ⟨-, rfl⟩ := List.getElem?_eq_some_iff.mp hstate
      have hperm : (states[thread] :: states.eraseIdx thread).Perm states :=
        List.getElem_cons_eraseIdx_perm hbound
      exact hbalanced.perm (hperm.symm.flatMap_right _)
    · have hperm : (states.set thread state).Perm (state :: states.eraseIdx thread) :=
        List.set_perm_cons_eraseIdx hbound state
      exact hkept.perm (hperm.symm.flatMap_right _)
  crash := by
    intro system states hlegal
    cases hlegal
  environment := by
    intro system event states _ _ hbalanced
    have hleaves : (react event system.world.1).emitted = system.world.1.emitted ∧
        system.world.1.recordings.nextId ≤ (react event system.world.1).recordings.nextId := by
      cases event <;> exact ⟨rfl, le_rfl⟩
    exact hbalanced.of_leaves hleaves.1 hleaves.2

/-! ### Every run -/

/-- In every run whose promotions find rows that have not become AVAILABLE before, and whose cameras
can be read, segment-created events are exactly once. -/
theorem createdOnce_of_promotesOnce (run : CreationRun PromotesOnce) : CreatedOnce run.system := by
  have hinitial : Balanced (run.world, []) [] :=
    { paid := by rw [run.fresh]; exact List.Perm.nil
      once := List.nodup_nil
      known := nofun }
  obtain ⟨states, htyped, hbalanced⟩ :=
    run.reached.typed (balanced_maintained run.ingest) rfl hinitial
  have hall : (createdIds run.system.world.1 ++ states.flatMap CreationState.owed).Nodup :=
    hbalanced.paid.nodup_iff.mpr hbalanced.once
  refine
    { once := hall.of_append_left
      sound := fun id hid ↦ hbalanced.paid.subset (List.mem_append_left _ hid)
      complete := fun hover id hid ↦ ?_ }
  rcases List.mem_append.mp (hbalanced.paid.symm.subset hid) with hemitted | howed
  · exact hemitted
  · obtain ⟨state, hstate, howes⟩ := List.mem_flatMap.mp howed
    obtain ⟨thread, hthread⟩ := List.mem_iff_getElem?.mp hstate
    have hbound : thread < run.system.threads.length := by
      rw [← htyped.length]
      exact (List.getElem?_eq_some_iff.mp hthread).1
    have hentry := List.getElem?_eq_getElem hbound
    have hfollows := htyped.follows hthread hentry
    have hdone := hover _ (List.mem_of_getElem? hentry)
    have hidle : state = .idle := by
      generalize run.system.threads[thread].2 = program at hfollows hdone
      cases program with
      | done value => exact hfollows
      | failed error => exact hfollows
      | await call next => cases hdone
    rw [hidle] at howes
    cases howes

/-! A buffered segment, and two motion events close to each other -/

def bufferedWorld : World where
  recordings := { rows := [{ yardSegment with status := .buffered }], nextId := 1 }

/-- Two notifications that overlap: both list the segment before either promotes it. -/
def motionBurst : List (Move (Unit × Call) (fun call ↦ Reply call.2) Failure Outcome
    EnvironmentChange Unit) :=
  let ingest : SegmentIngest := { recordingsRoot := ["rec"] }
  .start () (((ingest.onMotion "cam" 0).bind fun _ ↦ done ()).labelled ()) ::
    .start () (((ingest.onMotion "cam" 500).bind fun _ ↦ done ()).labelled ()) ::
      [0, 1, 0, 0, 0, 0, 0, 1, 1, 1, 1, 1].map (.advance · .ok)

def burstSystem : CreationSystem :=
  runMoves creationMachine.move { threads := [], world := (bufferedWorld, []) } motionBurst

theorem reaches_burstSystem :
    Reaches creationMachine.move (IngestMove { recordingsRoot := ["rec"] } fun _ _ _ ↦ True)
      { threads := [], world := (bufferedWorld, []) } burstSystem := by
  refine Reaches.refl.run
    ⟨.motion "cam" 0, .motion "cam" 500, LegalRun.of_forall (fun move hmove system ↦ ?_) _⟩
  obtain ⟨thread, -, rfl⟩ := List.mem_map.mp hmove
  exact .advance _ _ fun _ _ _ ↦ trivial

theorem createdIds_burstSystem : createdIds burstSystem.world.1 = [0, 0] := rfl

/-- Both notifications announce the segment, which became AVAILABLE once. -/
theorem not_createdOnce_motionBurst :
    ¬ ∀ run : CreationRun fun _ _ _ ↦ True, CreatedOnce run.system := by
  intro honce
  let run : CreationRun fun _ _ _ ↦ True :=
    { ingest := { recordingsRoot := ["rec"] }
      world := bufferedWorld
      system := burstSystem
      fresh := rfl
      reached := reaches_burstSystem }
  have hnodup := (honce run).once
  rw [show run.system = burstSystem from rfl, createdIds_burstSystem] at hnodup
  exact (List.nodup_cons.mp hnodup).1 List.mem_cons_self

end VmsLite.Recordings
