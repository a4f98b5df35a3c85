import VmsLite.Async.Observation
import VmsLite.Recordings.ScanParts

/-!
# Notices of motion

The runs in which the motion buffer works: scans catalogue files, notices of persisted motion events
keep buffered segments, passes expire them, calls fail, the process crashes. A scan is taken apart
into the cataloguing of the cameras and the pass after it (`scan_eq`), and a pass into the reading
of the clock and what follows (`expireBufferedSegments_eq`), so that a pass may carry in its label
the events persisted when it begins. An observer notes which events' notices have listed the
buffered segments, which listed segments they have not kept yet, and what the passes delete.
-/

set_option autoImplicit false

namespace VmsLite.Recordings

open VmsLite.Async Program

/-! ### What is seen -/

/-- A motion event strictly within the window around a segment of its camera. -/
def NearMotion (ingest : SegmentIngest) (event : MotionEvent) (cameraId : CameraId)
    (start stop : ℤ) : Prop :=
  event.cameraId = cameraId ∧ start - ingest.postBufferSeconds * 1000 < event.createdAt ∧
    event.createdAt < stop + ingest.preBufferSeconds * 1000

instance (ingest : SegmentIngest) (event : MotionEvent) (cameraId : CameraId) (start stop : ℤ) :
    Decidable (NearMotion ingest event cameraId start stop) :=
  inferInstanceAs (Decidable (_ ∧ _))

/-- What a call is part of: the cataloguing of a scan, the notice of an event, or a pass that began
at an instant, when some events had been persisted. -/
inductive BufferTask
  | cataloguing
  | notice (event : MotionEvent)
  | pass (known : List MotionEvent) (now : ℤ)

structure BufferWatch where
  /-- Events whose notices have listed the buffered segments. -/
  asked : List MotionEvent := []
  /-- Segments that the notice of an event has listed and not kept yet. -/
  unkept : List (MotionEvent × RecordingId) := []
  /-- Segments that passes delete, with the events persisted when the pass began. -/
  expired : List (List MotionEvent × Recording) := []

/-- The notice of an event has listed the buffered segments and kept each of them. -/
def BufferWatch.Finished (seen : BufferWatch) (event : MotionEvent) : Prop :=
  event ∈ seen.asked ∧ ∀ id, (event, id) ∉ seen.unkept

def observeBuffer (task : BufferTask) (call : Call) (reply : Reply call) (world : World)
    (seen : BufferWatch) : BufferWatch :=
  match task, call, reply with
  | .notice event, .findRecordingsInRange _ _ _ .buffered, .ok segments =>
    { seen with
      asked := event :: seen.asked
      unkept := segments.map (fun segment ↦ (event, segment.id)) ++ seen.unkept }
  | .notice event, .updateRecordingStatus id .available _, some _ =>
    { seen with unkept := seen.unkept.filter (· ≠ (event, id)) }
  -- A deletion begins with this call, whether or not it goes through
  | .pass known _, .updateRecordingStatus id .deletePending _, _ =>
    { seen with
      expired := seen.expired ++ (world.recordings.find id).toList.map fun row ↦ (known, row) }
  | _, _, _ => seen

abbrev bufferMachine : Machine (BufferTask × Call) (fun call ↦ Reply call.2) (World × BufferWatch)
    Outcome EnvironmentChange :=
  machine.watched observeBuffer

abbrev BufferSystem : Type :=
  System (BufferTask × Call) (fun call ↦ Reply call.2) Failure (World × BufferWatch) Unit

/-! ### Runs -/

/-- A condition on the calls of the tasks. -/
abbrev BufferCondition : Type := SegmentIngest → BufferSystem → BufferTask → Call → Outcome → Prop

/-- The moves of a run; awaited calls meet a condition. Notices follow the persisting of their
event, and take it to be now. -/
inductive BufferMove (condition : BufferCondition) (ingest : SegmentIngest)
    (system : BufferSystem) :
    Move (BufferTask × Call) (fun call ↦ Reply call.2) Failure Outcome EnvironmentChange Unit → Prop
  | catalogue : BufferMove condition ingest system
      (.start () ((ingest.catalogueAll.bind fun _ ↦ done ()).labelled .cataloguing))
  | notice (event : MotionEvent) (hevent : event ∈ system.world.1.motionEvents) :
      BufferMove condition ingest system
        (.start () (((ingest.onMotion event.cameraId system.world.1.now).bind fun _ ↦
          done ()).labelled (.notice event)))
  | pass : BufferMove condition ingest system
      (.start () ((ingest.expireAt system.world.1.now).labelled
        (.pass system.world.1.motionEvents system.world.1.now)))
  | advance (thread : ℕ) (outcome : Outcome)
      (hcall : ∀ task call next, system.threads[thread]? = some ((), .await (task, call) next) →
        condition ingest system task call outcome) :
      BufferMove condition ingest system (.advance thread outcome)
  | crash : BufferMove condition ingest system .crash
  | environment (event : EnvironmentChange) :
    BufferMove condition ingest system (.environment event)

/-- A run of the motion buffer, as far as it has come. -/
structure BufferRun (condition : BufferCondition) where
  ingest : SegmentIngest
  world : World
  system : BufferSystem
  reached : Reaches bufferMachine.move (BufferMove condition ingest)
    { threads := [], world := (world, {}) } system

/-- No pass deletes a segment near a motion event that was persisted before the pass began. -/
def KeepsMotion (ingest : SegmentIngest) (seen : BufferWatch) : Prop :=
  ∀ entry ∈ seen.expired, ∀ event ∈ entry.1,
    ¬ NearMotion ingest event entry.2.cameraId entry.2.startTime entry.2.endTime

/-- A thread is about to insert a buffered segment near an event. -/
def InsertsNear (ingest : SegmentIngest) (event : MotionEvent)
    (program : Program (BufferTask × Call) (fun call ↦ Reply call.2) Failure Unit) : Prop :=
  ∃ task data next, program = .await (task, .createRecording data) next ∧ data.status = .buffered ∧
    NearMotion ingest event data.cameraId data.startTime data.endTime

/-- A notice that lists the buffered segments gets all that are near its event, and no segment near
it is about to be inserted. A pass that lists them finds none near an event persisted before it
began that it would delete, unless the notice of the event has kept all that it listed. -/
def Timely : BufferCondition
  | ingest, system, .notice event, .findRecordingsInRange cameraId start stop .buffered, outcome =>
    outcome.passes = true →
      (∀ row ∈ system.world.1.recordings.rows, row.status = .buffered →
        NearMotion ingest event row.cameraId row.startTime row.endTime →
          row ∈ system.world.1.recordings.findRecordingsInRange cameraId start stop .buffered) ∧
      ∀ thread ∈ system.threads, ¬ InsertsNear ingest event thread.2
  | ingest, system, .pass known now, .findRecordingsByStatus .buffered limit, outcome =>
    outcome.passes = true → ∀ event ∈ known, system.world.2.Finished event ∨
      ∀ row ∈ system.world.1.recordings.findRecordingsByStatus .buffered limit,
        row.endTime < ingest.expiryCutoff now →
          ¬ NearMotion ingest event row.cameraId row.startTime row.endTime
  | _, _, _, _, _ => True

/-! ### The typestate of a task -/

/-- Where a task is: between its question for motion near a segment and the insert of the segment,
before or after a pass has listed the buffered segments, and which of them it may delete. -/
inductive BufferState
  | cataloguing
  | cleared (cameraId : CameraId) (start stop : ℤ)
  | notice (event : MotionEvent)
  | listing (known : List MotionEvent) (now : ℤ)
  | deleting (known : List MotionEvent) (ids : List RecordingId)

/-- Whether a call inserts a buffered segment. -/
def Call.buffers : Call → Bool
  | .createRecording data => data.status = .buffered
  | _ => false

def Call.asksMotion : Call → Bool
  | .findMotionTimes .. => true
  | _ => false

/-- What a notice may do to a row. -/
def Call.promotes : Call → Bool
  | .updateRecordingTier .. | .updateRecordingStatus _ .available _ => true
  | call => call.harmless

def bufferPermits : BufferState → BufferTask × Call → Prop
  | .cataloguing, (.cataloguing, call) => call.ingests = true ∧ call.buffers = false
  | .cleared cameraId start stop, (.cataloguing, .createRecording data) =>
      data.cameraId = cameraId ∧ data.startTime = start ∧ data.endTime = stop
  | .notice event, (.notice noticed, call) => noticed = event ∧ call.promotes = true
  | .listing known now, (.pass persisted began, call) => persisted = known ∧ began = now ∧
      call = .findRecordingsByStatus .buffered maxBufferedScan
  | .deleting known ids, (.pass persisted _, call) => persisted = known ∧ call.removes = true ∧
      ∀ id ∈ call.marked, id ∈ ids
  | _, _ => False

/-- The segments of a list that a pass deletes. -/
def dueIds (ingest : SegmentIngest) (now : ℤ) (segments : List Recording) : List RecordingId :=
  (segments.filter fun segment ↦ segment.endTime < ingest.expiryCutoff now).map Recording.id

def bufferStep (ingest : SegmentIngest) : BufferState → (call : Call) → Reply call → BufferState
  | .cataloguing, .findMotionTimes cameraId start stop, .ok [] =>
      .cleared cameraId (start + ingest.postBufferSeconds * 1000)
        (stop - ingest.preBufferSeconds * 1000)
  | .cleared .., _, _ => .cataloguing
  | .listing known now, .findRecordingsByStatus .., .ok segments =>
      .deleting known (dueIds ingest now segments)
  | state, _, _ => state

def buffering (ingest : SegmentIngest) :
    Typestate (BufferTask × Call) (fun call ↦ Reply call.2) BufferState where
  permits := bufferPermits
  expects := fun _ _ _ ↦ True
  step := fun state call ↦ bufferStep ingest state call.2

/-- The typestate of the calls of one task. -/
def bufferingAs (ingest : SegmentIngest) (task : BufferTask) :
    Typestate Call Reply BufferState where
  permits := fun state call ↦ bufferPermits state (task, call)
  expects := fun _ _ _ ↦ True
  step := bufferStep ingest

/-- A task that has asked for motion near a segment goes on to insert it. -/
def BufferState.ends : BufferState → Prop
  | .cleared .. => False
  | _ => True

theorem follows_labelled {ingest : SegmentIngest} {task : BufferTask} {program : Async Unit}
    {state : BufferState} {rests : BufferState → Prop}
    (hfollows : program.Follows (bufferingAs ingest task) (fun _ ↦ rests) (fun _ ↦ rests) state)
    (hrests : ∀ state, rests state → state.ends) :
    (program.labelled task).Follows (buffering ingest) (fun _ ↦ BufferState.ends)
      (fun _ ↦ BufferState.ends) state :=
  (hfollows.mono (fun _ ↦ hrests) fun _ ↦ hrests).labelled
    fun _ _ hpermits ↦ ⟨hpermits, fun _ hexpects ↦ ⟨hexpects, rfl⟩⟩

/-! ### The programs follow it -/

theorem bufferStep_cataloguing {ingest : SegmentIngest} {call : Call} (reply : Reply call)
    (hmotion : call.asksMotion = false) :
    bufferStep ingest .cataloguing call reply = .cataloguing := by
  cases call with
  | findMotionTimes cameraId start stop => cases hmotion
  | _ => rfl

namespace SegmentIngest

variable (ingest : SegmentIngest)

/-- A task that neither asks for motion nor inserts a buffered segment at its start or its end. -/
abbrev Catalogues {α : Type} (program : Async α) : Prop :=
  Settles (bufferingAs ingest .cataloguing) (· = .cataloguing) program

theorem catalogues_call {call : Call} {state : BufferState} (hingests : call.ingests = true)
    (hbuffers : call.buffers = false) (hmotion : call.asksMotion = false)
    (hstate : state = .cataloguing) :
    (bufferingAs ingest .cataloguing).permits state call ∧
      ∀ reply, (bufferingAs ingest .cataloguing).expects state call reply →
        (bufferingAs ingest .cataloguing).step state call reply = .cataloguing := by
  obtain rfl := hstate
  exact ⟨⟨hingests, hbuffers⟩, fun reply _ ↦ bufferStep_cataloguing reply hmotion⟩

theorem catalogues_of_surveys {call : Call} (state : BufferState) (hsurveys : call.surveys = true)
    (hstate : state = .cataloguing) :
    (bufferingAs ingest .cataloguing).permits state call ∧
      ∀ reply, (bufferingAs ingest .cataloguing).expects state call reply →
        (bufferingAs ingest .cataloguing).step state call reply = .cataloguing := by
  refine ingest.catalogues_call (Call.ingests_of_harmless ?_) ?_ ?_ hstate
  all_goals cases call <;> first | rfl | cases hsurveys

theorem request_catalogues {request : Call} (hingests : request.ingests = true)
    (hbuffers : request.buffers = false) (hmotion : request.asksMotion = false) :
    ingest.Catalogues (call request) := by
  have huses : (call request).Uses (· = request) := Uses.request rfl
  refine Settles.of_uses huses ?_
  rintro _ state rfl hstate
  exact ingest.catalogues_call hingests hbuffers hmotion hstate

/-- No motion near a segment clears it for the motion buffer. -/
theorem isNearMotion_follows (cameraId : CameraId) (start stop : ℤ) :
    (ingest.isNearMotion cameraId start stop).Follows (bufferingAs ingest .cataloguing)
      (fun near state ↦ near = true ∧ state = .cataloguing ∨
        near = false ∧ state = .cleared cameraId start stop)
      (fun _ ↦ (· = .cataloguing)) .cataloguing := by
  refine ⟨⟨rfl, rfl⟩, fun reply _ ↦ ?_⟩
  cases reply with
  | error error => exact rfl
  | ok motion =>
    cases motion with
    | nil =>
      have hstart : start - ingest.postBufferSeconds * 1000 + ingest.postBufferSeconds * 1000 =
          start := by omega
      have hstop : stop + ingest.preBufferSeconds * 1000 - ingest.preBufferSeconds * 1000 =
          stop := by omega
      refine Or.inr ⟨rfl, ?_⟩
      simp only [bufferingAs, bufferStep, hstart, hstop]
    | cons first rest => exact Or.inl ⟨rfl, rfl⟩

/-- Inserting a segment that was cleared, or is kept. -/
theorem insertValid_follows (camera : Camera) (filePath : Path) (mode : RecordingMode)
    (near : Bool) (validation : SegmentValidationSuccess) {state : BufferState}
    (hstate : near = true ∧ state = .cataloguing ∨
      near = false ∧ state = .cleared camera.id validation.startTime validation.endTime) :
    (call (.createRecording (validRow camera filePath mode near validation))).Follows
      (bufferingAs ingest .cataloguing) (fun _ ↦ (· = .cataloguing)) (fun _ ↦ (· = .cataloguing))
      state := by
  rcases hstate with ⟨rfl, rfl⟩ | ⟨rfl, rfl⟩
  · have hbuffers : (Call.createRecording
        (validRow camera filePath mode true validation)).buffers = false := by
      simp [Call.buffers, validRow]
    exact ingest.request_catalogues rfl hbuffers rfl .cataloguing rfl
  · exact ⟨⟨rfl, rfl, rfl⟩, fun _ _ ↦ rfl⟩

theorem catalogueFile_catalogues (camera : Camera) (filePath : Path) (start durationMs : ℤ)
    (mode : RecordingMode) :
    ingest.Catalogues (ingest.catalogueFile camera filePath start durationMs mode) := by
  have hquiet : ∀ {α : Type} {program : Async α}, program.Uses (Call.surveys · = true) →
      ingest.Catalogues program :=
    fun huses ↦ settles_of_surveys (fun _ ↦ ingest.catalogues_of_surveys) huses
  refine (hquiet (Uses.request rfl)).bind fun reply ↦ (Settles.orThrow reply).bind fun found ↦ ?_
  cases found with
  | some existing => exact Settles.done _
  | none =>
    refine (hquiet ((validate_uses _ _).mono fun _ ↦ Call.surveys_of_inspects)).bind
      fun validated ↦ ?_
    cases validated with
    | error failure =>
      dsimp only
      split_ifs
      · exact Settles.done _
      · refine (hquiet (Uses.request rfl)).bind fun stated ↦ ?_
        exact (ingest.request_catalogues rfl rfl rfl).bind fun reply ↦
          (Settles.orThrow reply).bind fun recording ↦ Settles.done _
    | ok validation =>
      rintro state rfl
      refine (ingest.isNearMotion_follows camera.id validation.startTime validation.endTime).bind
        fun near state hstate ↦ ?_
      refine (ingest.insertValid_follows camera filePath mode near validation hstate).bind
        fun reply state hstate ↦ ?_
      refine ((Settles.orThrow reply).bind fun recording ↦ ?_) state hstate
      split_ifs
      · exact (ingest.request_catalogues rfl rfl rfl).bind fun _ ↦ Settles.done _
      · exact Settles.done _

theorem catalogueAll_catalogues : ingest.Catalogues ingest.catalogueAll :=
  ingest.catalogueAll_settles (fun _ ↦ ingest.catalogues_of_surveys)
    ingest.catalogueFile_catalogues

/-! Notices and passes -/

theorem keepSegment_promotes (segment : Recording) :
    (keepSegment segment).Uses (Call.promotes · = true) := by
  refine Uses.bind (Uses.request rfl) fun _ ↦ Uses.bind (Uses.request rfl) fun updated ↦ ?_
  cases updated with
  | none => trivial
  | some kept =>
    refine emitSegmentCreated_uses (fun call hharmless ↦ ?_) kept none
    cases call <;> first | rfl | exact hharmless | cases hharmless

theorem onMotion_promotes (cameraId : CameraId) (motionAt : ℤ) :
    (ingest.onMotion cameraId motionAt).Uses (Call.promotes · = true) := by
  refine Uses.bind (Uses.request rfl) fun _ ↦ Uses.bind Uses.orThrow fun buffered ↦ ?_
  refine Uses.bind (Uses.foldlM fun _ segment _ ↦ keepSegment_promotes segment) fun _ ↦ ?_
  refine Uses.bind (Uses.request rfl) fun _ ↦ Uses.bind Uses.orThrow fun available ↦ ?_
  refine Uses.bind (Uses.foldlM fun _ segment _ ↦ ?_) fun _ ↦ trivial
  split_ifs
  · exact Uses.bind (Uses.request rfl) fun _ ↦ trivial
  · trivial

theorem onMotion_follows (event : MotionEvent) (motionAt : ℤ) :
    ((ingest.onMotion event.cameraId motionAt).bind fun _ ↦ done ()).Follows
      (bufferingAs ingest (.notice event)) (fun _ ↦ (· = .notice event))
      (fun _ ↦ (· = .notice event)) (.notice event) := by
  have huses : ((ingest.onMotion event.cameraId motionAt).bind fun _ ↦ done ()).Uses
      (Call.promotes · = true) :=
    (ingest.onMotion_promotes event.cameraId motionAt).bind fun _ ↦ trivial
  refine Settles.of_uses huses ?_ _ rfl
  rintro call state hpromotes rfl
  exact ⟨⟨rfl, hpromotes⟩, fun reply _ ↦ rfl⟩

/-- What a pass deletes is among the segments that it has listed and that are due. -/
theorem expireSegment_settles {known : List MotionEvent} {now : ℤ} {ids : List RecordingId}
    {segment : Recording} (hdue : segment.endTime < ingest.expiryCutoff now → segment.id ∈ ids) :
    Settles (bufferingAs ingest (.pass known now)) (· = .deleting known ids)
      (ingest.expireSegment (ingest.expiryCutoff now) segment) := by
  unfold expireSegment
  split_ifs with hcutoff
  · exact Settles.done ()
  · refine ((Settles.of_uses (deleteSegmentInternal_marks _ _ _ _) ?_).bind fun _ ↦
      Settles.done ()).catching fun _ ↦ Settles.done ()
    rintro call state ⟨hremoves, hmarks⟩ rfl
    refine ⟨⟨rfl, hremoves, fun id hid ↦ ?_⟩, fun reply _ ↦ rfl⟩
    rw [hmarks id hid]
    exact hdue (not_le.mp hcutoff)

theorem mem_dueIds {now : ℤ} {segments : List Recording} {segment : Recording}
    (hsegment : segment ∈ segments) (hdue : segment.endTime < ingest.expiryCutoff now) :
    segment.id ∈ dueIds ingest now segments :=
  List.mem_map_of_mem (List.mem_filter.mpr ⟨hsegment, decide_eq_true hdue⟩)

theorem expireAt_follows (known : List MotionEvent) (now : ℤ) :
    (ingest.expireAt now).Follows (bufferingAs ingest (.pass known now))
      (fun _ ↦ BufferState.ends) (fun _ ↦ BufferState.ends) (.listing known now) := by
  refine ⟨⟨rfl, rfl, rfl⟩, fun reply _ ↦ ?_⟩
  cases reply with
  | error error => trivial
  | ok segments =>
    have hsegments : Settles (bufferingAs ingest (.pass known now))
        (· = .deleting known (dueIds ingest now segments))
        (segments.foldlM (fun _ segment ↦
          ingest.expireSegment (ingest.expiryCutoff now) segment) ()) :=
      Settles.foldlM (fun _ segment hsegment ↦
        ingest.expireSegment_settles (ingest.mem_dueIds hsegment)) ()
    refine (hsegments _ rfl).mono ?_ ?_
    · rintro _ state rfl
      trivial
    · rintro _ state rfl
      trivial

end SegmentIngest

end VmsLite.Recordings
