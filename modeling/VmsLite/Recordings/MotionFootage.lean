import VmsLite.Recordings.MotionNotices
import VmsLite.Recordings.SegmentEvents

/-!
# Footage near motion

No pass deletes a segment near a motion event that was persisted before the pass began, in every run
whose calls are `Timely` (`keepsMotion_of_timely`). The invariant is that a buffered segment near an
event whose notice has listed the buffered segments is among those the notice has still to keep, and
that a task that has found no motion near a segment goes on to insert it only while no such notice
has come between. A crash takes the notices that are in flight with it, and nothing asks for their
events again: an expiry goes by the segments alone (`not_keepsMotion_lostNotice`).
-/

set_option autoImplicit false

namespace VmsLite.Recordings

open VmsLite.Async Program

/-! ### What the rows go through -/

/-- A row later: its times and its camera stay, and it does not enter the motion buffer. -/
structure Continues (old row : Recording) : Prop where
  id_eq : row.id = old.id
  cameraId_eq : row.cameraId = old.cameraId
  startTime_eq : row.startTime = old.startTime
  endTime_eq : row.endTime = old.endTime
  buffered : row.status = .buffered → old.status = .buffered

theorem Continues.refl (row : Recording) : Continues row row := ⟨rfl, rfl, rfl, rfl, fun h ↦ h⟩

theorem Continues.of_update {patch : RowPatch} (hstatus : patch.status ≠ some .buffered)
    (id : RecordingId) (row : Recording) :
    Continues row (if row.id = id then patch.apply row else row) := by
  split_ifs
  · refine ⟨rfl, rfl, rfl, rfl, fun hbuffered ↦ ?_⟩
    rw [RowPatch.apply_status] at hbuffered
    cases hpatch : patch.status with
    | none => rwa [hpatch] at hbuffered
    | some status =>
      rw [hpatch] at hbuffered
      exact absurd (hpatch.trans (congrArg some hbuffered)) hstatus
  · exact Continues.refl row

/-- What a step of the system does to the catalogue and to the persisted motion events. -/
structure Evolves (fresh : Recording → Prop) (before after : World) : Prop where
  persisted : ∀ event ∈ before.motionEvents, event ∈ after.motionEvents
  drawn : before.recordings.nextId ≤ after.recordings.nextId
  rows : ∀ row ∈ after.recordings.rows, (∃ old ∈ before.recordings.rows, Continues old row) ∨
    before.recordings.nextId ≤ row.id ∧ fresh row

namespace Evolves

variable {fresh : Recording → Prop} {world later : World}

theorem of_recordings (hmotion : ∀ event ∈ world.motionEvents, event ∈ later.motionEvents)
    (hrecordings : later.recordings = world.recordings) : Evolves fresh world later where
  persisted := hmotion
  drawn := by rw [hrecordings]
  rows := fun row hrow ↦ Or.inl ⟨row, hrecordings ▸ hrow, Continues.refl row⟩

theorem refl (world : World) : Evolves fresh world world :=
  of_recordings (fun _ hevent ↦ hevent) rfl

theorem of_updateRow {patch : RowPatch} (hstatus : patch.status ≠ some .buffered)
    (id : RecordingId) (world : World) : Evolves fresh world (world.updateRow id patch) where
  persisted := fun _ hevent ↦ hevent
  drawn := le_rfl
  rows := by
    intro row hrow
    obtain ⟨old, hold, rfl⟩ := RecordingTable.mem_update.mp hrow
    exact Or.inl ⟨old, hold, Continues.of_update hstatus id old⟩

theorem of_answerUpdate {patch : RowPatch} (hstatus : patch.status ≠ some .buffered)
    (id : RecordingId) (outcome : Outcome) (world : World) :
    Evolves fresh world (world.answerUpdate id patch outcome).2 := by
  rcases world.answerUpdate_cases id patch outcome with ⟨-, hanswer⟩ | ⟨-, hanswer⟩
  · rw [hanswer]
    exact of_updateRow hstatus id world
  · rw [hanswer]
    exact refl world

theorem of_removeRows (condition : Recording → Bool) (world : World) :
    Evolves fresh world (world.removeRows condition) where
  persisted := fun _ hevent ↦ hevent
  drawn := le_rfl
  rows := fun row hrow ↦ Or.inl ⟨row, (RecordingTable.mem_remove.mp hrow).1, Continues.refl row⟩

end Evolves

/-- The rows that a call inserts. -/
def Inserts (call : Call) (world : World) (row : Recording) : Prop :=
  ∃ data, call = .createRecording data ∧ row = data.toRecording world.recordings.nextId

/-- Whether a call puts a row back into the motion buffer. -/
def Call.rebuffers : Call → Bool
  | .updateRecordingStatus _ .buffered _ => true
  | _ => false

theorem answer_evolves {call : Call} (hstatus : call.rebuffers = false) (outcome : Outcome)
    (world : World) : Evolves (Inserts call world) world (answer call outcome world).2 := by
  have hsame : ∀ later : World, later.motionEvents = world.motionEvents →
      later.recordings = world.recordings → Evolves (Inserts call world) world later :=
    fun later hmotion hrecordings ↦
      Evolves.of_recordings (fun event hevent ↦ hmotion ▸ hevent) hrecordings
  cases call with
  | createRecording data =>
    show Evolves _ world (world.answerCreate data outcome).2
    rcases world.answerCreate_cases data outcome with ⟨hfree, hanswer⟩ | ⟨error, hanswer⟩
    · rw [hanswer]
      refine ⟨fun _ hevent ↦ hevent, Nat.le_succ _, fun row hrow ↦ ?_⟩
      rcases List.mem_append.mp hrow with hold | hnew
      · exact Or.inl ⟨row, hold, Continues.refl row⟩
      · obtain rfl := List.mem_singleton.mp hnew
        exact Or.inr ⟨le_rfl, data, rfl, rfl⟩
    · rw [hanswer]
      exact Evolves.refl world
  | updateRecordingTier id tier =>
    exact Evolves.of_answerUpdate (Option.some_ne_none _).symm id outcome world
  | updateRecordingStatus id status reason =>
    refine Evolves.of_answerUpdate (fun hbuffered ↦ ?_) id outcome world
    obtain rfl : status = .buffered := Option.some.inj hbuffered
    cases hstatus
  | deleteRecording id =>
    show Evolves _ world (world.answerDelete id outcome).2
    rcases world.answerDelete_cases id outcome with hanswer | ⟨error, hanswer⟩
    · rw [hanswer]
      exact Evolves.of_removeRows _ world
    · rw [hanswer]
      exact Evolves.refl world
  | deleteCamera cameraId =>
    show Evolves _ world (world.answerDeleteCamera cameraId outcome).2
    unfold World.answerDeleteCamera
    split
    · exact Evolves.refl world
    · split_ifs
      · exact ⟨fun _ hevent ↦ hevent, le_rfl, (Evolves.of_removeRows _ world).rows⟩
      · exact Evolves.refl world
  | unlink path =>
    show Evolves _ world (world.answerUnlink path outcome).2
    rcases world.answerUnlink_cases path outcome with ⟨-, hanswer⟩ | ⟨error, hanswer, -⟩
    · rw [hanswer]
      exact hsame _ rfl rfl
    · rw [hanswer]
      exact Evolves.refl world
  | _ => exact hsame _ rfl rfl

theorem react_evolves {fresh : Recording → Prop} (change : EnvironmentChange) (world : World) :
    Evolves fresh world (react change world) := by
  cases change with
  | persistMotion event =>
    exact Evolves.of_recordings (fun _ hevent ↦ List.mem_append_left _ hevent) rfl
  | setProtection id isProtected => exact Evolves.of_updateRow (Option.some_ne_none _).symm id world
  | _ => exact Evolves.of_recordings (fun _ hevent ↦ hevent) rfl

/-! ### The invariant -/

section Invariant

variable (ingest : SegmentIngest)

/-- What a task owes to where it is. -/
def StateHolds (world : World × BufferWatch) : BufferState → Prop
  | .cleared cameraId start stop => ∀ event ∈ world.2.asked,
      ¬ NearMotion ingest event cameraId start stop
  | .notice event => event ∈ world.1.motionEvents
  | .deleting known ids => ∀ id ∈ ids, id < world.1.recordings.nextId ∧
      ∀ row ∈ world.1.recordings.rows, row.id = id → ∀ event ∈ known,
        ¬ NearMotion ingest event row.cameraId row.startTime row.endTime
  | _ => True

structure Guarded (world : World × BufferWatch) (states : List BufferState) : Prop where
  persisted : ∀ event ∈ world.2.asked, event ∈ world.1.motionEvents
  listed : ∀ event ∈ world.2.asked, ∀ row ∈ world.1.recordings.rows, row.status = .buffered →
    NearMotion ingest event row.cameraId row.startTime row.endTime →
      (event, row.id) ∈ world.2.unkept
  kept : KeepsMotion ingest world.2
  states : ∀ state ∈ states, StateHolds ingest world state

variable {ingest} {world : World × BufferWatch} {states others : List BufferState}

theorem Guarded.subset (hguarded : Guarded ingest world states)
    (hsubset : ∀ state ∈ others, state ∈ states) : Guarded ingest world others :=
  { hguarded with states := fun state hstate ↦ hguarded.states state (hsubset state hstate) }

theorem Guarded.cons (hguarded : Guarded ingest world states) {state : BufferState}
    (hstate : StateHolds ingest world state) : Guarded ingest world (state :: states) :=
  { hguarded with states := List.forall_mem_cons.mpr ⟨hstate, hguarded.states⟩ }

/-- What is seen may change in what the states of the tasks do not speak of. -/
theorem Guarded.of_seen (hguarded : Guarded ingest world states) {seen : BufferWatch}
    (hasked : seen.asked = world.2.asked)
    (hlisted : ∀ event ∈ world.2.asked, ∀ row ∈ world.1.recordings.rows, row.status = .buffered →
      NearMotion ingest event row.cameraId row.startTime row.endTime →
        (event, row.id) ∈ seen.unkept)
    (hkept : KeepsMotion ingest seen) : Guarded ingest (world.1, seen) states where
  persisted := fun event hevent ↦ hguarded.persisted event (hasked ▸ hevent)
  listed := fun event hevent ↦ hlisted event (hasked ▸ hevent)
  kept := hkept
  states := by
    intro state hstate
    have hbefore := hguarded.states state hstate
    cases state with
    | cleared cameraId start stop => exact fun event hevent ↦ hbefore event (hasked ▸ hevent)
    | _ => exact hbefore

/-- Rows that are new in the motion buffer are near no event whose notice has listed it. -/
theorem Guarded.evolves (hguarded : Guarded ingest world states) {fresh : Recording → Prop}
    {later : World} (hevolves : Evolves fresh world.1 later)
    (hfresh : ∀ row, fresh row → row.status = .buffered → ∀ event ∈ world.2.asked,
      ¬ NearMotion ingest event row.cameraId row.startTime row.endTime) :
    Guarded ingest (later, world.2) states where
  persisted := fun event hevent ↦ hevolves.persisted event (hguarded.persisted event hevent)
  listed := by
    intro event hevent row hrow hbuffered hnear
    rcases hevolves.rows row hrow with ⟨old, hold, hcontinues⟩ | ⟨-, hnew⟩
    · rw [hcontinues.cameraId_eq, hcontinues.startTime_eq, hcontinues.endTime_eq] at hnear
      rw [hcontinues.id_eq]
      exact hguarded.listed event hevent old hold (hcontinues.buffered hbuffered) hnear
    · exact absurd hnear (hfresh row hnew hbuffered event hevent)
  kept := hguarded.kept
  states := by
    intro state hstate
    have hbefore := hguarded.states state hstate
    cases state with
    | cataloguing => trivial
    | cleared cameraId start stop => exact hbefore
    | notice event => exact hevolves.persisted event hbefore
    | listing known now => trivial
    | deleting known ids =>
      intro id hid
      obtain ⟨hdrawn, hrows⟩ := hbefore id hid
      refine ⟨hdrawn.trans_le hevolves.drawn, fun row hrow hsame ↦ ?_⟩
      rcases hevolves.rows row hrow with ⟨old, hold, hcontinues⟩ | ⟨hnew, -⟩
      · rw [hcontinues.cameraId_eq, hcontinues.startTime_eq, hcontinues.endTime_eq]
        exact hrows old hold (hcontinues.id_eq.symm.trans hsame)
      · exact absurd (hsame ▸ hnew) (not_le.mpr hdrawn)

/-! ### What a call does to it -/

/-- What `Timely` says of a call, with the states of the tasks for the tasks. -/
def TimelyAmong (ingest : SegmentIngest) (others : List BufferState) (request : BufferTask × Call)
    (outcome : Outcome) (world : World × BufferWatch) : Prop :=
  match request with
  | (.notice event, .findRecordingsInRange cameraId start stop .buffered) =>
    outcome.passes = true →
      (∀ row ∈ world.1.recordings.rows, row.status = .buffered →
        NearMotion ingest event row.cameraId row.startTime row.endTime →
          row ∈ world.1.recordings.findRecordingsInRange cameraId start stop .buffered) ∧
      ∀ cameraId start stop, .cleared cameraId start stop ∈ others →
        ¬ NearMotion ingest event cameraId start stop
  | (.pass known now, .findRecordingsByStatus .buffered limit) =>
    outcome.passes = true → ∀ event ∈ known, world.2.Finished event ∨
      ∀ row ∈ world.1.recordings.findRecordingsByStatus .buffered limit,
        row.endTime < ingest.expiryCutoff now →
          ¬ NearMotion ingest event row.cameraId row.startTime row.endTime
  | _ => True

theorem timelyAmong_of_synchronous {request : BufferTask × Call}
    (hsynchronous : bufferMachine.synchronous request = true) (outcome : Outcome)
    (world : World × BufferWatch) : TimelyAmong ingest others request outcome world := by
  obtain ⟨task, call⟩ := request
  cases call with
  | findRecordingsInRange cameraId start stop status => cases hsynchronous
  | findRecordingsByStatus status limit => cases hsynchronous
  | _ => cases task <;> trivial

/-- A call that the observer makes nothing of. -/
theorem Guarded.unseen (hguarded : Guarded ingest world states) {task : BufferTask} {call : Call}
    {outcome : Outcome}
    (hseen : ∀ reply, observeBuffer task call reply world.1 world.2 = world.2)
    (hstatus : call.rebuffers = false)
    (hinserts : ∀ data, call = .createRecording data → data.status = .buffered →
      ∀ event ∈ world.2.asked,
        ¬ NearMotion ingest event data.cameraId data.startTime data.endTime) :
    Guarded ingest (bufferMachine.answer (task, call) outcome world).2 states := by
  show Guarded ingest ((answer call outcome world.1).2,
    observeBuffer task call (answer call outcome world.1).1 world.1 world.2) states
  rw [hseen]
  refine hguarded.evolves (answer_evolves hstatus outcome world.1) ?_
  rintro row ⟨data, rfl, rfl⟩ hbuffered
  exact hinserts data rfl hbuffered

theorem Guarded.unseen_of_buffers (hguarded : Guarded ingest world states) {task : BufferTask}
    {call : Call} {outcome : Outcome}
    (hseen : ∀ reply, observeBuffer task call reply world.1 world.2 = world.2)
    (hstatus : call.rebuffers = false) (hbuffers : call.buffers = false) :
    Guarded ingest (bufferMachine.answer (task, call) outcome world).2 states := by
  refine hguarded.unseen hseen hstatus ?_
  rintro data rfl hbuffered
  exact absurd hbuffered (of_decide_eq_false hbuffers)

/-- A notice lists the buffered segments. -/
theorem Guarded.list (hguarded : Guarded ingest world states) {event : MotionEvent}
    {segments : List Recording} (hevent : event ∈ world.1.motionEvents)
    (hlisted : ∀ row ∈ world.1.recordings.rows, row.status = .buffered →
      NearMotion ingest event row.cameraId row.startTime row.endTime → row ∈ segments)
    (hcleared : ∀ cameraId start stop, .cleared cameraId start stop ∈ states →
      ¬ NearMotion ingest event cameraId start stop) :
    Guarded ingest (world.1, { world.2 with
      asked := event :: world.2.asked
      unkept := segments.map (fun segment ↦ (event, segment.id)) ++ world.2.unkept }) states where
  persisted := List.forall_mem_cons.mpr ⟨hevent, hguarded.persisted⟩
  listed := by
    intro other hother row hrow hbuffered hnear
    rcases List.mem_cons.mp hother with rfl | hother
    · exact List.mem_append_left _ (List.mem_map.mpr ⟨row, hlisted row hrow hbuffered hnear, rfl⟩)
    · exact List.mem_append_right _ (hguarded.listed other hother row hrow hbuffered hnear)
  kept := hguarded.kept
  states := by
    intro state hstate
    have hbefore := hguarded.states state hstate
    cases state with
    | cleared cameraId start stop =>
      exact List.forall_mem_cons.mpr ⟨hcleared cameraId start stop hstate, hbefore⟩
    | _ => exact hbefore

/-- A notice keeps a segment. -/
theorem Guarded.keep (hguarded : Guarded ingest world states) (event : MotionEvent)
    (id : RecordingId) (reason : Option String) :
    Guarded ingest (world.1.updateRow id
        { status := some .available, errorReason := some reason },
      { world.2 with unkept := world.2.unkept.filter (· ≠ (event, id)) }) states := by
  let patch : RowPatch := { status := some .available, errorReason := some reason }
  have hevolves : Evolves (fun _ ↦ False) world.1 (world.1.updateRow id patch) :=
    Evolves.of_updateRow (by simp [patch]) id world.1
  have hupdated : Guarded ingest (world.1.updateRow id patch, world.2) states :=
    hguarded.evolves hevolves fun _ hnone ↦ hnone.elim
  refine hupdated.of_seen rfl (fun other hother row hrow hbuffered hnear ↦ ?_) hupdated.kept
  refine List.mem_filter.mpr ⟨hupdated.listed other hother row hrow hbuffered hnear, ?_⟩
  -- The row that was updated is not buffered
  have hid : row.id ≠ id := by
    obtain ⟨old, -, rfl⟩ := RecordingTable.mem_update.mp hrow
    intro hid
    split_ifs at hid hbuffered with hold
    · cases hbuffered
    · exact hold hid
  simp [hid]

/-- What a pass marks is near no event persisted before it began. -/
theorem Guarded.mark (hguarded : Guarded ingest world states) {known : List MotionEvent}
    {ids : List RecordingId} {id : RecordingId} (hstate : .deleting known ids ∈ states)
    (hid : id ∈ ids) :
    Guarded ingest (world.1, { world.2 with expired := world.2.expired ++
      (world.1.recordings.find id).toList.map fun row ↦ (known, row) }) states := by
  refine hguarded.of_seen rfl hguarded.listed fun entry hentry event hevent ↦ ?_
  rcases List.mem_append.mp hentry with hold | hnew
  · exact hguarded.kept entry hold event hevent
  · obtain ⟨row, hrow, rfl⟩ := List.mem_map.mp hnew
    obtain ⟨hmem, hsame⟩ := RecordingTable.find_eq_some_iff.mp (Option.mem_toList.mp hrow)
    exact (hguarded.states _ hstate id hid).2 row hmem hsame event hevent

theorem guarded_promote (hguarded : Guarded ingest world states) {event : MotionEvent}
    (id : RecordingId) (reason : Option String) (outcome : Outcome) :
    Guarded ingest (bufferMachine.answer
      (.notice event, .updateRecordingStatus id .available reason) outcome world).2 states := by
  let patch : RowPatch := { status := some .available, errorReason := some reason }
  have hkept := hguarded.keep event id reason
  show Guarded ingest ((world.1.answerUpdate id patch outcome).2,
    observeBuffer (.notice event) (.updateRecordingStatus id .available reason)
      (world.1.answerUpdate id patch outcome).1 world.1 world.2) states
  rcases world.1.answerUpdate_cases id patch outcome with ⟨-, hanswer⟩ | ⟨-, hanswer⟩
  · rw [hanswer]
    cases (world.1.recordings.update id patch).find id with
    | some row => exact hkept
    | none =>
      have hevolves : Evolves (fun _ ↦ False) world.1 (world.1.updateRow id patch) :=
        Evolves.of_updateRow (by simp [patch]) id world.1
      exact hguarded.evolves hevolves fun _ hnone ↦ hnone.elim
  · rw [hanswer]
    exact hguarded

/-- The calls of a notice. -/
theorem guarded_notice {event : MotionEvent} {call : Call} {outcome : Outcome}
    (hguarded : Guarded ingest world states) (hevent : event ∈ world.1.motionEvents)
    (hpromotes : call.promotes = true)
    (hothers : ∀ cameraId start stop, .cleared cameraId start stop ∈ states →
      .cleared cameraId start stop ∈ others)
    (htimely : TimelyAmong ingest others (.notice event, call) outcome world) :
    Guarded ingest (bufferMachine.answer (.notice event, call) outcome world).2 states := by
  cases call with
  | findRecordingsInRange cameraId start stop status =>
    cases status with
    | buffered =>
      cases outcome with
      | fail error => exact hguarded
      | _ =>
        exact hguarded.list hevent (htimely rfl).1 fun cameraId start stop hstate ↦
          (htimely rfl).2 cameraId start stop (hothers cameraId start stop hstate)
    | _ => exact hguarded
  | updateRecordingStatus id status reason =>
    cases status with
    | available => exact guarded_promote hguarded id reason outcome
    | _ => cases hpromotes
  | createRecording data => cases hpromotes
  | _ => exact hguarded.unseen_of_buffers (fun _ ↦ rfl) rfl rfl

/-- A pass lists the buffered segments. -/
theorem deleting_holds (hguarded : Guarded ingest world states) {known : List MotionEvent}
    {now : ℤ} {segments : List Recording}
    (hsegments : ∀ segment ∈ segments, segment ∈ world.1.recordings.rows ∧
      segment.status = .buffered)
    (htimely : ∀ event ∈ known, world.2.Finished event ∨ ∀ row ∈ segments,
      row.endTime < ingest.expiryCutoff now →
        ¬ NearMotion ingest event row.cameraId row.startTime row.endTime) :
    StateHolds ingest world (.deleting known (dueIds ingest now segments)) := by
  intro id hid
  obtain ⟨segment, hdue, rfl⟩ := List.mem_map.mp hid
  obtain ⟨hsegment, hdue⟩ := List.mem_filter.mp hdue
  obtain ⟨hmem, hbuffered⟩ := hsegments segment hsegment
  refine ⟨world.1.recordings.ids_lt segment hmem, fun row hrow hsame event hevent hnear ↦ ?_⟩
  obtain rfl := RecordingTable.eq_of_id_eq hrow hmem hsame
  rcases htimely event hevent with ⟨hasked, hkept⟩ | hfar
  · exact hkept row.id (hguarded.listed event hasked row hmem hbuffered hnear)
  · exact hfar row hsegment (of_decide_eq_true hdue) hnear

/-- No motion found near a segment is no event whose notice has listed the buffered segments. -/
theorem cleared_holds (hguarded : Guarded ingest world states) {cameraId : CameraId}
    {start stop : ℤ} (hnone : (world.1.motionEvents.filter fun event ↦
      event.cameraId = cameraId && start ≤ event.createdAt && event.createdAt ≤ stop) = []) :
    StateHolds ingest world (.cleared cameraId (start + ingest.postBufferSeconds * 1000)
      (stop - ingest.preBufferSeconds * 1000)) := by
  rintro event hasked ⟨hcamera, hafter, hbefore⟩
  have hout := List.filter_eq_nil_iff.mp hnone event (hguarded.persisted event hasked)
  have hstart : start ≤ event.createdAt := by omega
  have hstop : event.createdAt ≤ stop := by omega
  simp [hcamera, hstart, hstop] at hout

/-- The calls of a cataloguing task that has not just asked for motion. -/
theorem guarded_cataloguing {call : Call} {outcome : Outcome}
    (hguarded : Guarded ingest world others) (hingests : call.ingests = true)
    (hbuffers : call.buffers = false) :
    Guarded ingest (bufferMachine.answer (.cataloguing, call) outcome world).2
      (bufferStep ingest .cataloguing call
        (bufferMachine.answer (.cataloguing, call) outcome world).1 :: others) := by
  by_cases hmotion : call.asksMotion = true
  · cases call with
    | findMotionTimes cameraId start stop =>
      show Guarded ingest world (bufferStep ingest .cataloguing
        (.findMotionTimes cameraId start stop) (outcome.orFail ((world.1.motionEvents.filter
          fun event ↦ event.cameraId = cameraId && start ≤ event.createdAt &&
            event.createdAt ≤ stop).map MotionEvent.createdAt)) :: others)
      rcases outcome.orFail_cases ((world.1.motionEvents.filter fun event ↦
        event.cameraId = cameraId && start ≤ event.createdAt &&
          event.createdAt ≤ stop).map MotionEvent.createdAt) with hok | ⟨error, -, herror⟩
      · rw [hok]
        cases hfound : world.1.motionEvents.filter fun event ↦
          event.cameraId = cameraId && start ≤ event.createdAt && event.createdAt ≤ stop with
        | nil => exact hguarded.cons (cleared_holds hguarded hfound)
        | cons first rest => exact hguarded.cons trivial
      · rw [herror]
        exact hguarded.cons trivial
    | _ => cases hmotion
  · rw [bufferStep_cataloguing _ (Bool.eq_false_iff.mpr hmotion)]
    have hrebuffers : call.rebuffers = false := by
      cases call <;> first | rfl | cases hingests
    exact (hguarded.unseen_of_buffers (fun _ ↦ rfl) hrebuffers hbuffers).cons trivial

/-- Every call keeps the invariant. -/
theorem guarded_keeps (others : List BufferState) :
    (buffering ingest).Keeps bufferMachine (TimelyAmong ingest others)
      fun world state ↦ Guarded ingest world (state :: others) := by
  rintro ⟨task, call⟩ outcome world state htimely hpermits hguarded
  refine ⟨trivial, ?_⟩
  have hrest : Guarded ingest world others :=
    hguarded.subset fun _ hother ↦ List.mem_cons_of_mem _ hother
  have hstate := hguarded.states state List.mem_cons_self
  cases state with
  | cataloguing =>
    cases task with
    | cataloguing => exact guarded_cataloguing hrest hpermits.1 hpermits.2
    | _ => exact hpermits.elim
  | cleared cameraId start stop =>
    cases task with
    | cataloguing =>
      cases call with
      | createRecording data =>
        obtain ⟨rfl, rfl, rfl⟩ := hpermits
        refine (hrest.unseen (fun _ ↦ rfl) rfl ?_).cons trivial
        rintro inserted hinserted -
        obtain rfl := Call.createRecording.inj hinserted
        exact hstate
      | _ => exact hpermits.elim
    | _ => cases call <;> exact hpermits.elim
  | notice event =>
    cases task with
    | notice noticed =>
      obtain ⟨rfl, hpromotes⟩ := hpermits
      refine guarded_notice hguarded hstate hpromotes (fun cameraId start stop hmem ↦ ?_) htimely
      exact (List.mem_cons.mp hmem).resolve_left nofun
    | _ => cases call <;> exact hpermits.elim
  | listing known now =>
    cases task with
    | pass persisted began =>
      obtain ⟨rfl, rfl, rfl⟩ := hpermits
      cases outcome with
      | fail error => exact hguarded
      | _ =>
        exact hrest.cons (deleting_holds hrest
          (fun segment ↦ RecordingTable.mem_findRecordingsByStatus) (htimely rfl))
    | _ => cases call <;> exact hpermits.elim
  | deleting known ids =>
    cases task with
    | pass persisted began =>
      obtain ⟨rfl, hremoves, hmarks⟩ := hpermits
      cases call with
      | updateRecordingStatus id status reason =>
        cases status with
        | deletePending =>
          let marking : Call := .updateRecordingStatus id .deletePending reason
          have hevolves : Evolves (Inserts marking world.1) world.1
              (answer marking outcome world.1).2 := answer_evolves rfl outcome world.1
          refine (hguarded.mark List.mem_cons_self (hmarks id rfl)).evolves hevolves ?_
          rintro row ⟨data, hdata, -⟩
          exact absurd hdata nofun
        | garbage => exact hguarded.unseen_of_buffers (fun _ ↦ rfl) rfl rfl
        | _ => cases hremoves
      | deleteRecording id => exact hguarded.unseen_of_buffers (fun _ ↦ rfl) rfl rfl
      | unlink path => exact hguarded.unseen_of_buffers (fun _ ↦ rfl) rfl rfl
      | _ => cases hremoves
    | _ => cases call <;> exact hpermits.elim

/-! ### Runs -/

/-- A task that no longer counts as one about to insert a segment near an event. -/
def BufferState.relax (ingest : SegmentIngest) (event : MotionEvent) : BufferState → BufferState
  | .cleared cameraId start stop =>
    if NearMotion ingest event cameraId start stop then .cataloguing
    else .cleared cameraId start stop
  | state => state

theorem relax_of_near {event : MotionEvent} {cameraId : CameraId} {start stop : ℤ}
    (hnear : NearMotion ingest event cameraId start stop) :
    BufferState.relax ingest event (.cleared cameraId start stop) = .cataloguing := if_pos hnear

theorem relax_of_far {event : MotionEvent} {cameraId : CameraId} {start stop : ℤ}
    (hfar : ¬ NearMotion ingest event cameraId start stop) :
    BufferState.relax ingest event (.cleared cameraId start stop) =
      .cleared cameraId start stop := if_neg hfar

/-- What a task about to insert a segment does, where the segment is kept anyway, it may do as well
without having asked for motion. -/
theorem follows_relax {event : MotionEvent} {state : BufferState}
    {program : Program (BufferTask × Call) (fun call ↦ Reply call.2) Failure Unit}
    (hfollows : program.Follows (buffering ingest) (fun _ ↦ BufferState.ends)
      (fun _ ↦ BufferState.ends) state)
    (hinserts : ¬ InsertsNear ingest event program) :
    program.Follows (buffering ingest) (fun _ ↦ BufferState.ends) (fun _ ↦ BufferState.ends)
      (state.relax ingest event) := by
  cases state with
  | cleared cameraId start stop =>
    by_cases hnear : NearMotion ingest event cameraId start stop
    · rw [relax_of_near hnear]
      cases program with
      | done value => exact hfollows.elim
      | failed error => exact hfollows.elim
      | await request next =>
        obtain ⟨task, call⟩ := request
        obtain ⟨hpermits, hnext⟩ := hfollows
        cases task with
        | cataloguing =>
          cases call with
          | createRecording data =>
            obtain ⟨rfl, rfl, rfl⟩ := hpermits
            have hkept : ¬ data.status = .buffered :=
              fun hbuffered ↦ hinserts ⟨_, data, next, rfl, hbuffered, hnear⟩
            exact ⟨⟨rfl, decide_eq_false hkept⟩, hnext⟩
          | _ => exact hpermits.elim
        | _ => cases call <;> exact hpermits.elim
    · rw [relax_of_far hnear]
      exact hfollows
  | _ => exact hfollows

theorem typed_relax {event : MotionEvent} {system : BufferSystem}
    (htyped : system.Typed bufferMachine (buffering ingest) BufferState.ends states)
    (hinserts : ∀ thread ∈ system.threads, ¬ InsertsNear ingest event thread.2) :
    system.Typed bufferMachine (buffering ingest) BufferState.ends
      (states.map (BufferState.relax ingest event)) where
  length := by rw [List.length_map, htyped.length]
  follows := by
    intro thread state tag program hstate hthread
    rw [List.getElem?_map, Option.map_eq_some_iff] at hstate
    obtain ⟨old, hold, rfl⟩ := hstate
    exact follows_relax (htyped.follows hold hthread)
      (hinserts _ (List.mem_of_getElem? hthread))
  settled := htyped.settled

theorem Guarded.relax (hguarded : Guarded ingest world states) (event : MotionEvent) :
    Guarded ingest world (states.map (BufferState.relax ingest event)) := by
  refine { hguarded with states := fun state hstate ↦ ?_ }
  obtain ⟨old, hold, rfl⟩ := List.mem_map.mp hstate
  have hbefore := hguarded.states old hold
  cases old with
  | cleared cameraId start stop =>
    by_cases hnear : NearMotion ingest event cameraId start stop
    · rw [relax_of_near hnear]
      trivial
    · rw [relax_of_far hnear]
      exact hbefore
  | _ => exact hbefore

theorem not_near_of_relax {event : MotionEvent} {cameraId : CameraId} {start stop : ℤ}
    (hstate : .cleared cameraId start stop ∈ states.map (BufferState.relax ingest event)) :
    ¬ NearMotion ingest event cameraId start stop := by
  obtain ⟨old, -, hrelax⟩ := List.mem_map.mp hstate
  cases old with
  | cleared camera first last =>
    by_cases hnear : NearMotion ingest event camera first last
    · rw [relax_of_near hnear] at hrelax
      cases hrelax
    · rw [relax_of_far hnear] at hrelax
      obtain ⟨rfl, rfl, rfl⟩ := BufferState.cleared.inj hrelax
      exact hnear
  | _ => cases hrelax

/-- Before a call the states of the tasks may be chosen so that what `Timely` says of the programs
in flight holds of their states. -/
theorem timelyAmong_of_timely {system : BufferSystem} {outcome : Outcome}
    {program : Program (BufferTask × Call) (fun call ↦ Reply call.2) Failure Unit}
    (htimely : ∀ task call next, program = .await (task, call) next →
      Timely ingest system task call outcome)
    (htyped : system.Typed bufferMachine (buffering ingest) BufferState.ends states)
    (hguarded : Guarded ingest system.world states) :
    ∃ chosen, system.Typed bufferMachine (buffering ingest) BufferState.ends chosen ∧
      Guarded ingest system.world chosen ∧ ∀ request next, program = .await request next →
        TimelyAmong ingest chosen request outcome system.world := by
  by_cases hlists : ∃ event cameraId start stop next, program =
      .await (.notice event, .findRecordingsInRange cameraId start stop .buffered) next ∧
        outcome.passes = true
  · obtain ⟨event, cameraId, start, stop, next, rfl, hpasses⟩ := hlists
    obtain ⟨hlisted, hinserts⟩ := htimely _ _ _ rfl hpasses
    refine ⟨_, typed_relax htyped hinserts, hguarded.relax event, ?_⟩
    intro request next' hprogram
    obtain ⟨rfl, -⟩ := Program.await.inj hprogram
    exact fun _ ↦ ⟨hlisted, fun _ _ _ hstate ↦ not_near_of_relax hstate⟩
  · refine ⟨states, htyped, hguarded, ?_⟩
    rintro ⟨task, call⟩ next rfl
    have hcall := htimely task call next rfl
    cases task with
    | cataloguing => trivial
    | notice event =>
      cases call with
      | findRecordingsInRange cameraId start stop status =>
        cases status with
        | buffered =>
          exact fun hpasses ↦ absurd ⟨event, cameraId, start, stop, next, rfl, hpasses⟩ hlists
        | _ => trivial
      | _ => trivial
    | pass known now =>
      cases call with
      | findRecordingsByStatus status limit =>
        cases status with
        | buffered => exact hcall
        | _ => trivial
      | _ => trivial

theorem guarded_maintained (ingest : SegmentIngest) :
    Maintains bufferMachine (buffering ingest) BufferState.ends (BufferMove Timely ingest)
      (Guarded ingest) where
  start := by
    intro system tag program states hlegal htyped hguarded
    obtain ⟨state, hfollows, hstate⟩ : ∃ state, program.Follows (buffering ingest)
        (fun _ ↦ BufferState.ends) (fun _ ↦ BufferState.ends) state ∧
          StateHolds ingest system.world state := by
      cases hlegal with
      | catalogue =>
        refine ⟨.cataloguing, follows_labelled
          ((ingest.catalogueAll_catalogues.bind fun _ ↦ Settles.done ()) _ rfl) ?_, trivial⟩
        rintro _ rfl
        trivial
      | notice event hevent =>
        refine ⟨.notice event, follows_labelled (ingest.onMotion_follows event _) ?_, hevent⟩
        rintro _ rfl
        trivial
      | pass =>
        exact ⟨.listing _ _, follows_labelled (ingest.expireAt_follows _ _) fun _ hends ↦ hends,
          trivial⟩
    refine ⟨states, state, _, _, htyped, hfollows, Machine.SettleCalls.of_synchronous bufferMachine
      (fun request world hsynchronous ↦ timelyAmong_of_synchronous hsynchronous _ world) _ _,
      guarded_keeps states, hguarded.cons hstate, fun world state hkept ↦ ?_⟩
    exact hkept.subset fun other hother ↦
      (List.mem_append.mp hother).elim (List.mem_cons_of_mem _) fun hlast ↦
        List.mem_singleton.mp hlast ▸ List.mem_cons_self
  advance := by
    intro system thread outcome tag program states hlegal hthread htyped hguarded
    have htimely : ∀ task call next, program = .await (task, call) next →
        Timely ingest system task call outcome := by
      rintro task call next rfl
      cases hlegal with
      | advance _ _ hcall => exact hcall task call next hthread
    obtain ⟨chosen, htyped, hguarded, hamong⟩ := timelyAmong_of_timely htimely htyped hguarded
    refine ⟨chosen, _, _, htyped, Machine.ResumeCalls.of_awaited bufferMachine
      (fun request world hsynchronous ↦ timelyAmong_of_synchronous hsynchronous _ world) hamong,
      guarded_keeps chosen, fun state hstate ↦ ?_, fun world state hkept ↦ ?_⟩
    · exact hguarded.subset (List.forall_mem_cons.mpr ⟨List.mem_of_getElem? hstate, fun _ h ↦ h⟩)
    · exact hkept.subset fun other hother ↦
        (List.mem_or_eq_of_mem_set hother).elim (List.mem_cons_of_mem _) fun hsame ↦
          hsame ▸ List.mem_cons_self
  crash := by
    intro system states _ hguarded
    have hevolves : Evolves (fun _ ↦ False) system.world.1 (restart system.world.1) :=
      Evolves.of_recordings (fun _ hevent ↦ hevent) rfl
    exact (hguarded.evolves hevolves fun _ hnone ↦ hnone.elim).subset fun _ hstate ↦
      absurd hstate List.not_mem_nil
  environment := by
    intro system event states _ _ hguarded
    have hevolves : Evolves (fun _ ↦ False) system.world.1 (react event system.world.1) :=
      react_evolves event system.world.1
    exact hguarded.evolves hevolves fun _ hnone ↦ hnone.elim

end Invariant

/-- In every run whose calls are timely, no pass deletes a segment near a motion event that was
persisted before the pass began. -/
theorem keepsMotion_of_timely (run : BufferRun Timely) :
    KeepsMotion run.ingest run.system.world.2 := by
  have hinitial : Guarded run.ingest (run.world, {}) [] :=
    { persisted := fun _ hevent ↦ absurd hevent List.not_mem_nil
      listed := fun _ hevent ↦ absurd hevent List.not_mem_nil
      kept := fun _ hentry ↦ absurd hentry List.not_mem_nil
      states := fun _ hstate ↦ absurd hstate List.not_mem_nil }
  obtain ⟨states, -, hguarded⟩ := run.reached.typed (guarded_maintained run.ingest) rfl hinitial
  exact hguarded.kept

/-! ### A notice that is lost -/

/-- Motion in the middle of the segment; the process dies before the notice is handled. -/
def lostNotice : List (Move (BufferTask × Call) (fun call ↦ Reply call.2) Failure Outcome
    EnvironmentChange Unit) :=
  let ingest : SegmentIngest := { recordingsRoot := ["rec"] }
  let motion : MotionEvent := { cameraId := "cam", createdAt := 5000 }
  [.environment (.persistMotion motion),
    .start () (((ingest.onMotion "cam" 0).bind fun _ ↦ done ()).labelled (.notice motion)),
    .crash,
    .environment (.clockAdvances 60000),
    .start () ((ingest.expireAt 60000).labelled (.pass [motion] 60000)),
    .advance 0 .ok,
    .advance 0 .ok]

def lostSystem : BufferSystem :=
  runMoves bufferMachine.move { threads := [], world := (bufferedWorld, {}) } lostNotice

theorem reaches_lostSystem :
    Reaches bufferMachine.move (BufferMove (fun _ _ _ _ _ ↦ True) { recordingsRoot := ["rec"] })
      { threads := [], world := (bufferedWorld, {}) } lostSystem := by
  refine Reaches.refl.run ⟨.environment _, ?_, .crash, .environment _, .pass,
    .advance _ _ fun _ _ _ _ ↦ trivial, .advance _ _ fun _ _ _ _ ↦ trivial, trivial⟩
  exact .notice { cameraId := "cam", createdAt := 5000 } List.mem_cons_self

theorem expired_lostSystem : lostSystem.world.2.expired =
    [([{ cameraId := "cam", createdAt := 5000 }], { yardSegment with status := .buffered })] := rfl

/-- The pass after the restart deletes the segment. -/
theorem not_keepsMotion_lostNotice :
    ¬ ∀ run : BufferRun fun _ _ _ _ _ ↦ True, KeepsMotion run.ingest run.system.world.2 := by
  intro hkeeps
  let run : BufferRun fun _ _ _ _ _ ↦ True :=
    { ingest := { recordingsRoot := ["rec"] }
      world := bufferedWorld
      system := lostSystem
      reached := reaches_lostSystem }
  have hfar := hkeeps run ([{ cameraId := "cam", createdAt := 5000 }],
    { yardSegment with status := .buffered })
    (by rw [show run.system = lostSystem from rfl, expired_lostSystem]; exact List.mem_cons_self)
    { cameraId := "cam", createdAt := 5000 } List.mem_cons_self
  revert hfar
  decide

end VmsLite.Recordings
