import Mathlib.Data.List.Chain
import VmsLite.Async.Exclusion
import VmsLite.Async.Typestate
import VmsLite.Media.OrphanSweep

/-!
# Recording events

Ticks of the scheduler, one at a time, beside requests that set the schedule of a camera. An
evaluation reads what is remembered of its camera, reconciles the camera's paths, and only then
remembers and announces a change. Nothing keeps two evaluations of one camera apart in between.

`Announces` says of a program that it may yet announce a change of a camera that it has seen. In
every run in which the remembered state of a camera is read only while no other program may do so
(`TakesTurns`), the last event of a camera is what is remembered of it, but for the one evaluation
that has remembered a change and waits for the delivery of its event (`Remembers`).
-/

set_option autoImplicit false

namespace VmsLite.Media

open VmsLite.Async VmsLite.Schedule Program
open Recordings (CameraId RecordingMode)

/-! ### Runs -/

abbrev ScheduleSystem : Type := System Call Reply Failure World Party

/-- A program may announce a change of a camera before it reads what is remembered of it again. -/
def Announces (cameraId : CameraId) : Async Unit → Prop
  | .done _ => False
  | .failed _ => False
  | .await call next =>
    (∃ event, call = .emitEvent event ∧ event.cameraId = cameraId) ∨
      call ≠ .getRecordingState cameraId ∧ ∃ reply, Announces cameraId (next reply)

/-- What is remembered of a camera is read only while no other program may announce a change of
it. -/
def TakesTurns (system : ScheduleSystem) (thread : ℕ) (call : Call) : Prop :=
  ∀ cameraId, call = .getRecordingState cameraId → ∀ (other : ℕ) (entry : Party × Async Unit),
    other ≠ thread → system.threads[other]? = some entry → ¬ Announces cameraId entry.2

/-- The moves of a run; the calls that a thread makes meet a condition. -/
inductive ScheduleMove (turn : ScheduleSystem → ℕ → Call → Prop) (system : ScheduleSystem) :
    Move Call Reply Failure Outcome EnvironmentChange Party → Prop
  | tick (date : LocalTime)
    (hsingle : ∀ thread ∈ system.threads, thread.1 = .tick → thread.2.isOver = true) :
    ScheduleMove turn system (.start .tick (evaluateAllCameras date))
  | request (cameraId : CameraId) (schedule : CameraScheduleConfig) :
    ScheduleMove turn system
      (.start .request ((setCameraSchedule cameraId schedule).bind fun _ ↦ done ()))
  | advance (thread : ℕ) (outcome : Outcome)
    (hturn : ∀ tag program, system.threads[thread]? = some (tag, program) →
      machine.ResumeCalls (fun call _ _ ↦ turn system thread call) outcome program system.world) :
    ScheduleMove turn system (.advance thread outcome)
  | environment (event : EnvironmentChange) : ScheduleMove turn system (.environment event)

/-! ### The typestate of an evaluation -/

/-- Where a thread is: it has noted what was remembered of a camera, or remembered something else
and has to announce it. -/
inductive EvaluationState
  | idle
  | noted (cameraId : CameraId) (previous : Option Bool)
  | announcing (cameraId : CameraId) (started : Bool)

namespace EvaluationState

def Rests : EvaluationState → Prop
  | .announcing .. => False
  | _ => True

def Concerns (cameraId : CameraId) : EvaluationState → Prop
  | .idle => False
  | .noted other _ => other = cameraId
  | .announcing other _ => other = cameraId

end EvaluationState

/-- The calls that have nothing to do with events or with which cameras there are. -/
def Call.isPlain : Call → Bool
  | .getRecordingState _ | .setRecordingState .. | .emitEvent _ | .createCamera _
  | .deleteCamera _ => false
  | _ => true

def evaluationPermits : EvaluationState → Call → Prop
  | .announcing cameraId started, call =>
    ∃ event, call = .emitEvent event ∧ event.cameraId = cameraId ∧ event.started = started
  | .noted cameraId previous, .setRecordingState other recording =>
    other = cameraId ∧ previous ≠ some recording
  | _, .getRecordingState _ => True
  | _, call => call.isPlain = true

def evaluationStep (state : EvaluationState) : (call : Call) → Reply call → EvaluationState
  | .getRecordingState cameraId, previous => .noted cameraId previous
  | .setRecordingState cameraId recording, _ => .announcing cameraId recording
  | .emitEvent _, _ => .idle
  | _, _ => state

/-- The typestate of programs that evaluate cameras. -/
def evaluation : Typestate Call Reply EvaluationState where
  permits := evaluationPermits
  expects := fun _ _ _ ↦ True
  step := evaluationStep

theorem evaluationPermits_of_isPlain {state : EvaluationState} {call : Call} (hrests : state.Rests)
    (hcall : call.isPlain = true) : evaluationPermits state call := by
  cases state with
  | announcing cameraId started => exact hrests.elim
  | idle => cases call <;> first | exact hcall | trivial
  | noted cameraId previous => cases call <;> first | exact hcall | cases hcall

theorem evaluationStep_of_isPlain (state : EvaluationState) {call : Call}
    (hcall : call.isPlain = true) (reply : Reply call) :
        evaluationStep state call reply = state := by
  cases call <;> first | rfl | cases hcall

/-- A permitted call has nothing to do with events, or reads what is remembered of a camera,
remembers something else than was noted, or announces what was remembered. -/
theorem evaluationPermits_cases {state : EvaluationState} {call : Call}
    (hpermits : evaluationPermits state call) :
    call.isPlain = true ∨ (∃ cameraId, call = .getRecordingState cameraId ∧ state.Rests) ∨
      (∃ cameraId previous recording, state = .noted cameraId previous ∧
        call = .setRecordingState cameraId recording ∧ previous ≠ some recording) ∨
      ∃ event, state = .announcing event.cameraId event.started ∧ call = .emitEvent event := by
  cases state with
  | announcing cameraId started =>
    obtain ⟨event, rfl, rfl, rfl⟩ := hpermits
    exact Or.inr (Or.inr (Or.inr ⟨event, rfl, rfl⟩))
  | idle =>
    cases call with
    | getRecordingState cameraId => exact Or.inr (Or.inl ⟨cameraId, rfl, trivial⟩)
    | _ => exact Or.inl hpermits
  | noted cameraId previous =>
    cases call with
    | getRecordingState other => exact Or.inr (Or.inl ⟨other, rfl, trivial⟩)
    | setRecordingState other recording =>
      obtain ⟨rfl, hchanged⟩ := hpermits
      exact Or.inr (Or.inr (Or.inl ⟨other, previous, recording, rfl, rfl, hchanged⟩))
    | _ => exact Or.inl hpermits

/-! ### The programs follow it -/

/-- A program that owes no event at its start owes none at its end. -/
abbrev PaysUp {α : Type} (program : Async α) : Prop :=
  Program.Settles evaluation EvaluationState.Rests program

section Programs

variable {α : Type} {state : EvaluationState}

theorem plain_follows {program : Async α} (huses : program.Uses (Call.isPlain · = true))
    (hrests : state.Rests) :
    program.Follows evaluation (fun _ ↦ (· = state)) (fun _ ↦ (· = state)) state := by
  refine Follows.of_uses (· = state) huses (fun call found hcall hfound ↦ ?_) rfl
  obtain rfl := hfound
  exact ⟨evaluationPermits_of_isPlain hrests hcall,
    fun reply _ ↦ evaluationStep_of_isPlain found hcall reply⟩

theorem PaysUp.of_plain {program : Async α} (huses : program.Uses (Call.isPlain · = true)) :
    PaysUp program := by
  refine Settles.of_uses huses fun call state hcall hrests ↦ ?_
  refine ⟨evaluationPermits_of_isPlain hrests hcall, fun reply _ ↦ ?_⟩
  show (evaluationStep state call reply).Rests
  rw [evaluationStep_of_isPlain state hcall]
  exact hrests

theorem PaysUp.ignoringErrors {program : Async Unit} (hprogram : PaysUp program) :
    PaysUp (ignoringErrors program) :=
  Settles.catching hprogram fun _ ↦ Settles.done ()

theorem getCameraSchedule_plain (cameraId : CameraId) :
    (getCameraSchedule cameraId).Uses (Call.isPlain · = true) :=
  Uses.bind (Uses.request rfl) fun _ ↦ Uses.bind Uses.orThrow fun _ ↦
    Uses.bind (Uses.request rfl) fun _ ↦ Uses.bind Uses.orThrow fun _ ↦ trivial

theorem isPlain_of_configures {call : Call} (hcall : call.configures = true) :
    call.isPlain = true := by
  cases call <;> first | rfl | cases hcall

theorem noteRecording_follows (camera : CameraRecordSummary) (schedule : CameraScheduleConfig)
    (previous : Option Bool) (shouldRecord : Bool) (date : LocalTime) :
    (noteRecording camera schedule previous shouldRecord date).Follows evaluation
      (fun _ ↦ EvaluationState.Rests) (fun _ ↦ EvaluationState.Rests)
      (.noted camera.id previous) := by
  unfold noteRecording
  split_ifs with hchanged
  · exact ⟨⟨rfl, hchanged⟩, fun _ _ ↦ ⟨⟨_, rfl, rfl, rfl⟩, fun _ _ ↦ trivial⟩⟩
  · trivial

/-- What an evaluation does once it has read what is remembered. -/
theorem decided_follows (camera : CameraRecordSummary) (schedule : CameraScheduleConfig)
    (previous : Option Bool) (shouldRecord : Bool) (date : LocalTime) :
    ((reconcileCaught camera shouldRecord (previous ≠ some shouldRecord)).bind fun failed ↦
      if failed then done (previous.getD false)
      else (noteRecording camera schedule previous shouldRecord date).bind fun _ ↦
        done shouldRecord).Follows evaluation (fun _ ↦ EvaluationState.Rests)
      (fun _ ↦ EvaluationState.Rests) (.noted camera.id previous) := by
  have hplain : (reconcileCaught camera shouldRecord (previous ≠ some shouldRecord)).Uses
      (Call.isPlain · = true) :=
    (reconcileCaught_uses ..).mono fun _ ↦ isPlain_of_configures
  have hnoted : EvaluationState.Rests (.noted camera.id previous) := trivial
  refine ((plain_follows hplain hnoted).mono (fun _ _ hsame ↦ hsame) fun _ found hfound ↦ ?_).bind
    fun failed found hfound ↦ ?_
  · exact hfound ▸ hnoted
  · rw [hfound]
    split_ifs
    · exact hnoted
    · exact (noteRecording_follows camera schedule previous shouldRecord date).bind
        fun _ _ hrests ↦ hrests

theorem evaluateCamera_paysUp (camera : CameraRecordSummary) (date : LocalTime) :
    PaysUp (evaluateCamera camera date) := by
  refine (PaysUp.of_plain (getCameraSchedule_plain camera.id)).bind fun schedule state hrests ↦ ?_
  refine ⟨?_, fun previous _ ↦ decided_follows camera schedule previous _ date⟩
  cases state with
  | announcing cameraId started => exact hrests.elim
  | _ => trivial

theorem sweepOrphans_plain (cameras : List CameraPaths) :
    (sweepOrphans cameras).Uses (Call.isPlain · = true) := by
  refine Uses.bind (Uses.request rfl) fun reply ↦ Uses.bind Uses.orThrow fun listed ↦ ?_
  cases decodeNames listed with
  | none => trivial
  | some names =>
    refine Uses.bind (Uses.request rfl) fun live ↦ Uses.bind (Uses.foldlM fun removed name _ ↦ ?_)
      fun removed ↦ Uses.bind (Uses.request rfl) fun _ ↦ trivial
    refine Uses.bind (Uses.request rfl) fun candidates ↦ ?_
    split_ifs
    · exact (ignoringErrors_uses (removePath_uses (fun _ ↦ rfl) name)).bind fun _ ↦ trivial
    · trivial

theorem saveCameraSchedule_plain (cameraId : CameraId) (schedule : CameraScheduleConfig) :
    (saveCameraSchedule cameraId schedule).Uses (Call.isPlain · = true) := by
  refine Uses.bind (Uses.request rfl) fun reply ↦ Uses.bind Uses.orThrow fun found ↦ ?_
  cases found with
  | none => trivial
  | some camera => exact Uses.bind (Uses.request rfl) fun _ ↦ Uses.orThrow

theorem evaluateAllCameras_paysUp (date : LocalTime) : PaysUp (evaluateAllCameras date) := by
  refine (PaysUp.of_plain (Uses.request rfl)).bind fun reply ↦ (Settles.orThrow reply).bind
    fun cameras ↦ (Settles.foldlM (fun _ camera _ ↦ ?_) ()).bind fun _ ↦ ?_
  · exact PaysUp.ignoringErrors ((evaluateCamera_paysUp camera date).bind fun _ ↦ Settles.done ())
  · exact PaysUp.ignoringErrors
      ((PaysUp.of_plain (sweepOrphans_plain _)).bind fun _ ↦ Settles.done ())

theorem setCameraSchedule_paysUp (cameraId : CameraId) (schedule : CameraScheduleConfig) :
    PaysUp (setCameraSchedule cameraId schedule) := by
  refine (PaysUp.of_plain (saveCameraSchedule_plain cameraId schedule)).bind fun _ ↦
    (PaysUp.of_plain (Uses.request rfl)).bind fun date ↦ Settles.bind ?_ fun _ ↦
      PaysUp.of_plain (getCameraSchedule_plain cameraId)
  exact (PaysUp.of_plain (Uses.request rfl)).bind fun reply ↦
    (Settles.orThrow reply).bind fun cameras ↦ evaluateCamera_paysUp _ date

/-- A thread that has remembered a change has to announce it. -/
theorem announces_of_announcing {program : Async Unit} {cameraId : CameraId} {started : Bool}
    (hfollows : program.Follows evaluation (fun _ ↦ EvaluationState.Rests)
      (fun _ ↦ EvaluationState.Rests) (.announcing cameraId started)) :
          Announces cameraId program := by
  cases program with
  | done value => exact hfollows.elim
  | failed error => exact hfollows.elim
  | await call next =>
    obtain ⟨event, hcall, hcamera, -⟩ := hfollows.1
    exact Or.inl ⟨event, hcall, hcamera⟩

/-- A thread that has noted what was remembered of a camera but will announce no change of it may as
well not have noted it. -/
theorem follows_of_not_announces {program : Async Unit} {cameraId : CameraId}
    {previous : Option Bool}
    (hnot : ¬ Announces cameraId program)
    (hfollows : program.Follows evaluation (fun _ ↦ EvaluationState.Rests)
      (fun _ ↦ EvaluationState.Rests) (.noted cameraId previous)) :
    program.Follows evaluation (fun _ ↦ EvaluationState.Rests) (fun _ ↦ EvaluationState.Rests)
      .idle := by
  induction program with
  | done value => trivial
  | failed error => trivial
  | await call next ih =>
    obtain ⟨hpermits, hnext⟩ := hfollows
    have hlater : call ≠ .getRecordingState cameraId → ∀ reply, ¬ Announces cameraId (next reply) :=
      fun hcall reply hannounces ↦ hnot (Or.inr ⟨hcall, reply, hannounces⟩)
    rcases evaluationPermits_cases hpermits with hcall | ⟨other, rfl, -⟩ |
      ⟨other, found, recording, hstate, rfl, -⟩ | ⟨event, hstate, -⟩
    · refine ⟨evaluationPermits_of_isPlain trivial hcall, fun reply _ ↦ ?_⟩
      have hstill := hnext reply trivial
      have hread : call ≠ .getRecordingState cameraId := by
        rintro rfl
        cases hcall
      show (next reply).Follows evaluation _ _ (evaluationStep .idle call reply)
      rw [evaluationStep_of_isPlain .idle hcall]
      change (next reply).Follows evaluation _ _ (evaluationStep _ call reply) at hstill
      rw [evaluationStep_of_isPlain _ hcall] at hstill
      exact ih reply (hlater hread reply) hstill
    · exact ⟨trivial, hnext⟩
    · obtain ⟨rfl, rfl⟩ := EvaluationState.noted.inj hstate
      exact absurd (announces_of_announcing (hnext () trivial)) (hlater nofun ())
    · cases hstate

end Programs

/-! ### What is remembered and what was announced -/

/-- The events of a camera so far: whether each was `recording.started`. -/
def startedEvents (cameraId : CameraId) (world : World) : List Bool :=
  (world.emitted.filter fun event ↦ event.cameraId = cameraId).map RecordingEvent.started

/-- What the state of a thread says of a camera it concerns. -/
def EvaluationState.Agrees (cameraId : CameraId) (world : World) : EvaluationState → Prop
  | .idle => True
  | .noted _ previous => previous = world.recordingStates.lookup cameraId ∧
      world.recordingStates.lookup cameraId = (startedEvents cameraId world).getLast?
  | .announcing _ started => world.recordingStates.lookup cameraId = some started ∧
      (startedEvents cameraId world).getLast? ≠ some started

/-- The last event of a camera is what is remembered of it, unless a thread has remembered a change
and has to announce it; the events of a camera alternate, and no camera comes or goes. -/
structure Remembers (rows : List CameraRecordSummary) (world : World)
    (states : List EvaluationState) : Prop where
  alternates : ∀ cameraId, (startedEvents cameraId world).IsChain (· ≠ ·)
  exclusive : ∀ cameraId, Exclusive (EvaluationState.Concerns cameraId)
    (EvaluationState.Agrees cameraId world)
    (world.recordingStates.lookup cameraId = (startedEvents cameraId world).getLast?) states
  rows : world.cameras.map Camera.toCameraRecordSummary = rows

section Answers

variable {rows : List CameraRecordSummary} {states : List EvaluationState} {world : World}

/-- What `Remembers` looks at. -/
def recordingView (world : World) :
    List (CameraId × Bool) × List RecordingEvent × List CameraRecordSummary :=
  (world.recordingStates, world.emitted, world.cameras.map Camera.toCameraRecordSummary)

theorem recordingView_setSchedule (cameraId : CameraId) (schedule : CameraScheduleConfig) :
    recordingView (world.setSchedule cameraId schedule) = recordingView world := by
  have hrow : ∀ camera : Camera, (if camera.id = cameraId then { camera with schedule := schedule }
      else camera).toCameraRecordSummary = camera.toCameraRecordSummary := by
    intro camera
    split_ifs <;> rfl
  simp only [recordingView, World.setSchedule, List.map_map, Function.comp_def, hrow]

theorem recordingView_answer {call : Call} (hcall : call.isPlain = true) (outcome : Outcome) :
    recordingView (answer call outcome world).2 = recordingView world := by
  refine read_answer recordingView outcome ?_
  cases call with
  | patchRecord name record => exact read_effect_patchRecord _ _ _ fun _ ↦ rfl
  | replaceSchedule cameraId schedule => exact recordingView_setSchedule cameraId schedule
  | setRecordingState cameraId recording => cases hcall
  | emitEvent event => cases hcall
  | createCamera camera => cases hcall
  | deleteCamera cameraId => cases hcall
  | _ => rfl

theorem EvaluationState.agrees_congr {cameraId : CameraId} {later : World}
    (hmemory : later.recordingStates.lookup cameraId = world.recordingStates.lookup cameraId)
    (hevents : startedEvents cameraId later = startedEvents cameraId world)
    (state : EvaluationState) : state.Agrees cameraId later ↔ state.Agrees cameraId world := by
  cases state with
  | idle => rfl
  | noted other previous => simp only [EvaluationState.Agrees, hmemory, hevents]
  | announcing other started => simp only [EvaluationState.Agrees, hmemory, hevents]

theorem Remembers.of_view (h : Remembers rows world states) {later : World}
    (hview : recordingView later = recordingView world) : Remembers rows later states := by
  obtain ⟨hmemory, hrest⟩ := Prod.mk.inj hview
  obtain ⟨hemitted, hcameras⟩ := Prod.mk.inj hrest
  have hevents : ∀ cameraId, startedEvents cameraId later = startedEvents cameraId world :=
    fun cameraId ↦ by unfold startedEvents; rw [hemitted]
  refine ⟨fun cameraId ↦ hevents cameraId ▸ h.alternates cameraId, fun cameraId ↦ ?_,
    hcameras.trans h.rows⟩
  have hlookup : later.recordingStates.lookup cameraId = world.recordingStates.lookup cameraId := by
    rw [hmemory]
  refine (h.exclusive cameraId).mono (fun state _ _ hagrees ↦ ?_) fun hfree ↦ ?_
  · exact (state.agrees_congr hlookup (hevents cameraId)).mpr hagrees
  · rw [hlookup, hevents]
    exact hfree

theorem startedEvents_emit (cameraId : CameraId) (event : RecordingEvent) (world : World) :
    startedEvents cameraId { world with emitted := world.emitted ++ [event] } =
      if event.cameraId = cameraId then startedEvents cameraId world ++ [event.started]
      else startedEvents cameraId world := by
  unfold startedEvents
  split_ifs with hsame
  · simp [hsame]
  · simp [hsame]

variable {thread : ℕ} {state : EvaluationState} {cameraId : CameraId}

/-- Reading what is remembered of a camera that concerns no other thread. -/
theorem Remembers.read (hbound : thread < states.length)
    (h : Remembers rows world (states.set thread state)) (hrests : state.Rests)
    (halone : ∀ (other : ℕ) (found : EvaluationState), other ≠ thread →
      states[other]? = some found → ¬ found.Concerns cameraId) :
    Remembers rows world
      (states.set thread (.noted cameraId (world.recordingStates.lookup cameraId))) := by
  have hfree : ∀ camera, state.Concerns camera → state.Agrees camera world →
      world.recordingStates.lookup camera = (startedEvents camera world).getLast? := by
    intro camera hconcerns hagrees
    cases state with
    | idle => exact hconcerns.elim
    | announcing other started => exact hrests.elim
    | noted other previous => exact hagrees.2
  refine ⟨h.alternates, fun camera ↦ ?_, h.rows⟩
  refine (h.exclusive camera).replace hbound (fun _ _ ↦ ⟨fun _ _ hagrees ↦ hagrees, id⟩)
    (fun hconcerns hagrees _ ↦ hfree camera hconcerns hagrees) (fun hconcerns hagrees hnoted ↦ ?_)
    fun _ hnoted ↦ ?_
  · obtain rfl : cameraId = camera := hnoted
    exact ⟨rfl, hfree _ hconcerns hagrees⟩
  · obtain rfl : cameraId = camera := hnoted
    exact ⟨halone, fun hsame ↦ ⟨rfl, hsame⟩⟩

/-- Remembering something else of a camera than was noted. -/
theorem Remembers.remember (hbound : thread < states.length) {previous : Option Bool}
    (h : Remembers rows world (states.set thread (.noted cameraId previous))) {recording : Bool}
    (hchanged : previous ≠ some recording) :
    Remembers rows
      { world with recordingStates := (cameraId, recording) :: world.recordingStates }
      (states.set thread (.announcing cameraId recording)) := by
  refine ⟨h.alternates, fun camera ↦ ?_, h.rows⟩
  by_cases hsame : cameraId = camera
  · subst hsame
    refine (h.exclusive cameraId).replace hbound (fun hnot ↦ absurd rfl hnot)
      (fun _ _ hnot ↦ absurd rfl hnot) (fun _ hagrees _ ↦ ?_) fun hnot ↦ absurd rfl hnot
    obtain ⟨hprevious, hlast⟩ := hagrees
    refine ⟨List.lookup_cons_self, ?_⟩
    show (startedEvents cameraId world).getLast? ≠ some recording
    rw [← hlast, ← hprevious]
    exact hchanged
  · have hlookup : ((cameraId, recording) :: world.recordingStates).lookup camera =
        world.recordingStates.lookup camera := by
      rw [List.lookup_cons, beq_false_of_ne (Ne.symm hsame)]
    have hagrees : ∀ found : EvaluationState, found.Agrees camera
        { world with recordingStates := (cameraId, recording) :: world.recordingStates } ↔
          found.Agrees camera world := by
      intro found
      refine found.agrees_congr ?_ ?_
      · exact hlookup
      · rfl
    refine (h.exclusive camera).replace hbound
      (fun _ _ ↦ ⟨fun found _ hfound ↦ (hagrees found).mpr hfound, fun hfree ↦ hlookup.trans hfree⟩)
      (fun hnoted ↦ absurd hnoted hsame) (fun hnoted ↦ absurd hnoted hsame)
      fun _ hannouncing ↦ absurd hannouncing hsame

/-- Announcing a change that was remembered. -/
theorem Remembers.announce (hbound : thread < states.length) {event : RecordingEvent}
    (h : Remembers rows world (states.set thread (.announcing event.cameraId event.started))) :
    Remembers rows { world with emitted := world.emitted ++ [event] }
        (states.set thread .idle) := by
  have hmem : (states.set thread (.announcing event.cameraId event.started))[thread]? =
      some (.announcing event.cameraId event.started) := List.getElem?_set_self hbound
  obtain ⟨⟨hremembered, hlast⟩, -⟩ := (h.exclusive event.cameraId).of_holds hmem rfl
  refine ⟨fun camera ↦ ?_, fun camera ↦ ?_, h.rows⟩
  · rw [startedEvents_emit]
    split_ifs with hsame
    · subst hsame
      refine List.isChain_append.mpr ⟨h.alternates _, List.isChain_singleton _, ?_⟩
      rintro before hbefore after hafter rfl
      obtain rfl : event.started = before := by simpa using hafter
      exact hlast hbefore
    · exact h.alternates camera
  · by_cases hsame : event.cameraId = camera
    · subst hsame
      refine (h.exclusive event.cameraId).replace hbound (fun hnot ↦ absurd rfl hnot)
        (fun _ _ _ ↦ ?_) (fun _ _ hidle ↦ hidle.elim) fun hnot ↦ absurd rfl hnot
      rw [startedEvents_emit, if_pos rfl, List.getLast?_concat]
      exact hremembered
    · have hevents : startedEvents camera { world with emitted := world.emitted ++ [event] } =
          startedEvents camera world := by rw [startedEvents_emit, if_neg hsame]
      have hagrees : ∀ found : EvaluationState, found.Agrees camera
          { world with emitted := world.emitted ++ [event] } ↔ found.Agrees camera world := by
        intro found
        refine found.agrees_congr ?_ ?_
        · rfl
        · exact hevents
      refine (h.exclusive camera).replace hbound
        (fun _ _ ↦ ⟨fun found _ hfound ↦ (hagrees found).mpr hfound, fun hfree ↦ ?_⟩)
        (fun hannouncing ↦ absurd hannouncing hsame) (fun hannouncing ↦ absurd hannouncing hsame)
        fun _ hidle ↦ hidle.elim
      rw [hevents]
      exact hfree

/-- The cameras that a thread reads the state of concern no other thread. -/
def ReadsAlone (states : List EvaluationState) (thread : ℕ) (call : Call) : Prop :=
  ∀ cameraId, call = .getRecordingState cameraId → ∀ (other : ℕ) (found : EvaluationState),
    other ≠ thread → states[other]? = some found → ¬ found.Concerns cameraId

theorem remembers_keeps (hbound : thread < states.length) :
    evaluation.Keeps machine (fun call _ _ ↦ ReadsAlone states thread call)
      fun world state ↦ Remembers rows world (states.set thread state) := by
  intro call outcome world state halone hpermits h
  refine ⟨trivial, ?_⟩
  rcases evaluationPermits_cases hpermits with hcall | ⟨cameraId, rfl, hrests⟩ |
    ⟨cameraId, previous, recording, rfl, rfl, hchanged⟩ | ⟨event, rfl, rfl⟩
  · show Remembers rows _ (states.set thread (evaluationStep state call _))
    rw [evaluationStep_of_isPlain state hcall]
    exact h.of_view (recordingView_answer hcall outcome)
  · exact h.read hbound hrests (halone cameraId rfl)
  · exact h.remember hbound hchanged
  · exact h.announce hbound

end Answers

/-! ### Every run -/

section Runs

variable {rows : List CameraRecordSummary} {system : ScheduleSystem} {states : List EvaluationState}

/-- The threads that will announce no change may be taken not to have noted anything. -/
theorem exists_chosen
    (htyped : system.Typed machine evaluation EvaluationState.Rests states)
    (hremembers : Remembers rows system.world states) :
    ∃ chosen, system.Typed machine evaluation EvaluationState.Rests chosen ∧
      Remembers rows system.world chosen ∧
      ∀ (thread : ℕ) (found : EvaluationState) (cameraId : CameraId), chosen[thread]? = some found →
        found.Concerns cameraId → ∃ entry, system.threads[thread]? = some entry ∧
          Announces cameraId entry.2 := by
  classical
  let speaks (thread : ℕ) (state : EvaluationState) : Prop :=
    ∀ cameraId, state.Concerns cameraId → ∃ entry, system.threads[thread]? = some entry ∧
      Announces cameraId entry.2
  let choose (thread : ℕ) (state : EvaluationState) : EvaluationState :=
    if speaks thread state then state else .idle
  have hchosen : ∀ (thread : ℕ) (found : EvaluationState),
      (states.mapIdx choose)[thread]? = some found → ∃ state, states[thread]? = some state ∧
        (speaks thread state ∧ found = state ∨ ¬ speaks thread state ∧ found = .idle) := by
    intro thread found hfound
    rw [List.getElem?_mapIdx] at hfound
    obtain ⟨state, hstate, rfl⟩ := Option.map_eq_some_iff.mp hfound
    refine ⟨state, hstate, ?_⟩
    by_cases hspeaks : speaks thread state
    · exact Or.inl ⟨hspeaks, if_pos hspeaks⟩
    · exact Or.inr ⟨hspeaks, if_neg hspeaks⟩
  -- a thread that is to announce a change speaks, so one that does not has only noted something
  have hnoted : ∀ (thread : ℕ) (state : EvaluationState) (entry : Party × Async Unit),
      states[thread]? = some state → system.threads[thread]? = some entry →
        ¬ speaks thread state → ∃ cameraId previous, state = .noted cameraId previous ∧
          ¬ Announces cameraId entry.2 := by
    intro thread state entry hstate hthread hnot
    cases state with
    | idle => exact absurd (fun _ hconcerns ↦ hconcerns.elim) hnot
    | announcing cameraId started =>
      refine absurd (fun other hconcerns ↦ ?_) hnot
      obtain rfl : cameraId = other := hconcerns
      exact ⟨entry, hthread, announces_of_announcing (htyped.follows hstate hthread)⟩
    | noted cameraId previous =>
      refine ⟨cameraId, previous, rfl, fun hannounces ↦ hnot fun other hconcerns ↦ ?_⟩
      obtain rfl : cameraId = other := hconcerns
      exact ⟨entry, hthread, hannounces⟩
  refine ⟨states.mapIdx choose, ⟨by rw [List.length_mapIdx, htyped.length], ?_, htyped.settled⟩,
    ⟨hremembers.alternates, fun cameraId ↦ ?_, hremembers.rows⟩, ?_⟩
  · intro thread found tag program hfound hthread
    obtain ⟨state, hstate, ⟨-, rfl⟩ | ⟨hnot, rfl⟩⟩ := hchosen thread found hfound
    · exact htyped.follows hstate hthread
    · obtain ⟨cameraId, previous, rfl, hsilent⟩ := hnoted thread state _ hstate hthread hnot
      exact follows_of_not_announces hsilent (htyped.follows hstate hthread)
  · refine (hremembers.exclusive cameraId).exchange (fun thread found hfound ↦ ?_)
      fun thread state hstate hconcerns hagrees ↦ ?_
    · obtain ⟨state, hstate, ⟨-, rfl⟩ | ⟨-, rfl⟩⟩ := hchosen thread found hfound
      · exact Or.inl hstate
      · exact Or.inr fun hidle ↦ hidle
    · by_cases hspeaks : speaks thread state
      · left
        rw [List.getElem?_mapIdx, hstate]
        exact congrArg some (if_pos hspeaks)
      · right
        have hbound : thread < system.threads.length :=
          htyped.length ▸ (List.getElem?_eq_some_iff.mp hstate).1
        obtain ⟨other, previous, rfl, -⟩ :=
          hnoted thread state _ hstate (List.getElem?_eq_getElem hbound) hspeaks
        exact hagrees.2
  · intro thread found cameraId hfound hconcerns
    obtain ⟨state, -, ⟨hspeaks, rfl⟩ | ⟨-, rfl⟩⟩ := hchosen thread found hfound
    · exact hspeaks cameraId hconcerns
    · exact hconcerns.elim

theorem remembers_maintained :
    Maintains machine evaluation EvaluationState.Rests (ScheduleMove TakesTurns)
        (Remembers rows) where
  start := by
    intro system tag program states hlegal htyped hremembers
    have hstart : Remembers rows system.world (states ++ [.idle]) :=
      ⟨hremembers.alternates,
        fun cameraId ↦ (hremembers.exclusive cameraId).append_of_not fun hidle ↦ hidle,
        hremembers.rows⟩
    -- a program waits for a call before it reads anything that is remembered
    cases hlegal with
    | tick date hsingle =>
      exact ⟨states, .idle, fun _ _ _ ↦ False,
        fun world state ↦ Remembers rows world (states ++ [state]), htyped,
        evaluateAllCameras_paysUp date .idle trivial, nofun, fun _ _ _ _ h ↦ h.elim, hstart,
        fun _ _ hkept ↦ hkept⟩
    | request cameraId schedule =>
      exact ⟨states, .idle, fun _ _ _ ↦ False,
        fun world state ↦ Remembers rows world (states ++ [state]), htyped,
        ((setCameraSchedule_paysUp cameraId schedule).bind fun _ ↦ Settles.done ()) .idle trivial,
        nofun, fun _ _ _ _ h ↦ h.elim, hstart, fun _ _ hkept ↦ hkept⟩
  advance := by
    intro system thread outcome tag program states hlegal hthread htyped hremembers
    obtain ⟨chosen, hchosen, hkept, hspeaks⟩ := exists_chosen htyped hremembers
    have hbound : thread < chosen.length :=
      hchosen.length ▸ (List.getElem?_eq_some_iff.mp hthread).1
    cases hlegal with
    | advance _ _ hturn =>
      refine ⟨chosen, _, _, hchosen,
        Machine.ResumeCalls.mono machine ?_ (hturn tag program hthread),
        remembers_keeps hbound, fun state hstate ↦ ?_, fun _ _ hkept ↦ hkept⟩
      · intro call _ _ hturn cameraId hcall other found hne hother hconcerns
        obtain ⟨entry, hentry, hannounces⟩ := hspeaks other found cameraId hother hconcerns
        exact hturn cameraId hcall other entry hne hentry hannounces
      · have hsame : chosen.set thread state = chosen := by
          rw [← Option.some.inj ((List.getElem?_eq_getElem hbound).symm.trans hstate),
            List.set_getElem_self]
        rw [hsame]
        exact hkept
  crash := nofun
  environment := by
    intro system event states hlegal htyped hremembers
    refine hremembers.of_view ?_
    cases event <;> rfl

end Runs

end VmsLite.Media
