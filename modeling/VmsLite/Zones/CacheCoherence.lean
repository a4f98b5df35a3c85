import VmsLite.Async.Stages
import VmsLite.Zones.MotionZones

/-!
# Zones of the motion filter and zones of the database

The motion filter reads a cache that zone operations write. In a run whose steps are careful the
cache of a camera holds the stored zones whenever no operation of the camera is in flight
(`eachState_isCoherent`). A step is careful when it leaves the cache of a camera different from the
table only while an operation of the camera that is in flight will still bring the stored zones: a
refresh that falls back on memory, or whose answer a later write overtook, is such a step, and so
are a restore and a restart, which nothing refreshes the cache after.
-/

set_option autoImplicit false

namespace VmsLite.Zones

open VmsLite.Async Program

/-! ### Runs -/

inductive Origin
  | create | update | delete | list
  deriving DecidableEq, Repr

abbrev ZoneSystem := System Call Reply ZoneError World Origin

inductive ZoneStep
  | create (cameraId : CameraId) (req : CreateMotionZoneRequest)
  | update (id : ZoneId) (req : UpdateMotionZoneRequest)
  | delete (id : ZoneId)
  | list (cameraId : CameraId)
  /-- The call that an operation awaits comes to an end. -/
  | resume (thread : ℕ) (outcome : Outcome)
  | restart
  | event (event : ZoneEvent)
  deriving DecidableEq, Repr

/-- A program whose result goes to the route. -/
def ignoringResult {α : Type} (program : Async α) : Async Unit := do
  let _ ← program
  return

def step (system : ZoneSystem) : ZoneStep → ZoneSystem
  | .create cameraId req =>
    machine.move system (.start .create (ignoringResult (createZone cameraId req)))
  | .update id req => machine.move system (.start .update (ignoringResult (updateZone id req)))
  | .delete id => machine.move system (.start .delete (deleteZone id))
  | .list cameraId => machine.move system (.start .list (ignoringResult (listZones cameraId)))
  | .resume thread outcome => machine.move system (.advance thread outcome)
  | .restart => machine.move system .crash
  | .event zoneEvent => machine.move system (.environment zoneEvent)

/-- No zone has been created yet. -/
def initial : ZoneSystem := { threads := [], world := {} }

/-- An operation of a camera, from where it knows the camera on: a lookup before changes nothing. -/
def Concerns (cameraId : CameraId) : Async Unit → Prop
  | .await (.write other _) _ | .await (.findMany other) _ | .await (.deliver other _) _ =>
    other = cameraId
  | _ => False

/-- Motion events of a camera are filtered with the stored zones while no operation of it is in
flight. -/
def IsCoherent (system : ZoneSystem) : Prop :=
  ∀ cameraId, (∀ thread ∈ system.threads, ¬ Concerns cameraId thread.2) →
    system.world.getCameraZones cameraId = system.world.storedZones cameraId

/-! ### The condition -/

/-- An operation of a camera that has yet to read its zones, or that brings the stored ones. -/
def WillRefresh (world : World) (cameraId : CameraId) : Async Unit → Prop
  | .await (.write other _) _ | .await (.findMany other) _ => other = cameraId
  | .await (.deliver other zones) _ => other = cameraId ∧ zones = world.storedZones cameraId
  | _ => False

/-- Another operation in flight will bring the stored zones of a camera. -/
def Refreshed (system : ZoneSystem) (thread : ℕ) (cameraId : CameraId) : Prop :=
  ∃ other ∈ system.threads.eraseIdx thread, WillRefresh system.world cameraId other.2

/-- A write goes to a record of the camera whose cache is refreshed after it. -/
def ZoneWrite.GoesTo (write : ZoneWrite) (rows : List MotionZoneRow) (cameraId : CameraId) : Prop :=
  match write with
  | .create _ owner _ => owner = cameraId
  | .update id _ | .delete id => ∀ row ∈ rows, row.id = id → row.cameraId = cameraId

/-- The zones that come to the cache are the stored ones, or another operation in flight will bring
these: where zones that were read arrive, and where a failed read falls back on memory. -/
def CarefulEnd (system : ZoneSystem) (thread : ℕ) (outcome : Outcome) : Call → Prop
  | .deliver cameraId zones =>
    zones = system.world.storedZones cameraId ∨ Refreshed system thread cameraId
  | .findMany cameraId => outcome.failure = true →
      system.world.rememberedZones cameraId = system.world.storedZones cameraId ∨
        Refreshed system thread cameraId
  | .write cameraId write => write.GoesTo system.world.rows cameraId
  | _ => True

def IsCareful (system : ZoneSystem) (thread : ℕ) (outcome : Outcome) : Prop :=
  ∀ tag call next, system.threads[thread]? = some (tag, .await call next) →
    CarefulEnd system thread outcome call

theorem isCareful_of_await {system : ZoneSystem} {thread : ℕ} {outcome : Outcome} {tag : Origin}
    {call : Call} {next : Reply call → Async Unit}
    (hthread : system.threads[thread]? = some (tag, .await call next))
    (hcareful : CarefulEnd system thread outcome call) : IsCareful system thread outcome := by
  intro other found later hfound
  rw [hthread] at hfound
  obtain ⟨rfl, -⟩ := Program.await.inj (Prod.mk.inj (Option.some.inj hfound)).2
  exact hcareful

/-- A restore leaves in the table the zones that are cached, but for cameras of which an operation
in flight will bring the stored zones; and a restart is made while no zones are stored. -/
def ZoneStep.IsCareful (system : ZoneSystem) : ZoneStep → Prop
  | .resume thread outcome => Zones.IsCareful system thread outcome
  | .restart => system.world.rows = []
  | .event (.restore rows) =>
    ∀ cameraId, system.world.getCameraZones cameraId = (rowsOf rows cameraId).map mapPrismaZone ∨
      ∃ thread ∈ system.threads, WillRefresh { system.world with rows := rows } cameraId thread.2
  | _ => True

/-! ### Where an operation waits -/

inductive Stage
  | updating (id : ZoneId) (req : UpdateMotionZoneRequest)
  | deleting (id : ZoneId)
  | persisting (cameraId : CameraId) (write : ZoneWrite) (zoneDto : MotionZoneDto)
  | removing (cameraId : CameraId) (id : ZoneId)
  | reading (cameraId : CameraId)
  /-- The answer to the read of a refresh is on its way. -/
  | delivering (cameraId : CameraId) (zones : List MotionZoneDto)
  /-- The zones are on their way from `listZones` to `refreshCameraCache`. -/
  | setting (cameraId : CameraId) (zones : List MotionZoneDto)
  | listing (cameraId : CameraId)
  | listed (cameraId : CameraId) (zones : List MotionZoneDto)
  | ended (result : Except ZoneError Unit)

namespace World

def setCameraZones (world : World) (cameraId : CameraId) (zones : List MotionZoneDto) : World :=
  { world with cameraZonesCache := Function.update world.cameraZonesCache cameraId (some zones) }

/-- The zone that a lookup finds. -/
def lookup (world : World) (outcome : Outcome) (id : ZoneId) : Option MotionZoneDto :=
  if outcome.failure then world.memoryZones.lookup id
  else (world.rows.find? fun row ↦ row.id = id).map mapPrismaZone

def remember (world : World) (id : ZoneId) (zone : MotionZoneDto) : World :=
  { world with memoryZones := setMemory world.memoryZones id zone }

def forget (world : World) (id : ZoneId) : World :=
  { world with memoryZones := world.memoryZones.filter fun entry ↦ entry.1 ≠ id }

/-- The world after a write has been tried. -/
def tryWrite (world : World) (outcome : Outcome) (write : ZoneWrite) : World :=
  match write.apply world.now world.rows with
  | none => world
  | some (_, rows) =>
    if outcome.failure = true ∧ outcome.applied = false then world else { world with rows := rows }

end World

namespace Stage

def program : Stage → Async Unit
  | .updating id req => ignoringResult (updateZone id req)
  | .deleting id => deleteZone id
  | .persisting cameraId write zoneDto => ignoringResult (persist cameraId write zoneDto)
  | .removing cameraId id => do
      (do
        let _ ← orThrow (← call (.write cameraId (.delete id)))).catching fun _ ↦ pure ()
      refreshCameraCache cameraId
  | .reading cameraId => refreshCameraCache cameraId
  | .delivering cameraId zones => do
      let zones ← takeZones cameraId zones
      let _ ← takeZones cameraId zones
  | .setting cameraId zones => do
      let _ ← takeZones cameraId zones
  | .listing cameraId => ignoringResult (listZones cameraId)
  | .listed cameraId zones => ignoringResult (takeZones cameraId zones)
  | .ended (.ok ()) => done ()
  | .ended (.error error) => failed error

/-- The stage after a zone to update was looked up. -/
def updates (id : ZoneId) (req : UpdateMotionZoneRequest) (world : World) :
    Option MotionZoneDto → Stage × World
  | none => (.ended (.error (.notFound id)), world)
  | some existing =>
    match (req.coordinates.map validateCoordinates).getD (.ok ()) with
    | .error error => (.ended (.error error), world)
    | .ok () =>
      let updatedDto := req.zone existing world.now
      (.persisting existing.cameraId (.update id updatedDto.data) updatedDto,
        world.remember id updatedDto)

def deletes (id : ZoneId) (world : World) : Option MotionZoneDto → Stage × World
  | none => (.ended (.error (.notFound id)), world)
  | some existing => (.removing existing.cameraId id, world.forget id)

/-- The stage that a creation begins at. -/
def creates (cameraId : CameraId) (req : CreateMotionZoneRequest) (world : World) : Stage × World :=
  if Media.trim req.name = [] then (.ended (.error .nameRequired), world)
  else
    match validateCoordinates req.coordinates with
    | .error error => (.ended (.error error), world)
    | .ok () =>
      let zoneDto := req.zone world.uuid cameraId world.now
      (.persisting cameraId (.create world.uuid cameraId zoneDto.data) zoneDto,
        world.remember world.uuid zoneDto)

def next (outcome : Outcome) (world : World) : Stage → Stage × World
  | .updating id req => updates id req world (world.lookup outcome id)
  | .deleting id => deletes id world (world.lookup outcome id)
  | .persisting cameraId write _ => (.reading cameraId, world.tryWrite outcome write)
  | .removing cameraId id => (.reading cameraId, world.tryWrite outcome (.delete id))
  | .reading cameraId =>
    if outcome.failure then
      (.setting cameraId (world.rememberedZones cameraId),
        world.setCameraZones cameraId (world.rememberedZones cameraId))
    else (.delivering cameraId (world.storedZones cameraId), world)
  | .delivering cameraId zones => (.setting cameraId zones, world.setCameraZones cameraId zones)
  | .setting cameraId zones => (.ended (.ok ()), world.setCameraZones cameraId zones)
  | .listing cameraId =>
    if outcome.failure then
      (.ended (.ok ()), world.setCameraZones cameraId (world.rememberedZones cameraId))
    else (.listed cameraId (world.storedZones cameraId), world)
  | .listed cameraId zones => (.ended (.ok ()), world.setCameraZones cameraId zones)
  | .ended result => (.ended result, world)

end Stage

section Resume

variable {world : World} {outcome : Outcome} {cameraId : CameraId}

theorem ignoringResult_refresh {α : Type} (zone : α) :
    ignoringResult ((refreshCameraCache cameraId).bind fun _ ↦ done zone) =
      refreshCameraCache cameraId := by
  refine congrArg (fun next ↦ (await (Call.findMany cameraId) next : Async Unit))
    (funext fun reply ↦ ?_)
  cases reply <;> rfl

/-- A refresh does not fail. -/
theorem refreshCameraCache_catching {α : Type} (zone : α) (handler : ZoneError → Async α) :
    ((refreshCameraCache cameraId).bind fun _ ↦ done zone).catching handler =
      (refreshCameraCache cameraId).bind fun _ ↦ done zone := by
  refine congrArg (fun next ↦ (await (Call.findMany cameraId) next : Async α))
    (funext fun reply ↦ ?_)
  cases reply <;> rfl

theorem answer_write (write : ZoneWrite) :
    (∃ row, answer (.write cameraId write) outcome world =
      (.ok row, world.tryWrite outcome write)) ∨
      answer (.write cameraId write) outcome world =
        (.error .database, world.tryWrite outcome write) := by
  obtain ⟨failure, applied⟩ := outcome
  unfold World.tryWrite
  simp only [answer]
  cases write.apply world.now world.rows with
  | none => exact Or.inr rfl
  | some written =>
    cases failure <;> cases applied
    · exact Or.inl ⟨written.1, rfl⟩
    · exact Or.inl ⟨written.1, rfl⟩
    · exact Or.inr rfl
    · exact Or.inr rfl

theorem resume_persisting (write : ZoneWrite) (zoneDto : MotionZoneDto) :
    machine.resume outcome (Stage.program (.persisting cameraId write zoneDto)) world =
      (Stage.program (.reading cameraId), world.tryWrite outcome write) := by
  have hresume : machine.resume outcome (Stage.program (.persisting cameraId write zoneDto)) world =
      machine.settle (ignoringResult
        (((orThrow (answer (.write cameraId write) outcome world).1).bind fun written ↦
          (refreshCameraCache cameraId).bind fun _ ↦ done (mapPrismaZone written)).catching fun _ ↦
            (refreshCameraCache cameraId).bind fun _ ↦ done zoneDto))
        (answer (.write cameraId write) outcome world).2 := rfl
  rw [hresume]
  rcases answer_write write with ⟨row, hanswer⟩ | hanswer
  · rw [hanswer]
    dsimp only [orThrow_ok, done_bind]
    rw [refreshCameraCache_catching, ignoringResult_refresh]
    rfl
  · rw [hanswer]
    dsimp only [orThrow_error, failed_bind, failed_catching]
    rw [ignoringResult_refresh]
    rfl

theorem resume_removing (id : ZoneId) :
    machine.resume outcome (Stage.program (.removing cameraId id)) world =
      (Stage.program (.reading cameraId), world.tryWrite outcome (.delete id)) := by
  have hresume : machine.resume outcome (Stage.program (.removing cameraId id)) world =
      machine.settle
        ((((orThrow (answer (.write cameraId (.delete id)) outcome world).1).bind fun _ ↦
          done ()).catching fun _ ↦ done ()).bind fun _ ↦ refreshCameraCache cameraId)
        (answer (.write cameraId (.delete id)) outcome world).2 := rfl
  rw [hresume]
  rcases @answer_write world outcome cameraId (.delete id) with ⟨row, hanswer⟩ | hanswer
  · rw [hanswer]
    rfl
  · rw [hanswer]
    rfl

theorem resume_reading :
    machine.resume outcome (Stage.program (.reading cameraId)) world =
      (Stage.program (Stage.next outcome world (.reading cameraId)).1,
        (Stage.next outcome world (.reading cameraId)).2) := by
  obtain ⟨failure, applied⟩ := outcome
  cases failure <;> rfl

theorem resume_listing :
    machine.resume outcome (Stage.program (.listing cameraId)) world =
      (Stage.program (Stage.next outcome world (.listing cameraId)).1,
        (Stage.next outcome world (.listing cameraId)).2) := by
  obtain ⟨failure, applied⟩ := outcome
  cases failure <;> rfl

theorem settle_updateFound (id : ZoneId) (req : UpdateMotionZoneRequest)
    (found : Option MotionZoneDto) :
    machine.settle (ignoringResult (updateFound id req found)) world =
      ((Stage.updates id req world found).1.program, (Stage.updates id req world found).2) := by
  cases found with
  | none => rfl
  | some existing =>
    unfold updateFound Stage.updates
    dsimp only
    cases (req.coordinates.map validateCoordinates).getD (.ok ()) with
    | error error => rfl
    | ok checked => rfl

theorem resume_updating (id : ZoneId) (req : UpdateMotionZoneRequest) :
    machine.resume outcome (Stage.program (.updating id req)) world =
      (Stage.program (Stage.next outcome world (.updating id req)).1,
        (Stage.next outcome world (.updating id req)).2) := by
  have hfound : machine.resume outcome (Stage.program (.updating id req)) world =
      machine.settle (ignoringResult (updateFound id req (world.lookup outcome id))) world := by
    obtain ⟨failure, applied⟩ := outcome
    cases failure <;> rfl
  rw [hfound]
  exact settle_updateFound id req _

theorem settle_deleteFound (id : ZoneId) (found : Option MotionZoneDto) :
    machine.settle (deleteFound id found) world =
      ((Stage.deletes id world found).1.program, (Stage.deletes id world found).2) := by
  cases found <;> rfl

theorem resume_deleting (id : ZoneId) :
    machine.resume outcome (Stage.program (.deleting id)) world =
      (Stage.program (Stage.next outcome world (.deleting id)).1,
        (Stage.next outcome world (.deleting id)).2) := by
  have hfound : machine.resume outcome (Stage.program (.deleting id)) world =
      machine.settle (deleteFound id (world.lookup outcome id)) world := by
    obtain ⟨failure, applied⟩ := outcome
    cases failure <;> rfl
  rw [hfound]
  exact settle_deleteFound id _

theorem settle_createZone (req : CreateMotionZoneRequest) :
    machine.settle (ignoringResult (createZone cameraId req)) world =
      ((Stage.creates cameraId req world).1.program, (Stage.creates cameraId req world).2) := by
  unfold createZone Stage.creates
  by_cases hname : Media.trim req.name = []
  · rw [if_pos hname, if_pos hname]
    rfl
  · rw [if_neg hname, if_neg hname]
    cases validateCoordinates req.coordinates <;> rfl

end Resume

def staging : Staging machine ZoneError Stage where
  program := Stage.program
  next := fun stage outcome world ↦ stage.next outcome world
  resume_program := by
    intro stage outcome world
    cases stage with
    | updating id req => exact resume_updating id req
    | deleting id => exact resume_deleting id
    | persisting cameraId write zoneDto => exact resume_persisting write zoneDto
    | removing cameraId id => exact resume_removing id
    | reading cameraId => exact resume_reading
    | listing cameraId => exact resume_listing
    | ended result => cases result <;> rfl
    | _ => rfl

/-! ### What a step does to the stages -/

abbrev Stages := List (Origin × Stage)

/-- What a step makes of the stages and the world. -/
def ZoneStep.apply (stages : Stages) (world : World) : ZoneStep → Stages × World
  | .create cameraId req =>
    (stages ++ [(.create, (Stage.creates cameraId req world).1)],
      (Stage.creates cameraId req world).2)
  | .update id req => (stages ++ [(.update, .updating id req)], world)
  | .delete id => (stages ++ [(.delete, .deleting id)], world)
  | .list cameraId => (stages ++ [(.list, .listing cameraId)], world)
  | .resume thread outcome =>
    match stages[thread]? with
    | some (tag, stage) =>
      (stages.set thread (tag, (stage.next outcome world).1), (stage.next outcome world).2)
    | none => (stages, world)
  | .restart => ([], machine.restart world)
  | .event zoneEvent => (stages, machine.react zoneEvent world)

theorem step_system {stages : Stages} {world : World} (zoneStep : ZoneStep) :
    step (staging.system stages world) zoneStep =
      staging.system (zoneStep.apply stages world).1 (zoneStep.apply stages world).2 := by
  cases zoneStep with
  | create cameraId req => exact Staging.move_start (settle_createZone req)
  | update id req => exact Staging.move_start rfl
  | delete id => exact Staging.move_start rfl
  | list cameraId => exact Staging.move_start rfl
  | resume thread outcome =>
    unfold ZoneStep.apply step
    dsimp only
    cases hstage : stages[thread]? with
    | none => exact Staging.move_advance_none hstage
    | some entry => exact Staging.move_advance hstage
  | restart => rfl
  | event zoneEvent => rfl

namespace Stage

variable {world later : World} {cameraId : CameraId}

/-- The camera of an operation, once it is known. -/
def camera : Stage → Option CameraId
  | .persisting cameraId _ _ | .removing cameraId _ | .reading cameraId | .delivering cameraId _
  | .setting cameraId _ | .listing cameraId | .listed cameraId _ => some cameraId
  | .updating _ _ | .deleting _ | .ended _ => none

/-- `WillRefresh` of a stage. -/
def Refreshes (world : World) (cameraId : CameraId) : Stage → Prop
  | .persisting other _ _ | .removing other _ | .reading other | .listing other => other = cameraId
  | .delivering other zones | .setting other zones | .listed other zones =>
    other = cameraId ∧ zones = world.storedZones cameraId
  | .updating _ _ | .deleting _ | .ended _ => False

theorem concerns_program (stage : Stage) :
    Concerns cameraId stage.program ↔ stage.camera = some cameraId := by
  cases stage with
  | ended result => cases result <;> exact ⟨False.elim, nofun⟩
  | updating id req => exact ⟨False.elim, nofun⟩
  | deleting id => exact ⟨False.elim, nofun⟩
  | _ => exact ⟨congrArg some, Option.some.inj⟩

theorem willRefresh_program (stage : Stage) :
    WillRefresh world cameraId stage.program ↔ stage.Refreshes world cameraId := by
  cases stage with
  | ended result => cases result <;> exact Iff.rfl
  | _ => exact Iff.rfl

theorem Refreshes.camera {stage : Stage} (hrefreshes : stage.Refreshes world cameraId) :
    stage.camera = some cameraId := by
  cases stage with
  | ended result => exact hrefreshes.elim
  | updating id req => exact hrefreshes.elim
  | deleting id => exact hrefreshes.elim
  | persisting other write zoneDto => exact congrArg some hrefreshes
  | removing other id => exact congrArg some hrefreshes
  | reading other => exact congrArg some hrefreshes
  | listing other => exact congrArg some hrefreshes
  | delivering other zones => exact congrArg some hrefreshes.1
  | setting other zones => exact congrArg some hrefreshes.1
  | listed other zones => exact congrArg some hrefreshes.1

/-- What an operation brings depends on the stored zones alone. -/
theorem Refreshes.congr {stage : Stage} (hrefreshes : stage.Refreshes world cameraId)
    (hstored : later.storedZones cameraId = world.storedZones cameraId) :
    stage.Refreshes later cameraId := by
  unfold Refreshes at *
  rw [hstored]
  exact hrefreshes

end Stage

/-! ### What a write changes -/

section Writes

variable {rows after : List MotionZoneRow} {row : MotionZoneRow} {now : ℕ}
  {cameraId other : CameraId}

theorem filter_map_of_kept {α : Type} {kept : α → Bool} {change : α → α} {entries : List α}
    (hkept : ∀ entry ∈ entries, kept (change entry) = kept entry)
    (hsame : ∀ entry ∈ entries, kept entry = true → change entry = entry) :
    (entries.map change).filter kept = entries.filter kept := by
  induction entries with
  | nil => rfl
  | cons head rest ih =>
    obtain ⟨hhead, hrest⟩ := List.forall_mem_cons.mp hkept
    obtain ⟨hheadSame, hrestSame⟩ := List.forall_mem_cons.mp hsame
    rw [List.map_cons, List.filter_cons, List.filter_cons, ih hrest hrestSame, hhead]
    split_ifs with hmember
    · rw [hheadSame hmember]
    · rfl

/-- A write leaves the records of the other cameras alone. -/
theorem rowsOf_apply {write : ZoneWrite} (hgoes : write.GoesTo rows cameraId)
    (happly : write.apply now rows = some (row, after)) (hne : other ≠ cameraId) :
    rowsOf after other = rowsOf rows other := by
  refine congrArg (List.insertionSort _) ?_
  cases write with
  | create id owner data =>
    obtain rfl : owner = cameraId := hgoes
    unfold ZoneWrite.apply at happly
    dsimp only at happly
    split_ifs at happly
    obtain ⟨-, rfl⟩ := Prod.mk.inj (Option.some.inj happly)
    rw [List.filter_append]
    simp [Ne.symm hne]
  | update id data =>
    obtain ⟨found, hfound, hwritten⟩ := Option.map_eq_some_iff.mp happly
    obtain ⟨-, rfl⟩ := Prod.mk.inj hwritten
    have hid : found.id = id := by simpa using List.find?_some hfound
    have howner : found.cameraId = cameraId := hgoes found (List.mem_of_find?_eq_some hfound) hid
    refine filter_map_of_kept (fun entry hentry ↦ ?_) fun entry hentry hmember ↦ ?_
    · split_ifs with hsame
      · rw [howner, hgoes entry hentry hsame]
      · rfl
    · refine if_neg fun hsame ↦ hne ?_
      rw [← hgoes entry hentry hsame]
      exact (of_decide_eq_true hmember).symm
  | delete id =>
    obtain ⟨found, hfound, hwritten⟩ := Option.map_eq_some_iff.mp happly
    obtain ⟨-, rfl⟩ := Prod.mk.inj hwritten
    rw [List.filter_filter]
    refine List.filter_congr fun entry hentry ↦ ?_
    by_cases hcamera : entry.cameraId = other
    · have hid : entry.id ≠ id := fun hsame ↦ hne (hcamera.symm.trans (hgoes entry hentry hsame))
      simp [hcamera, hid]
    · simp [hcamera]

theorem storedZones_tryWrite {world : World} {outcome : Outcome} {write : ZoneWrite}
    (hgoes : write.GoesTo world.rows cameraId) (hne : other ≠ cameraId) :
    (world.tryWrite outcome write).storedZones other = world.storedZones other := by
  unfold World.tryWrite
  cases happly : write.apply world.now world.rows with
  | none => rfl
  | some written =>
    dsimp only
    split_ifs
    · rfl
    · exact congrArg (List.map mapPrismaZone) (rowsOf_apply hgoes happly hne)

theorem getCameraZones_tryWrite {world : World} {outcome : Outcome} {write : ZoneWrite} :
    (world.tryWrite outcome write).getCameraZones other = world.getCameraZones other := by
  unfold World.tryWrite
  cases write.apply world.now world.rows with
  | none => rfl
  | some written =>
    dsimp only
    split_ifs <;> rfl

theorem getCameraZones_set (world : World) (zones : List MotionZoneDto) :
    (world.setCameraZones cameraId zones).getCameraZones cameraId = zones := by
  simp only [World.setCameraZones, World.getCameraZones, Function.update_self, Option.getD_some]

theorem getCameraZones_set_of_ne (world : World) (zones : List MotionZoneDto)
    (hne : other ≠ cameraId) :
    (world.setCameraZones cameraId zones).getCameraZones other = world.getCameraZones other := by
  simp only [World.setCameraZones, World.getCameraZones, Function.update_of_ne hne]

end Writes

/-! ### What careful steps keep -/

section Runs

variable {stages : Stages} {world later : World} {cameraId : CameraId}

/-- The cache of a camera holds the stored zones, or an operation in flight will bring them. -/
def Settled (stages : Stages) (world : World) (cameraId : CameraId) : Prop :=
  world.getCameraZones cameraId = world.storedZones cameraId ∨
    ∃ entry ∈ stages, entry.2.Refreshes world cameraId

/-- Every camera is settled. -/
def Kept (stages : Stages) (world : World) : Prop := ∀ cameraId, Settled stages world cameraId

theorem isCoherent_system (hkept : Kept stages world) :
    IsCoherent (staging.system stages world) := by
  intro cameraId hquiet
  refine (hkept cameraId).resolve_right ?_
  rintro ⟨⟨tag, stage⟩, hentry, hrefreshes⟩
  refine hquiet _ (Staging.mem_threads.mpr ⟨tag, stage, hentry, rfl⟩) ?_
  exact stage.concerns_program.mpr hrefreshes.camera

theorem Settled.mono (hsettled : Settled stages world cameraId) {more : Stages}
    (hmore : ∀ entry ∈ stages, entry ∈ more)
    (hcache : later.getCameraZones cameraId = world.getCameraZones cameraId)
    (hstored : later.storedZones cameraId = world.storedZones cameraId) :
    Settled more later cameraId := by
  rcases hsettled with hsame | ⟨entry, hentry, hrefreshes⟩
  · exact Or.inl (by rw [hcache, hstored, hsame])
  · exact Or.inr ⟨entry, hmore entry hentry, hrefreshes.congr hstored⟩

section Resume

variable {thread : ℕ} {tag : Origin} {stage next : Stage} {outcome : Outcome}

theorem mem_set_of_mem_eraseIdx {entry other : Origin × Stage}
    (hentry : entry ∈ stages.eraseIdx thread) :
    entry ∈ stages.set thread other := by
  obtain ⟨index, hbound, hne, hget⟩ := List.mem_eraseIdx_iff_getElem.mp hentry
  refine List.mem_iff_getElem.mpr ⟨index, by simpa using hbound, ?_⟩
  rw [List.getElem_set_ne (Ne.symm hne)]
  exact hget

theorem eq_or_mem_eraseIdx {entry : Origin × Stage} (hstage : stages[thread]? = some (tag, stage))
    (hentry : entry ∈ stages) : entry = (tag, stage) ∨ entry ∈ stages.eraseIdx thread := by
  obtain ⟨index, hbound, hget⟩ := List.mem_iff_getElem.mp hentry
  by_cases hsame : index = thread
  · left
    obtain ⟨hbound, hget'⟩ := List.getElem?_eq_some_iff.mp hstage
    subst hsame
    exact hget.symm.trans hget'
  · exact Or.inr (List.mem_eraseIdx_iff_getElem.mpr ⟨index, hbound, hsame, hget⟩)

/-- A camera whose zones come to the cache, or that another operation will refresh. -/
theorem Settled.of_other (hother : later.getCameraZones cameraId = later.storedZones cameraId ∨
    ∃ entry ∈ stages.eraseIdx thread, entry.2.Refreshes later cameraId) :
    Settled (stages.set thread (tag, next)) later cameraId :=
  hother.imp_right fun ⟨entry, hentry, hrefreshes⟩ ↦
    ⟨entry, mem_set_of_mem_eraseIdx hentry, hrefreshes⟩

/-- A camera stays settled that the thread does not touch, when the thread brings what it
brought. -/
theorem Settled.set (hsettled : Settled stages world cameraId)
    (hstage : stages[thread]? = some (tag, stage))
    (hcache : later.getCameraZones cameraId = world.getCameraZones cameraId)
    (hstored : later.storedZones cameraId = world.storedZones cameraId)
    (hnext : stage.Refreshes world cameraId → next.Refreshes later cameraId) :
    Settled (stages.set thread (tag, next)) later cameraId := by
  rcases hsettled with hsame | ⟨entry, hentry, hrefreshes⟩
  · exact Or.inl (by rw [hcache, hstored, hsame])
  · rcases eq_or_mem_eraseIdx hstage hentry with rfl | hother
    · obtain ⟨hbound, -⟩ := List.getElem?_eq_some_iff.mp hstage
      exact Or.inr ⟨(tag, next), List.mem_set hbound _, hnext hrefreshes⟩
    · exact Or.inr ⟨entry, mem_set_of_mem_eraseIdx hother, hrefreshes.congr hstored⟩

/-- Zones come to the cache of their camera. -/
theorem Kept.set_zones (hkept : Kept stages world) (hstage : stages[thread]? = some (tag, stage))
    (hcamera : stage.camera = some cameraId) {zones : List MotionZoneDto}
    (hzones : zones = world.storedZones cameraId ∨
      ∃ entry ∈ stages.eraseIdx thread, entry.2.Refreshes world cameraId) :
    Kept (stages.set thread (tag, next)) (world.setCameraZones cameraId zones) := by
  intro other
  by_cases hsame : other = cameraId
  · subst hsame
    refine Settled.of_other (hzones.imp (fun hstored ↦ ?_) ?_)
    · rw [getCameraZones_set, hstored]
      rfl
    · rintro ⟨entry, hentry, hrefreshes⟩
      exact ⟨entry, hentry, hrefreshes.congr rfl⟩
  · refine (hkept other).set hstage (getCameraZones_set_of_ne world zones hsame) rfl
      fun hrefreshes ↦ ?_
    exact absurd (Option.some.inj (hrefreshes.camera.symm.trans hcamera)) hsame

/-- A write has been tried, and the zones of its camera are read after it. -/
theorem Kept.set_write (hkept : Kept stages world) (hstage : stages[thread]? = some (tag, stage))
    (hcamera : stage.camera = some cameraId) {write : ZoneWrite}
    (hgoes : write.GoesTo world.rows cameraId) :
    Kept (stages.set thread (tag, .reading cameraId)) (world.tryWrite outcome write) := by
  intro other
  by_cases hsame : other = cameraId
  · subst hsame
    obtain ⟨hbound, -⟩ := List.getElem?_eq_some_iff.mp hstage
    exact Or.inr ⟨(tag, .reading other), List.mem_set hbound _, rfl⟩
  · refine (hkept other).set hstage getCameraZones_tryWrite (storedZones_tryWrite hgoes hsame)
      fun hrefreshes ↦ ?_
    exact absurd (Option.some.inj (hrefreshes.camera.symm.trans hcamera)) hsame

/-- A thread that leaves the cache and the table alone. -/
theorem Kept.set_same (hkept : Kept stages world) (hstage : stages[thread]? = some (tag, stage))
    (hcache : later.cameraZonesCache = world.cameraZonesCache) (hrows : later.rows = world.rows)
    (hnext : ∀ cameraId, stage.Refreshes world cameraId → next.Refreshes later cameraId) :
    Kept (stages.set thread (tag, next)) later := by
  intro other
  refine (hkept other).set hstage ?_ ?_ (hnext other)
  · unfold World.getCameraZones
    rw [hcache]
  · unfold World.storedZones
    rw [hrows]

theorem exists_willRefresh_iff {reached : World} :
    (∃ thread ∈ (staging.system stages world).threads, WillRefresh reached cameraId thread.2) ↔
      ∃ entry ∈ stages, entry.2.Refreshes reached cameraId := by
  constructor
  · rintro ⟨_, hmem, hrefreshes⟩
    obtain ⟨tag, stage, hstage, rfl⟩ := Staging.mem_threads.mp hmem
    exact ⟨(tag, stage), hstage, stage.willRefresh_program.mp hrefreshes⟩
  · rintro ⟨⟨tag, stage⟩, hstage, hrefreshes⟩
    exact ⟨_, Staging.mem_threads.mpr ⟨tag, stage, hstage, rfl⟩,
      stage.willRefresh_program.mpr hrefreshes⟩

theorem refreshed_iff : Refreshed (staging.system stages world) thread cameraId ↔
    ∃ entry ∈ stages.eraseIdx thread, entry.2.Refreshes world cameraId := by
  unfold Refreshed
  rw [Staging.eraseIdx_threads]
  exact exists_willRefresh_iff

theorem Kept.resume (hkept : Kept stages world) (hstage : stages[thread]? = some (tag, stage))
    (hcareful : IsCareful (staging.system stages world) thread outcome) :
    Kept (stages.set thread (tag, (stage.next outcome world).1)) (stage.next outcome world).2 := by
  have hthread : (staging.system stages world).threads[thread]? = some (tag, stage.program) := by
    rw [Staging.getElem_threads, hstage]
    rfl
  cases stage with
  | updating id req =>
    unfold Stage.next Stage.updates
    dsimp only
    cases world.lookup outcome id with
    | none => exact hkept.set_same hstage rfl rfl nofun
    | some existing =>
      dsimp only
      cases (req.coordinates.map validateCoordinates).getD (.ok ()) <;>
        exact hkept.set_same hstage rfl rfl nofun
  | deleting id =>
    unfold Stage.next Stage.deletes
    dsimp only
    cases world.lookup outcome id <;> exact hkept.set_same hstage rfl rfl nofun
  | persisting cameraId write zoneDto =>
    exact hkept.set_write hstage rfl (hcareful _ _ _ hthread)
  | removing cameraId id => exact hkept.set_write hstage rfl (hcareful _ _ _ hthread)
  | reading cameraId =>
    unfold Stage.next
    dsimp only
    split_ifs with hfailure
    · exact hkept.set_zones hstage rfl
        ((hcareful _ _ _ hthread hfailure).imp_right refreshed_iff.mp)
    · exact hkept.set_same hstage rfl rfl fun other hother ↦ ⟨hother, hother ▸ rfl⟩
  | delivering cameraId zones =>
    exact hkept.set_zones hstage rfl ((hcareful _ _ _ hthread).imp_right refreshed_iff.mp)
  | setting cameraId zones =>
    exact hkept.set_zones hstage rfl ((hcareful _ _ _ hthread).imp_right refreshed_iff.mp)
  | listing cameraId =>
    unfold Stage.next
    dsimp only
    split_ifs with hfailure
    · exact hkept.set_zones hstage rfl
        ((hcareful _ _ _ hthread hfailure).imp_right refreshed_iff.mp)
    · exact hkept.set_same hstage rfl rfl fun other hother ↦ ⟨hother, hother ▸ rfl⟩
  | listed cameraId zones =>
    exact hkept.set_zones hstage rfl ((hcareful _ _ _ hthread).imp_right refreshed_iff.mp)
  | ended result => exact hkept.set_same hstage rfl rfl nofun

end Resume

/-- A new operation, which has neither written nor read yet. -/
theorem Kept.append (hkept : Kept stages world) (entry : Origin × Stage)
    (hcache : later.cameraZonesCache = world.cameraZonesCache) (hrows : later.rows = world.rows) :
    Kept (stages ++ [entry]) later := by
  intro cameraId
  refine (hkept cameraId).mono (fun other hother ↦ List.mem_append_left _ hother) ?_ ?_
  · unfold World.getCameraZones
    rw [hcache]
  · unfold World.storedZones
    rw [hrows]

theorem Kept.create (hkept : Kept stages world) (req : CreateMotionZoneRequest) :
    Kept (stages ++ [(.create, (Stage.creates cameraId req world).1)])
      (Stage.creates cameraId req world).2 := by
  unfold Stage.creates
  split_ifs
  · exact hkept.append _ rfl rfl
  · cases validateCoordinates req.coordinates <;> exact hkept.append _ rfl rfl

theorem kept_restart (hrows : world.rows = []) : Kept [] (machine.restart world) := by
  intro cameraId
  left
  have hstored : (machine.restart world).storedZones cameraId = [] := by
    have hrestarted : (machine.restart world).rows = [] := hrows
    unfold World.storedZones rowsOf
    rw [hrestarted]
    rfl
  rw [hstored]
  rfl

theorem Kept.step (hkept : Kept stages world) (zoneStep : ZoneStep)
    (hcareful : zoneStep.IsCareful (staging.system stages world)) :
    Kept (zoneStep.apply stages world).1 (zoneStep.apply stages world).2 := by
  cases zoneStep with
  | create cameraId req => exact hkept.create req
  | update id req => exact hkept.append _ rfl rfl
  | delete id => exact hkept.append _ rfl rfl
  | list cameraId => exact hkept.append _ rfl rfl
  | resume thread outcome =>
    unfold ZoneStep.apply
    dsimp only
    cases hstage : stages[thread]? with
    | none => exact hkept
    | some entry => exact hkept.resume hstage hcareful
  | restart => exact kept_restart hcareful
  | event zoneEvent =>
    cases zoneEvent with
    | restore rows => exact fun cameraId ↦ (hcareful cameraId).imp_right exists_willRefresh_iff.mp
    | tick now uuid => exact hkept

/-- Motion events are filtered with the stored zones in a run whose steps are careful. -/
theorem eachState_isCoherent (steps : List ZoneStep) :
    EachMove Zones.step (fun system zoneStep ↦ zoneStep.IsCareful system) initial steps →
      EachState Zones.step IsCoherent initial steps := by
  intro heach
  refine heach.eachState (fun system ↦ ∃ stages world,
    system = staging.system stages world ∧ Kept stages world)
    ⟨[], {}, rfl, fun _ ↦ Or.inl rfl⟩ ?_ ?_
  · rintro _ ⟨stages, world, rfl, hkept⟩
    exact isCoherent_system hkept
  · rintro _ zoneStep ⟨stages, world, rfl, hkept⟩ hcareful
    exact ⟨_, _, step_system zoneStep, hkept.step zoneStep hcareful⟩

end Runs

/-- A triangle to keep out of the motion events. -/
def hedge : CreateMotionZoneRequest where
  name := ['h', 'e', 'd', 'g', 'e']
  zoneType := .exclusion
  coordinates := [⟨0, 0⟩, ⟨1, 0⟩, ⟨0, 1⟩]
  enabled := none
  color := none

/-- A zone is created: the write, the read, the answer to it and the zones set once more. -/
def creation : List ZoneStep :=
  [.create "gate" hedge, .resume 0 {}, .resume 0 {}, .resume 0 {}, .resume 0 {}]

theorem eachState_isCoherent_creation : EachState step IsCoherent initial creation := by
  refine eachState_isCoherent creation ?_
  refine eachMove_cons.mpr ⟨trivial, eachMove_cons.mpr ⟨?_, eachMove_cons.mpr ⟨?_, eachMove_cons.mpr
    ⟨?_, eachMove_cons.mpr ⟨?_, eachMove_nil⟩⟩⟩⟩⟩
  · exact isCareful_of_await rfl rfl
  · exact isCareful_of_await rfl nofun
  · exact isCareful_of_await rfl (Or.inl rfl)
  · exact isCareful_of_await rfl (Or.inl rfl)

/-- The process restarts after a zone was created. -/
theorem not_isCoherent_restart : ¬ EachState step IsCoherent initial (creation ++ [.restart]) := by
  intro heach
  have hcoherent := heach (creation ++ [.restart]) List.prefix_rfl "gate"
  have hstored : (runMoves step initial (creation ++ [.restart])).world.storedZones
      "gate" ≠ [] := by
    decide
  refine hstored (hcoherent ?_).symm
  intro thread hthread
  exact absurd hthread List.not_mem_nil

end VmsLite.Zones
