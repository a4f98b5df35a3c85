import VmsLite.Recordings.IngestLoop
import VmsLite.Recordings.SegmentNames

/-!
# Exactly-once ingest

The ingest keeps its promise in every careful run (`exactlyOnce_of_careful`). A file that has a row
keeps it, or never gets another, because the onlooker's list of catalogued files only grows
(`Assigned`); the newest file is catalogued quietly because each call of a scan is
(`Reaches.advance_amid`); and a scan without failures leaves no finished file behind because the
invariant says that everything up to the watermark and up to the newest row has a row
(`scan_amid`).

Without care it does not (`not_exactlyOnce_stat_error`): a file that one failed `stat` hides from
the scan is passed over, the next file moves the watermark beyond it, and no later scan comes back.
-/

set_option autoImplicit false

namespace VmsLite.Recordings

open VmsLite.Async Program

namespace CameraIngest

variable {cataloguer : CameraIngest} {initial : Scene}
  {state : Turn Call Reply Failure Scene}

/-! ### Careful runs -/

theorem runs_surrounds :
    Surrounds (cataloguer.setting none) cataloguer.Sound (fun _ ↦ True) (fun _ _ ↦ True)
      (cataloguer.runs cataloguer.Careful) where
  start_amid := by
    rintro state program ⟨-, rfl⟩ hsound
    have hnone : ∀ name ∈ (none : Option String), isSegmentFile name = true := nofun
    exact (scan_amid hnone (hsound.ready_scanned rfl).1).mono (fun _ _ _ ↦ trivial)
      fun _ _ _ ↦ trivial
  advance_allowed := by
    intro state outcome call next hlegal hcurrent
    obtain ⟨hpossible, hcareful⟩ := hlegal call next hcurrent
    exact ⟨hpossible, hcareful, nofun⟩
  crash_post := fun _ hsound ↦ ⟨hsound.restart, fun _ _ ↦ trivial⟩
  environment_change := fun hlegal _ ↦ ⟨around_react hlegal.1 hlegal.2, nofun⟩
  change_invariant := fun hchange hsound ↦ hsound.calm hchange.1.toCalm
  step_invariant := fun hingests hsound ↦ hingests.sound hsound

variable (cataloguer) in
/-- What runs amid what happens, in a scene where the invariant holds. -/
def Ingesting (state : Turn Call Reply Failure Scene) : Prop :=
  state.current.Amid (cataloguer.setting none) (fun _ _ ↦ True) (fun _ _ ↦ True) state.world ∧
    cataloguer.Sound state.world

theorem Fresh.ingesting (hfresh : cataloguer.Fresh initial) :
    cataloguer.Ingesting { current := .done (), world := initial } :=
  ⟨fun _ _ ↦ trivial, hfresh.sound⟩

theorem Ingesting.reached {before : Turn Call Reply Failure Scene}
    (hbefore : cataloguer.Ingesting before)
    (hreached : Reaches cataloguer.machine.turn (cataloguer.runs cataloguer.Careful) before
      state) : cataloguer.Ingesting state :=
  hreached.amid runs_surrounds hbefore.1 hbefore.2

/-- A call of a careful run changes nothing, or is a step of the ingest. -/
theorem Ingesting.advance (hingesting : cataloguer.Ingesting state) {outcome : Outcome}
    (hlegal : cataloguer.runs cataloguer.Careful state (.advance outcome)) :
    (cataloguer.machine.turn state (.advance outcome)).world = state.world ∨
      cataloguer.Ingests state.world (cataloguer.machine.turn state (.advance outcome)).world :=
  Reaches.refl.advance_amid runs_surrounds hingesting.1 hingesting.2 hlegal

/-! ### No second row -/

variable (cataloguer) in
/-- A file was catalogued, and it has no row but the one it was given. -/
structure Assigned (name : String) (id : RecordingId) (scene : Scene) : Prop where
  catalogued : cataloguer.path name ∈ scene.catalogued
  same : ∀ row ∈ scene.world.recordings.rows, row.filePath = cataloguer.path name → row.id = id

variable {name : String} {id : RecordingId} {before after scene : Scene}

/-- A row assigns its file to it. -/
theorem Sound.assigned (hsound : cataloguer.Sound scene) {row : Recording}
    (hrow : row ∈ scene.world.recordings.rows) (hpath : row.filePath = cataloguer.path name) :
    cataloguer.Assigned name row.id scene where
  catalogued := hsound.catalogued_row name ⟨row, hrow, hpath⟩
  same := fun _ hother hsame ↦ congrArg Recording.id
    (List.inj_on_of_nodup_map scene.world.recordings.paths_nodup hother hrow
      (hsame.trans hpath.symm))

theorem Assigned.calm (hcalm : cataloguer.Calm before after)
    (hassigned : cataloguer.Assigned name id before) : cataloguer.Assigned name id after where
  catalogued := (hcalm.catalogued name).mpr hassigned.catalogued
  same := by
    intro row hrow hpath
    obtain ⟨old, hold, hsame⟩ := hcalm.row_origin row hrow (Or.inr ⟨name, hpath⟩)
    rw [hsame.id_eq]
    exact hassigned.same old hold (hsame.filePath_eq.symm.trans hpath)

theorem Assigned.ingests (hingests : cataloguer.Ingests before after)
    (hassigned : cataloguer.Assigned name id before) : cataloguer.Assigned name id after where
  catalogued := hingests.catalogued _ hassigned.catalogued
  same := by
    intro row hrow hpath
    rcases hingests.once row hrow name hpath with ⟨old, hold, hid, hfile⟩ | hnever
    · rw [← hid]
      exact hassigned.same old hold (hfile.trans hpath)
    · exact absurd hassigned.catalogued hnever

/-- What a file was assigned stays so through a careful run. -/
theorem Assigned.reached {first : Turn Call Reply Failure Scene}
    (hingesting : cataloguer.Ingesting first)
    (hassigned : cataloguer.Assigned name id first.world)
    (hreached : Reaches cataloguer.machine.turn (cataloguer.runs cataloguer.Careful) first
      state) : cataloguer.Assigned name id state.world := by
  induction hreached with
  | refl => exact hassigned
  | @step state move hbefore hlegal ih =>
    cases move with
    | start program => exact ih
    | advance outcome =>
      rcases (hingesting.reached hbefore).advance hlegal with hsame | hingests
      · rw [hsame]
        exact ih
      · exact ih.ingests hingests
    | crash => exact ⟨ih.catalogued, ih.same⟩
    | environment event => exact ih.calm (calm_react hlegal.1 hlegal.2)

/-! ### No file left behind -/

/-- The moves of a scan without failures, while a segment is finished. -/
theorem failureFree_surrounds (hsegment : isSegmentFile name = true) :
    Surrounds (cataloguer.setting (some name)) cataloguer.Sound
      (cataloguer.Scanned (some name)) (fun _ ↦ cataloguer.Scanned (some name))
      (fun state move ↦ cataloguer.failureFree cataloguer.Careful state move ∧
        cataloguer.Finished name state.world ∧
          cataloguer.Finished name (cataloguer.machine.turn state move).world) where
  start_amid := fun hlegal _ ↦ hlegal.1.elim
  advance_allowed := by
    rintro state outcome call next ⟨⟨hlegal, hpasses⟩, -, -⟩ hcurrent
    obtain ⟨hpossible, hcareful⟩ := hlegal call next hcurrent
    exact ⟨hpossible, hcareful, fun _ ↦ hpasses call next hcurrent⟩
  crash_post := fun hlegal _ ↦ hlegal.1.elim
  environment_change := by
    rintro state event ⟨⟨hpossible, hcareful⟩, hbefore, hafter⟩ hsound
    refine ⟨around_react hpossible hcareful, fun other hother ↦ ?_⟩
    obtain rfl := Option.some.inj hother
    exact ⟨hafter, quiet_react hpossible hcareful hsegment hsound hbefore hafter⟩
  change_invariant := fun hchange hsound ↦ hsound.calm hchange.1.toCalm
  step_invariant := fun hingests hsound ↦ hingests.sound hsound

/-- A scan without failures gives every file a row that is finished all through it. -/
theorem Sound.hasRow_of_failureFree (hsound : cataloguer.Sound scene)
    (hsegment : isSegmentFile name = true)
    {moves : List (TurnMove Call Reply Failure Outcome IngestEvent)}
    (hlegal : LegalRun cataloguer.machine.turn (cataloguer.failureFree cataloguer.Careful)
      { current := cataloguer.ingest.scan.bind fun _ ↦ done (), world := scene } moves)
    (hover : (runMoves cataloguer.machine.turn
      { current := cataloguer.ingest.scan.bind fun _ ↦ done (), world := scene }
      moves).current.isOver = true)
    (hfinished : EachState cataloguer.machine.turn
      (fun reached ↦ cataloguer.Finished name reached.world)
      { current := cataloguer.ingest.scan.bind fun _ ↦ done (), world := scene } moves) :
    (runMoves cataloguer.machine.turn
      { current := cataloguer.ingest.scan.bind fun _ ↦ done (), world := scene }
      moves).world.HasRow (cataloguer.path name) := by
  have hready : cataloguer.Ready (some name) scene := by
    refine ⟨hsound, fun other hother ↦ ?_⟩
    obtain rfl := Option.some.inj hother
    exact hfinished [] List.nil_prefix
  have hnames : ∀ other ∈ some name, isSegmentFile other = true := by
    rintro other hother
    obtain rfl := Option.some.inj hother
    exact hsegment
  obtain ⟨hamid, -⟩ := (Reaches.refl.run (hlegal.between hfinished)).amid
    (failureFree_surrounds hsegment) (scan_amid hnames hready) hsound
  have hscanned := hamid.of_isOver hover
  have hdisk := (hfinished moves List.prefix_rfl).1
  exact hscanned.settled name rfl (CameraIngest.mem_names.mpr ⟨hsegment, hdisk⟩)

/-! ### The promise -/

/-- The ingest of a camera keeps its promise in every careful run. -/
theorem exactlyOnce_of_careful (hfresh : cataloguer.Fresh initial) :
    cataloguer.ExactlyOnce cataloguer.Careful initial where
  once := by
    intro state hreached moves hlegal row hrow later hlater name _ hpath hlaterPath
    have hingesting := hfresh.ingesting.reached hreached
    have hassigned := hingesting.2.assigned hrow hpath
    exact (hassigned.reached hingesting (Reaches.refl.run hlegal)).same later hlater hlaterPath
  quiet := by
    intro state hreached outcome hlegal row hrow hnew name hnewest hpath
    rcases (hfresh.ingesting.reached hreached).advance hlegal with hsame | hingests
    · rw [hsame] at hrow
      exact absurd rfl (hnew row hrow)
    · exact hingests.quiet row hrow hnew name hnewest hpath
  complete := by
    intro state hreached _ moves hlegal hover name hsegment hfinished
    exact (hfresh.ingesting.reached hreached).2.hasRow_of_failureFree hsegment hlegal hover
      hfinished

/-! ### One segment in the yard -/

/-- The program is about to delete a row. -/
def deletesNext : Async Unit → Bool
  | .await (.deleteRecording _) _ => true
  | _ => false

theorem possible_of_not_deletesNext (hdeletes : deletesNext state.current = false) {call : Call}
    {next : Reply call → Async Unit} (hcurrent : state.current = .await call next)
    (outcome : Outcome) : cataloguer.Possible (.called call outcome) state.world := by
  rw [hcurrent] at hdeletes
  cases call <;> trivial

theorem careful_of_missed_nil (hmissed : scene.missed = []) (call : Call) (outcome : Outcome) :
    cataloguer.Careful (.called call outcome) scene := by
  have hsettled : ∀ except, MissedSettled scene except := by
    intro except path hpath
    rw [hmissed] at hpath
    exact absurd hpath List.not_mem_nil
  cases call with
  | createRecording data => exact fun _ _ ↦ hsettled _
  | setWatermark cameraId watermark => exact fun _ ↦ hsettled _
  | _ => trivial

def yardIngest : CameraIngest where
  ingest := { recordingsRoot := ["rec"] }
  camera := { id := "cam", name := "Yard", mediaMtxPath := "yard" }

/-- The yard with nothing in it but the camera. -/
def yardScene : Scene where
  world :=
    { yardWorld.removeRows fun _ ↦ true with
      cameras := [yardIngest.camera]
      files := []
      now := 1767225700000 }

theorem fresh_yardScene : yardIngest.Fresh yardScene where
  mem_cameras := List.mem_cons_self
  id_unique := fun _ hother _ ↦ List.mem_singleton.mp hother
  path_unique := fun _ hother _ ↦ List.mem_singleton.mp hother
  no_segments := fun _ hpath ↦ absurd hpath List.not_mem_nil
  no_rows := fun _ hrow ↦ absurd hrow List.not_mem_nil
  no_watermark := rfl
  no_history := ⟨rfl, rfl, rfl, rfl⟩

def quietSegment : String := "2026-01-01_00-00-01-000001.mp4"

/-- The yard with a segment that nobody writes any more. -/
def segmentYard : Turn Call Reply Failure Scene :=
  yardIngest.machine.turn { current := .done (), world := yardScene }
    (.environment (.segmentAppears quietSegment 5000 1767225605000
      [0, 0, 0, 24, 102, 116, 121, 112]))

def scanning (state : Turn Call Reply Failure Scene) : Turn Call Reply Failure Scene :=
  { state with current := yardIngest.ingest.scan.bind fun _ ↦ done () }

theorem segmentYard_reached {condition : Happening → Scene → Prop}
    (hcondition : ∀ size mtimeMs header,
      condition (.occurred (.segmentAppears quietSegment size mtimeMs header)) yardScene) :
    Reaches yardIngest.machine.turn (yardIngest.runs condition)
      { current := .done (), world := yardScene } segmentYard :=
  Reaches.refl.step ⟨⟨by decide, nofun⟩, hcondition _ _ _⟩

/-- Nothing is written, so the segment is finished. -/
theorem finished_quietSegment
    (hfile : scene.world.fileAt (yardIngest.path quietSegment) =
      segmentYard.world.world.fileAt (yardIngest.path quietSegment))
    (hnow : scene.world.now = 1767225700000) : yardIngest.Finished quietSegment scene := by
  refine ⟨?_, Or.inr fun file hfound ↦ ?_⟩
  · rw [World.onDisk_eq_isSome, hfile]
    decide
  · rw [hfile] at hfound
    have hmtime : file.mtimeMs = 1767225605000 := by
      cases hfound
      rfl
    rw [hmtime, hnow]
    decide

/-- The calls of a scan of the yard. -/
def yardCalls (count : ℕ) : List (TurnMove Call Reply Failure Outcome IngestEvent) :=
  List.replicate count (.advance .ok)

/-- In the yard a scan that nothing disturbs gives the segment its row. -/
theorem exactlyOnce_yard :
    yardIngest.ExactlyOnce yardIngest.Careful yardScene ∧
      (runMoves yardIngest.machine.turn (scanning segmentYard) (yardCalls 18)).world.HasRow
        (yardIngest.path quietSegment) := by
  have hexactly := exactlyOnce_of_careful fresh_yardScene
  have heach : EachState yardIngest.machine.turn
      (fun state ↦ deletesNext state.current = false ∧ state.world.missed = [] ∧
        state.world.world.fileAt (yardIngest.path quietSegment) =
          segmentYard.world.world.fileAt (yardIngest.path quietSegment) ∧
        state.world.world.now = 1767225700000) (scanning segmentYard) (yardCalls 18) := by
    decide
  refine ⟨hexactly, hexactly.complete segmentYard (segmentYard_reached fun _ _ _ ↦ nofun) rfl _
    (heach.legalRun ?_) ?_ quietSegment ?_ ?_⟩
  · rintro state ⟨hdeletes, hmissed, -⟩ move hmove
    obtain rfl := List.eq_of_mem_replicate hmove
    exact ⟨fun call next hcurrent ↦ ⟨possible_of_not_deletesNext hdeletes hcurrent _,
      careful_of_missed_nil hmissed call _⟩, fun _ _ _ _ ↦ rfl⟩
  · decide
  · decide
  · exact fun before hbefore ↦ finished_quietSegment (heach before hbefore).2.2.1
      (heach before hbefore).2.2.2

/-- The same, but the validator's `stat` of the segment fails. -/
def missingCalls : List (TurnMove Call Reply Failure Outcome IngestEvent) :=
  yardCalls 9 ++ .advance (.fail { code := .eio, message := "EIO: i/o error, stat" }) ::
    yardCalls 3

def missedYard : Turn Call Reply Failure Scene :=
  runMoves yardIngest.machine.turn (scanning segmentYard) missingCalls

/-- A segment that one failed `stat` hid from the scan is behind the watermark: no later scan gives
it a row. -/
theorem not_exactlyOnce_stat_error :
    yardIngest.Fresh yardScene ∧ ¬ yardIngest.ExactlyOnce (fun _ _ ↦ True) yardScene := by
  refine ⟨fresh_yardScene, fun hexactly ↦ ?_⟩
  have hfirst : EachState yardIngest.machine.turn
      (fun state ↦ deletesNext state.current = false) (scanning segmentYard) missingCalls := by
    decide
  have hsecond : EachState yardIngest.machine.turn
      (fun state ↦ deletesNext state.current = false ∧
        state.world.world.fileAt (yardIngest.path quietSegment) =
          segmentYard.world.world.fileAt (yardIngest.path quietSegment) ∧
        state.world.world.now = 1767225700000) (scanning missedYard) (yardCalls 5) := by
    decide
  have hstarted : Reaches yardIngest.machine.turn (yardIngest.runs fun _ _ ↦ True)
      { current := .done (), world := yardScene } (scanning segmentYard) :=
    (segmentYard_reached fun _ _ _ ↦ trivial).step
      (show yardIngest.runs _ segmentYard (.start _) from ⟨rfl, rfl⟩)
  have hmissed : Reaches yardIngest.machine.turn (yardIngest.runs fun _ _ ↦ True)
      { current := .done (), world := yardScene } missedYard := by
    refine hstarted.run (hfirst.legalRun fun state hdeletes move hmove ↦ ?_)
    obtain ⟨outcome, rfl⟩ : ∃ outcome, move = .advance outcome := by
      simp only [missingCalls, yardCalls, List.mem_append, List.mem_cons, List.mem_replicate]
        at hmove
      rcases hmove with ⟨-, rfl⟩ | rfl | ⟨-, rfl⟩ <;> exact ⟨_, rfl⟩
    exact fun call next hcurrent ↦ ⟨possible_of_not_deletesNext hdeletes hcurrent _, trivial⟩
  have hrow := hexactly.complete missedYard hmissed (by decide) (yardCalls 5)
    (hsecond.legalRun fun state hstate move hmove ↦ ?_) (by decide) quietSegment (by decide)
    fun before hbefore ↦ finished_quietSegment (hsecond before hbefore).2.1
      (hsecond before hbefore).2.2
  · obtain ⟨row, hrow, -⟩ := hrow
    exact List.not_mem_nil (show row ∈ [] from hrow)
  · obtain rfl := List.eq_of_mem_replicate hmove
    exact ⟨fun call next hcurrent ↦ ⟨possible_of_not_deletesNext hstate.1 hcurrent _, trivial⟩,
      fun _ _ _ _ ↦ rfl⟩

end CameraIngest

end VmsLite.Recordings
