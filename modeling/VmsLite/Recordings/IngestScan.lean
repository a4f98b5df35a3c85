import VmsLite.Recordings.Footprint
import VmsLite.Recordings.IngestCoverage

/-!
# A scan amid what happens

What one scan does to the camera while anything careful happens around it. Around a scan nothing
that is `examined` is written (`Around`), and each of its calls keeps the invariant, writes no
second row and no row for a newest file that is not quiet (`Ingests`). With a `target` the setting
is that of a scan without failures and of a segment that is finished all through it: then the scan
ends with a row for it.
-/

set_option autoImplicit false

namespace VmsLite.Recordings

open VmsLite.Async Program

namespace CameraIngest

variable (cataloguer : CameraIngest)

/-! ### The setting -/

/-- What careful happenings around a scan do. -/
structure Around (before after : Scene) : Prop extends cataloguer.Calm before after where
  missed_eq : after.missed = before.missed
  examined_eq : after.examined = before.examined
  unwritten : ∀ name, isSegmentFile name = true →
    before.examined = some (cataloguer.path name) → Known name before → ∀ file,
      after.world.fileAt (cataloguer.path name) = some file →
        before.world.fileAt (cataloguer.path name) = some file

/-- What one call of a scan does. -/
structure Ingests (before after : Scene) : Prop where
  sound : cataloguer.Sound before → cataloguer.Sound after
  catalogued : ∀ path ∈ before.catalogued, path ∈ after.catalogued
  once : ∀ row ∈ after.world.recordings.rows, ∀ name, row.filePath = cataloguer.path name →
    (∃ old ∈ before.world.recordings.rows, old.id = row.id ∧ old.filePath = row.filePath) ∨
      cataloguer.path name ∉ before.catalogued
  quiet : ∀ row ∈ after.world.recordings.rows,
    (∀ old ∈ before.world.recordings.rows, old.id ≠ row.id) →
      ∀ name ∈ before.newest, row.filePath = cataloguer.path name → cataloguer.Quiet name before

/-- A scan amid careful happenings; with a target, one without failures, while the target is
finished. -/
def setting (target : Option String) : Setting cataloguer.machine where
  allowed := fun call outcome scene ↦ cataloguer.Possible (.called call outcome) scene ∧
    cataloguer.Careful (.called call outcome) scene ∧
      (target.isSome = true → cataloguer.concerns call = true → outcome.passes = true)
  change := fun before after ↦ cataloguer.Around before after ∧ ∀ name ∈ target,
    cataloguer.Finished name after ∧ (cataloguer.Quiet name before → cataloguer.Quiet name after)
  step := cataloguer.Ingests

variable {cataloguer}

theorem Ingests.of_calm {before after : Scene} (hcalm : cataloguer.Calm before after)
    (hcatalogued : ∀ path ∈ before.catalogued, path ∈ after.catalogued) :
    cataloguer.Ingests before after where
  sound := fun hsound ↦ hsound.calm hcalm
  catalogued := hcatalogued
  once := by
    intro row hrow name hpath
    obtain ⟨old, hold, hsame⟩ := hcalm.row_origin row hrow (Or.inr ⟨name, hpath⟩)
    exact Or.inl ⟨old, hold, hsame.id_eq.symm, hsame.filePath_eq.symm⟩
  quiet := by
    intro row hrow hnew name _ hpath
    obtain ⟨old, hold, hsame⟩ := hcalm.row_origin row hrow (Or.inr ⟨name, hpath⟩)
    exact absurd hsame.id_eq.symm (hnew old hold)

theorem Ingests.refl (scene : Scene) : cataloguer.Ingests scene scene :=
  Ingests.of_calm (Calm.refl scene) fun _ ↦ id

/-! ### Quiet files -/

/-- A file that is quiet stays so while it is not written and time passes. -/
theorem Quiet.of_fileAt {before after : Scene} {name : String}
    (hquiet : cataloguer.Quiet name before) (hnow : before.world.now ≤ after.world.now)
    (hfile : ∀ file, after.world.fileAt (cataloguer.path name) = some file →
      before.world.fileAt (cataloguer.path name) = some file) :
    cataloguer.Quiet name after := by
  intro file hafter
  have hbefore := hquiet file (hfile file hafter)
  omega

theorem Quiet.still {before after : Scene} {name : String} (hstill : cataloguer.Still before after)
    (hquiet : cataloguer.Quiet name before) : cataloguer.Quiet name after := by
  refine hquiet.of_fileAt hstill.now_eq.ge fun file hfile ↦ ?_
  rwa [World.fileAt, hstill.files_eq] at hfile

theorem Finished.still {before after : Scene} {name : String}
    (hstill : cataloguer.Still before after) (hfinished : cataloguer.Finished name before) :
    cataloguer.Finished name after := by
  obtain ⟨hdisk, hnewer⟩ := hfinished
  have hsame : ∀ path, after.world.onDisk path = before.world.onDisk path := fun path ↦ by
    rw [World.onDisk, World.onDisk, hstill.files_eq]
  refine ⟨(hsame _).trans hdisk, hnewer.imp ?_ fun hquiet ↦ hquiet.still hstill⟩
  rintro ⟨newer, hsegment, hstart, hfile⟩
  exact ⟨newer, hsegment, hstart, (hsame _).trans hfile⟩

/-- What happens around a scan leaves a known segment's file alone, unless it writes it. -/
theorem fileAt_react {event : IngestEvent} {scene : Scene} {name : String}
    (hpossible : cataloguer.Possible (.occurred event) scene)
    (hcareful : cataloguer.Careful (.occurred event) scene) (hsegment : isSegmentFile name = true)
    (hknown : Known name scene)
    (hunwritten : ∀ size mtimeMs header, event ≠ .segmentWritten name size mtimeMs header)
    {file : DiskFile}
    (hfile : (cataloguer.react event scene).world.fileAt (cataloguer.path name) = some file) :
    scene.world.fileAt (cataloguer.path name) = some file := by
  cases event with
  | segmentAppears other size mtimeMs header =>
    obtain ⟨last, hlast, hupTo⟩ := hknown
    have hlater : Precedes last other := ⟨hcareful last hlast, hpossible.2 last hlast⟩
    have hne : cataloguer.path other ≠ cataloguer.path name :=
      fun hsame ↦ (hupTo.precedes hlater).ne (path_inj.mp hsame).symm
    exact (find?_path_append hne).symm.trans hfile
  | segmentWritten other size mtimeMs header =>
    have hne : cataloguer.path name ≠ cataloguer.path other := by
      intro hsame
      rw [← path_inj.mp hsame] at hunwritten
      exact hunwritten size mtimeMs header rfl
    exact (find?_path_rewrite _ (fun file ↦ { file with size, mtimeMs, header }) (fun _ ↦ rfl)
      hne).symm.trans hfile
  | fileRemoved path => exact scene.world.fileAt_removeFile hfile
  | rowRemoved id => exact hfile
  | rowUpdated id patch => exact hfile
  | around change =>
    cases change with
    | fileAppears new =>
      have hne : new.path ≠ cataloguer.path name :=
        fun hsame ↦ hpossible name hsegment (hsame ▸ List.prefix_rfl)
      exact (find?_path_append hne).symm.trans hfile
    | fileWritten path size mtimeMs =>
      exact (find?_path_rewrite _ (fun file ↦ { file with size, mtimeMs }) (fun _ ↦ rfl)
        (hpossible name hsegment).symm).symm.trans hfile
    | _ => exact hfile

/-- What happens around a scan does not write the file that the scan examines. -/
theorem around_react {event : IngestEvent} {scene : Scene}
    (hpossible : cataloguer.Possible (.occurred event) scene)
    (hcareful : cataloguer.Careful (.occurred event) scene) :
    cataloguer.Around scene (cataloguer.react event scene) where
  toCalm := calm_react hpossible hcareful
  missed_eq := by cases event <;> rfl
  examined_eq := by cases event <;> rfl
  unwritten := by
    intro name hsegment hexamined hknown file hfile
    refine fileAt_react hpossible hcareful hsegment hknown ?_ hfile
    rintro size mtimeMs header rfl
    exact hcareful hexamined

/-- A segment that is finished before and after stays quiet: the newest one is written only while
it is not quiet. -/
theorem quiet_react {event : IngestEvent} {scene : Scene} {name : String}
    (hpossible : cataloguer.Possible (.occurred event) scene)
    (hcareful : cataloguer.Careful (.occurred event) scene) (hsegment : isSegmentFile name = true)
    (hsound : cataloguer.Sound scene) (hbefore : cataloguer.Finished name scene)
    (hafter : cataloguer.Finished name (cataloguer.react event scene))
    (hquiet : cataloguer.Quiet name scene) :
    cataloguer.Quiet name (cataloguer.react event scene) := by
  have hcalm := calm_react hpossible hcareful
  have hknown := hsound.upTo_newest name (CameraIngest.mem_names.mpr ⟨hsegment, hbefore.1⟩)
  by_cases hwritten : ∃ size mtimeMs header, event = .segmentWritten name size mtimeMs header
  · rcases hafter.2 with ⟨newer, hnewerSegment, hstart, hdisk⟩ | hstill
    · obtain ⟨size, mtimeMs, header, rfl⟩ := hwritten
      obtain ⟨last, hlast, hupTo⟩ := (hcalm.orderly hsound.toOrderly).upTo_newest newer
        (CameraIngest.mem_names.mpr ⟨hnewerSegment, hdisk⟩)
      have hnewest : last = name := Option.some.inj (hlast.symm.trans hpossible)
      exact absurd (hnewest ▸ hupTo.start_le) (not_le.mpr hstart)
    · exact hstill
  · exact hquiet.of_fileAt hcalm.now_le fun file ↦
      fileAt_react hpossible hcareful hsegment hknown fun size mtimeMs header heq ↦
        hwritten ⟨size, mtimeMs, header, heq⟩

/-! ### What a scan knows -/

variable (cataloguer) in
/-- Before the directory is read. -/
structure Ready (target : Option String) (scene : Scene) : Prop where
  sound : cataloguer.Sound scene
  finished : ∀ name ∈ target, cataloguer.Finished name scene

variable (cataloguer) in
/-- After the directory was dealt with. -/
structure Scanned (target : Option String) (scene : Scene) : Prop where
  sound : cataloguer.Sound scene
  known : ∀ name ∈ target, Known name scene
  settled : ∀ name ∈ target, name ∈ cataloguer.names scene.world →
    scene.HasRow (cataloguer.path name)

/-- The names of a directory, as the scan goes through them. -/
structure Listing where
  names : List String
  sorted : names.Pairwise Precedes
  segments : ∀ name ∈ names, isSegmentFile name = true

variable (cataloguer) in
/-- While the directory is dealt with: the marks behind which files are skipped, the names that are
passed, and that the target is listed and will not be taken for a file in flight. -/
structure Scanning (target : Option String) (listing : Listing) (watermark : Option ℤ)
    (passed : List String) (scene : Scene) : Prop extends cataloguer.Ready target scene where
  passed : cataloguer.Passed listing.names passed scene
  covered : ∀ mark ∈ watermark, cataloguer.Covered mark scene ∧
    ∃ last ∈ scene.newest, mark ≤ startOf last
  pending : ∀ name ∈ target, name ∈ listing.names ∧
    ((∃ later ∈ listing.names, Precedes name later) ∨ cataloguer.Quiet name scene)
  missed_nil : target.isSome = true → scene.missed = []

variable (cataloguer) in
/-- While one file is dealt with: a newer one has appeared, or it is quiet and is not written. -/
structure Handling (target : Option String) (listing : Listing) (watermark : Option ℤ)
    (passed : List String) (name : String) (scene : Scene) : Prop
    extends cataloguer.Scanning target listing watermark passed scene where
  cleared : (∃ last ∈ scene.newest, Precedes name last) ∨
    scene.examined = some (cataloguer.path name) ∧ cataloguer.Quiet name scene

variable (cataloguer) in
/-- While a row is on its way: the file has none, and never had one. -/
structure Uncatalogued (target : Option String) (listing : Listing) (watermark : Option ℤ)
    (passed : List String) (name : String) (scene : Scene) : Prop
    extends cataloguer.Handling target listing watermark passed name scene where
  no_row : ¬ scene.HasRow (cataloguer.path name)
  never : cataloguer.path name ∉ scene.catalogued

section Stable

variable {target : Option String} {listing : Listing} {watermark : Option ℤ}
  {passed newer : List String} {name : String} {before after scene : Scene}

theorem Ready.change (hchange : (cataloguer.setting target).change before after)
    (hready : cataloguer.Ready target before) : cataloguer.Ready target after where
  sound := hready.sound.calm hchange.1.toCalm
  finished := fun name hname ↦ (hchange.2 name hname).1

theorem Ready.still (hstill : cataloguer.Still before after)
    (hready : cataloguer.Ready target before) : cataloguer.Ready target after where
  sound := hready.sound.calm hstill.toCalm
  finished := fun name hname ↦ (hready.finished name hname).still hstill

theorem Scanned.calm (hcalm : cataloguer.Calm before after)
    (hscanned : cataloguer.Scanned target before) : cataloguer.Scanned target after where
  sound := hscanned.sound.calm hcalm
  known := fun name hname ↦ hcalm.known (hscanned.known name hname)
  settled := by
    intro name hname hdisk
    have hold := hcalm.mem_names (hscanned.known name hname) hdisk
    exact hcalm.hasRow (hscanned.settled name hname hold) (CameraIngest.mem_names.mp hdisk).2

theorem Scanning.change (hsub : ∀ name ∈ passed, name ∈ listing.names)
    (hchange : (cataloguer.setting target).change before after)
    (hscanning : cataloguer.Scanning target listing watermark passed before) :
    cataloguer.Scanning target listing watermark passed after where
  toReady := hscanning.toReady.change hchange
  passed := hscanning.passed.calm hchange.1.toCalm
    (fun path hpath ↦ hchange.1.missed_eq ▸ hpath) hsub
  covered := by
    intro mark hmark
    obtain ⟨hcovered, last, hlast, hle⟩ := hscanning.covered mark hmark
    obtain ⟨newer, hnewer, hlater⟩ := hchange.1.newest last hlast
    exact ⟨hchange.1.toCalm.covered hcovered ⟨last, hlast, hle⟩, newer, hnewer,
      hle.trans hlater.start_le⟩
  pending := fun name hname ↦
    (hscanning.pending name hname).imp_right (Or.imp_right (hchange.2 name hname).2)
  missed_nil := fun htarget ↦ hchange.1.missed_eq.trans (hscanning.missed_nil htarget)

theorem Scanning.still (hsub : ∀ name ∈ passed, name ∈ listing.names)
    (hstill : cataloguer.Still before after)
    (hmissed : ∀ path ∈ before.missed, path ∈ after.missed)
    (hnil : target.isSome = true → before.missed = [] → after.missed = [])
    (hscanning : cataloguer.Scanning target listing watermark passed before) :
    cataloguer.Scanning target listing watermark passed after where
  toReady := hscanning.toReady.still hstill
  passed := hscanning.passed.calm hstill.toCalm hmissed hsub
  covered := by
    intro mark hmark
    obtain ⟨hcovered, hlast⟩ := hscanning.covered mark hmark
    exact ⟨hstill.toCalm.covered hcovered hlast, hstill.newest_eq ▸ hlast⟩
  pending := fun name hname ↦
    (hscanning.pending name hname).imp_right (Or.imp_right fun hquiet ↦ hquiet.still hstill)
  missed_nil := fun htarget ↦ hnil htarget (hscanning.missed_nil htarget)

theorem Scanning.concat (hscanning : cataloguer.Scanning target listing watermark passed scene)
    (hname : name ∈ cataloguer.names scene.world →
      scene.HasRow (cataloguer.path name) ∨ cataloguer.path name ∈ scene.missed) :
    cataloguer.Scanning target listing watermark (passed ++ [name]) scene :=
  { hscanning with passed := hscanning.passed.concat hname }

/-- A scan that has passed the target has given it a row. -/
theorem Scanning.scanned (hscanning : cataloguer.Scanning target listing watermark passed scene)
    (htarget : ∀ name ∈ target, name ∈ passed) : cataloguer.Scanned target scene where
  sound := hscanning.sound
  known := fun name hname ↦ hscanning.passed.known name (hscanning.pending name hname).1
  settled := by
    intro name hname hdisk
    rcases hscanning.passed.settled name (htarget name hname) hdisk with hrow | hmissed
    · exact hrow
    · rw [hscanning.missed_nil (Option.isSome_of_mem hname)] at hmissed
      exact absurd hmissed List.not_mem_nil

theorem Handling.change (hsplit : listing.names = passed ++ name :: newer)
    (hchange : (cataloguer.setting target).change before after)
    (hhandling : cataloguer.Handling target listing watermark passed name before) :
    cataloguer.Handling target listing watermark passed name after where
  toScanning := hhandling.toScanning.change
    (fun _ hpassed ↦ hsplit ▸ List.mem_append_left _ hpassed) hchange
  cleared := by
    have hmem : name ∈ listing.names := hsplit ▸ List.mem_append_right _ List.mem_cons_self
    rcases hhandling.cleared with ⟨last, hlast, hprecedes⟩ | ⟨hexamined, hquiet⟩
    · obtain ⟨later, hlater, hupTo⟩ := hchange.1.newest last hlast
      exact Or.inl ⟨later, hlater, hprecedes.upTo hupTo⟩
    · exact Or.inr ⟨hchange.1.examined_eq.trans hexamined, hquiet.of_fileAt hchange.1.now_le
        (hchange.1.unwritten name (listing.segments name hmem) hexamined
          (hhandling.passed.known name hmem))⟩

theorem Uncatalogued.change (hsplit : listing.names = passed ++ name :: newer)
    (hchange : (cataloguer.setting target).change before after)
    (huncatalogued : cataloguer.Uncatalogued target listing watermark passed name before) :
    cataloguer.Uncatalogued target listing watermark passed name after where
  toHandling := huncatalogued.toHandling.change hsplit hchange
  no_row := fun hrow ↦ huncatalogued.no_row (hchange.1.toCalm.hasRow_origin hrow)
  never := fun hmem ↦ huncatalogued.never ((hchange.1.catalogued name).mp hmem)

end Stable

/-! ### Calls of a scan -/

/-- Calls that only read, and that the onlooker does not note. -/
def Reads : Call → Bool
  | .findRecordingByFilePath _ | .findLatestStartTime _ | .findMotionTimes ..
  | .getCameraSchedule _ | .listAllCameras | .readHeader _ | .clockNow | .getWatermark _ => true
  | _ => false

theorem answerNoted_reads {call : Call} (hreads : Reads call = true) (outcome : Outcome)
    (scene : Scene) : answerNoted call outcome scene =
        ((answer call outcome scene.world).1, scene) := by
  cases call <;> first | rfl | cases hreads

/-- What `stat` finds, and what the onlooker notes of it. -/
theorem answerNoted_stat (path : Path) (outcome : Outcome) (scene : Scene) :
    (∃ file, scene.world.fileAt path = some file ∧ answerNoted (.stat path) outcome scene =
      (.ok file, { scene with examined := some path })) ∨
    ∃ error, (outcome.passes = true → scene.world.onDisk path = false) ∧
      answerNoted (.stat path) outcome scene = (.error error,
        { scene with
          missed := if scene.world.onDisk path then path :: scene.missed else scene.missed
          examined := some path }) := by
  cases outcome with
  | fail error => exact Or.inr ⟨error, nofun, rfl⟩
  | _ =>
    cases hfile : scene.world.fileAt path with
    | some file =>
      refine Or.inl ⟨file, rfl, ?_⟩
      unfold World.fileAt at hfile
      simp [answerNoted, answer, World.answerFile, hfile, Scene.note]
    | none =>
      refine Or.inr ⟨World.noSuchFile "stat" path, fun _ ↦ ?_, ?_⟩
      · rw [World.onDisk_eq_isSome, hfile]
        rfl
      · unfold World.fileAt at hfile
        simp [answerNoted, answer, World.answerFile, hfile, Scene.note]

section Calls

variable {target : Option String} {scene : Scene} {α : Type} {post : α → Scene → Prop}
  {thrown : Failure → Scene → Prop}

/-- A call that only reads goes on in the scene it was made in. -/
theorem amid_reads {call : Call} (hreads : Reads call = true) {next : Reply call → Async α}
    (known : Scene → Prop) (hstable : ∀ before after,
      (cataloguer.setting target).change before after → known before → known after)
    (hknown : known scene)
    (hnext : ∀ later outcome, known later →
      (cataloguer.setting target).allowed call outcome later →
        (next (answer call outcome later.world).1).Amid (cataloguer.setting target) post thrown
          later) :
    ((Program.request call).bind next).Amid (cataloguer.setting target) post thrown scene := by
  refine Amid.await known hstable hknown fun later outcome hlater hallowed ↦ ?_
  have hanswer : cataloguer.machine.answer call outcome later =
      ((answer call outcome later.world).1, later) := answerNoted_reads hreads outcome later
  rw [hanswer]
  exact ⟨Ingests.refl later, hnext later outcome hlater hallowed⟩

/-- `stat` goes on with the file, or without it. -/
theorem amid_stat {path : Path} {next : Reply (.stat path) → Async α} (known : Scene → Prop)
    (hstable : ∀ before after,
      (cataloguer.setting target).change before after → known before → known after)
    (hknown : known scene)
    (hok : ∀ later file, known later → later.world.fileAt path = some file →
      (next (.ok file)).Amid (cataloguer.setting target) post thrown
        { later with examined := some path })
    (herror : ∀ later missed outcome error, known later →
      (cataloguer.setting target).allowed (.stat path) outcome later →
        (∀ other ∈ later.missed, other ∈ missed) →
        (later.world.onDisk path = true → path ∈ missed) →
        (outcome.passes = true → missed = later.missed) →
        (next (.error error)).Amid (cataloguer.setting target) post thrown
          { later with missed, examined := some path }) :
    ((Program.request (.stat path)).bind next).Amid (cataloguer.setting target) post thrown
      scene := by
  refine Amid.await known hstable hknown fun later outcome hlater hallowed ↦ ?_
  have hsame : ∀ missed, cataloguer.Still later { later with missed, examined := some path } :=
    fun _ ↦ Still.of_same rfl rfl rfl rfl rfl rfl rfl rfl
  have hanswer : cataloguer.machine.answer (.stat path) outcome later =
      answerNoted (.stat path) outcome later := rfl
  rw [hanswer]
  rcases answerNoted_stat path outcome later with ⟨file, hfile, hfound⟩ | ⟨error, hgone, hfound⟩
  · rw [hfound]
    exact ⟨Ingests.of_calm (hsame _).toCalm fun _ ↦ id, hok later file hlater hfile⟩
  · rw [hfound]
    refine ⟨Ingests.of_calm (hsame _).toCalm fun _ ↦ id,
      herror later _ outcome error hlater hallowed ?_ ?_ fun hpasses ↦ ?_⟩
    · split_ifs
      · exact fun _ ↦ List.mem_cons_of_mem _
      · exact fun _ ↦ id
    · intro hdisk
      rw [if_pos hdisk]
      exact List.mem_cons_self
    · rw [hgone hpasses]
      rfl

end Calls

/-! ### One file -/

theorem isWithinRoot_path (name : String) :
    isWithinRoot cataloguer.ingest.recordingsRoot (cataloguer.path name) = true := by
  rw [isWithinRoot, List.isPrefixOf_iff_prefix, path, SegmentIngest.cameraDir, List.append_assoc]
  exact List.prefix_append _ _

section File

variable {target : Option String} {listing : Listing} {watermark : Option ℤ}
  {passed newer : List String} {name : String} {scene : Scene}

/-- Looking at the file again does not lose sight of it. -/
theorem Handling.examine (hsplit : listing.names = passed ++ name :: newer)
    (hhandling : cataloguer.Handling target listing watermark passed name scene)
    {missed : List Path} (hmissed : ∀ path ∈ scene.missed, path ∈ missed)
    (hnil : target.isSome = true → missed = []) :
    cataloguer.Handling target listing watermark passed name
      { scene with missed, examined := some (cataloguer.path name) } := by
  have hstill : cataloguer.Still scene
      { scene with missed, examined := some (cataloguer.path name) } :=
    Still.of_same rfl rfl rfl rfl rfl rfl rfl rfl
  exact
    { hhandling.toScanning.still (fun _ hpassed ↦ hsplit ▸ List.mem_append_left _ hpassed) hstill
        hmissed fun htarget _ ↦ hnil htarget with
      cleared := hhandling.cleared.imp_right fun hquiet ↦ ⟨rfl, hquiet.2⟩ }

variable (cataloguer) in
/-- After `stat` missed a file: it is gone, or noted. -/
def Lost (target : Option String) (listing : Listing) (watermark : Option ℤ)
    (passed : List String) (name : String) (scene : Scene) : Prop :=
  cataloguer.Handling target listing watermark passed name scene ∧
    (name ∈ cataloguer.names scene.world → cataloguer.path name ∈ scene.missed)

theorem Lost.change (hsplit : listing.names = passed ++ name :: newer) {before after : Scene}
    (hchange : (cataloguer.setting target).change before after)
    (hlost : cataloguer.Lost target listing watermark passed name before) :
    cataloguer.Lost target listing watermark passed name after := by
  have hmem : name ∈ listing.names := hsplit ▸ List.mem_append_right _ List.mem_cons_self
  refine ⟨hlost.1.change hsplit hchange, fun hdisk ↦ ?_⟩
  rw [hchange.1.missed_eq]
  exact hlost.2 (hchange.1.toCalm.mem_names (hlost.1.passed.known name hmem) hdisk)

/-- `stat` of the file that is dealt with. -/
theorem amid_stat_handled (hsplit : listing.names = passed ++ name :: newer) {α : Type}
    {post : α → Scene → Prop} {thrown : Failure → Scene → Prop}
    {next : Reply (.stat (cataloguer.path name)) → Async α} (known : Scene → Prop)
    (hstable : ∀ before after,
      (cataloguer.setting target).change before after → known before → known after)
    (hhandling : ∀ later, known later →
      cataloguer.Handling target listing watermark passed name later)
    (hknown : known scene)
    (hok : ∀ later file, known later →
      later.world.fileAt (cataloguer.path name) = some file →
      (next (.ok file)).Amid (cataloguer.setting target) post thrown
        { later with examined := some (cataloguer.path name) })
    (herror : ∀ later missed error, known later → (∀ path ∈ later.missed, path ∈ missed) →
      cataloguer.Lost target listing watermark passed name
        { later with missed, examined := some (cataloguer.path name) } →
      (next (.error error)).Amid (cataloguer.setting target) post thrown
        { later with missed, examined := some (cataloguer.path name) }) :
    ((Program.request (.stat (cataloguer.path name))).bind next).Amid (cataloguer.setting target)
      post thrown scene := by
  refine amid_stat known hstable hknown hok
    fun later missed outcome error hlater hallowed hsub hadded hkept ↦ ?_
  refine herror later missed error hlater hsub
    ⟨(hhandling later hlater).examine hsplit hsub fun htarget ↦ ?_, fun hdisk ↦ ?_⟩
  · have hconcerns : cataloguer.concerns (.stat (cataloguer.path name)) = true := by
      simp [concerns, path]
    rw [hkept (hallowed.2.2 htarget hconcerns)]
    exact (hhandling later hlater).missed_nil htarget
  · exact hadded (CameraIngest.mem_names.mp hdisk).2

variable (cataloguer) in
/-- What is known once the validator has answered. -/
def Validated (target : Option String) (listing : Listing) (watermark : Option ℤ)
    (passed : List String) (name : String) :
    Except SegmentValidationFailure SegmentValidationSuccess → Scene → Prop
  | .error failure, scene =>
    (failure.reason = .fileNotFound ∧
        cataloguer.Lost target listing watermark passed name scene) ∨
      failure.reason ≠ .fileNotFound ∧ failure.reason ≠ .outsideRoot ∧
        cataloguer.Uncatalogued target listing watermark passed name scene
  | .ok validation, scene => validation.startTime = startOf name ∧
      cataloguer.Uncatalogued target listing watermark passed name scene

/-- The validator of a file without a row. -/
theorem validate_amid (hsplit : listing.names = passed ++ name :: newer)
    (hhandling : cataloguer.Handling target listing watermark passed name scene)
    (hrow : ¬ scene.HasRow (cataloguer.path name)) (durationMs : ℤ) :
    (validate cataloguer.ingest.recordingsRoot
      { filePath := cataloguer.path name, durationMs := some durationMs
        payloadStartTime := some (startOf name), quietPeriodMs := some 0 }).Amid
      (cataloguer.setting target) (cataloguer.Validated target listing watermark passed name)
      (fun _ _ ↦ False) scene := by
  have huncatalogued : ∀ before after, (cataloguer.setting target).change before after →
      cataloguer.Uncatalogued target listing watermark passed name before →
        cataloguer.Uncatalogued target listing watermark passed name after :=
    fun _ _ hchange hknown ↦ hknown.change hsplit hchange
  have hfailed : ∀ {later : Scene} {status reason error}, reason ≠ .fileNotFound →
      reason ≠ .outsideRoot →
      cataloguer.Uncatalogued target listing watermark passed name later →
        (Program.done (.error { status, reason, error }) :
          Async (Except SegmentValidationFailure SegmentValidationSuccess)).Amid
            (cataloguer.setting target)
            (cataloguer.Validated target listing watermark passed name) (fun _ _ ↦ False) later :=
    fun hfound hinside hlater ↦ Amid.done _ huncatalogued hlater fun _ hlast ↦
      Or.inr ⟨hfound, hinside, hlast⟩
  unfold validate
  rw [if_pos (isWithinRoot_path name)]
  refine amid_stat_handled hsplit
    (fun scene ↦ cataloguer.Handling target listing watermark passed name scene ∧
      ¬ scene.HasRow (cataloguer.path name))
    (fun _ _ hchange hknown ↦ ⟨hknown.1.change hsplit hchange,
      fun hrow ↦ hknown.2 (hchange.1.toCalm.hasRow_origin hrow)⟩) (fun _ hlater ↦ hlater.1)
    ⟨hhandling, hrow⟩ ?_ ?_
  · intro later file hlater hfile
    have hknown : cataloguer.Uncatalogued target listing watermark passed name
        { later with examined := some (cataloguer.path name) } :=
      { hlater.1.examine hsplit (fun _ ↦ id) hlater.1.missed_nil with
        no_row := hlater.2
        never := fun hmem ↦ hlater.2 (hlater.1.sound.row_catalogued name
          (CameraIngest.mem_names.mpr ⟨listing.segments name
            (hsplit ▸ List.mem_append_right _ List.mem_cons_self),
              World.onDisk_of_fileAt hfile⟩) hmem) }
    refine amid_reads rfl _ huncatalogued hknown fun clocked outcome hclocked _ ↦ ?_
    dsimp only
    split
    · exact hfailed (by decide) (by decide) hclocked
    split
    · exact hfailed (by decide) (by decide) hclocked
    refine amid_reads rfl _ huncatalogued hclocked fun read outcome hread _ ↦ ?_
    split
    · exact hfailed (by decide) (by decide) hread
    · split
      · exact hfailed (by decide) (by decide) hread
      · exact Amid.done _ huncatalogued hread fun _ hlast ↦ ⟨rfl, hlast⟩
  · intro later missed error hlater hmissed hlost
    exact Amid.done _ (fun _ _ hchange hknown ↦ Lost.change hsplit hchange hknown) hlost
      fun _ hlast ↦ Or.inl ⟨rfl, hlast⟩

/-- Writing the row of the next file. -/
theorem Uncatalogued.ingests (hsplit : listing.names = passed ++ name :: newer)
    (hknown : cataloguer.Uncatalogued target listing watermark passed name scene)
    {data : NewRecording} (hfilePath : data.filePath = cataloguer.path name)
    (hstart : data.startTime = startOf name)
    (hmissed : MissedSettled scene (some data.filePath))
    (hfree : ∀ row ∈ scene.world.recordings.rows, row.filePath ≠ data.filePath) :
    cataloguer.Ingests scene (Scene.inserted scene data hfree) where
  sound := fun hsound ↦
    hsound.inserted hknown.passed hsplit listing.sorted hfilePath hstart hmissed hfree
  catalogued := fun _ ↦ List.mem_cons_of_mem _
  once := by
    intro row hrow other hpath
    rcases mem_inserted.mp hrow with hold | rfl
    · exact Or.inl ⟨row, hold, rfl, rfl⟩
    · obtain rfl := path_inj.mp (hpath.symm.trans hfilePath)
      exact Or.inr hknown.never
  quiet := by
    intro row hrow hnew other hnewest hpath
    rcases mem_inserted.mp hrow with hold | rfl
    · exact absurd rfl (hnew row hold)
    · obtain rfl := path_inj.mp (hpath.symm.trans hfilePath)
      rcases hknown.cleared with ⟨last, hlast, hprecedes⟩ | ⟨-, hquiet⟩
      · exact absurd (Option.mem_unique hnewest hlast) hprecedes.ne
      · exact hquiet

/-- The row of the next file settles it. -/
theorem Uncatalogued.inserted (hsplit : listing.names = passed ++ name :: newer)
    (hknown : cataloguer.Uncatalogued target listing watermark passed name scene)
    {data : NewRecording} (hfilePath : data.filePath = cataloguer.path name)
    (hstart : data.startTime = startOf name)
    (hmissed : MissedSettled scene (some data.filePath))
    (hfree : ∀ row ∈ scene.world.recordings.rows, row.filePath ≠ data.filePath) :
    cataloguer.Scanning target listing watermark (passed ++ [name])
      (Scene.inserted scene data hfree) where
  sound := hknown.sound.inserted hknown.passed hsplit listing.sorted hfilePath hstart hmissed hfree
  finished := hknown.finished
  passed := hknown.passed.inserted hfilePath hfree
  covered := fun mark hmark ↦ (hknown.covered mark hmark).imp_left fun hcovered other hother hle ↦
    hasRow_inserted.mpr (Or.inl (hcovered other hother hle))
  pending := hknown.pending
  missed_nil := hknown.missed_nil

/-- The call that writes the row: it succeeds, or something failed. -/
theorem amid_create (hsplit : listing.names = passed ++ name :: newer) {data : NewRecording}
    (hcamera : data.cameraId = cataloguer.camera.id)
    (hfilePath : data.filePath = cataloguer.path name) (hstart : data.startTime = startOf name)
    (hknown : cataloguer.Uncatalogued target listing watermark passed name scene)
    {α : Type} {post : α → Scene → Prop} {thrown : Failure → Scene → Prop}
    {next : Reply (.createRecording data) → Async α}
    (hok : ∀ later recording,
      cataloguer.Scanning target listing watermark (passed ++ [name]) later →
      (next (.ok recording)).Amid (cataloguer.setting target) post thrown later)
    (herror : ∀ later error, target = none → cataloguer.Sound later →
      (next (.error error)).Amid (cataloguer.setting target) post thrown later) :
    ((Program.request (.createRecording data)).bind next).Amid (cataloguer.setting target) post
      thrown scene := by
  refine Amid.await _ (fun _ _ hchange hknown ↦ Uncatalogued.change hsplit hchange hknown) hknown
    fun later outcome hlater hallowed ↦ ?_
  have hfree : ∀ row ∈ later.world.recordings.rows, row.filePath ≠ data.filePath :=
    fun row hrow hsame ↦ hlater.no_row ⟨row, hrow, hsame.trans hfilePath⟩
  have hany : (later.world.cameras.any fun camera ↦ camera.id = data.cameraId) = true :=
    List.any_eq_true.mpr ⟨cataloguer.camera, hlater.sound.mem_cameras, by simp [hcamera]⟩
  by_cases hpasses : outcome.passes = true
  · have hanswer : cataloguer.machine.answer (.createRecording data) outcome later =
        (.ok (data.toRecording later.world.recordings.nextId),
          Scene.inserted later data hfree) := by
      cases outcome with
      | fail error => cases hpasses
      | _ =>
        simp only [machine, answerNoted, answer, World.answerCreate, hany, if_true, dif_pos hfree]
        rfl
    have hmissed := hallowed.2.1 hpasses hcamera
    rw [hanswer]
    exact ⟨hlater.ingests hsplit hfilePath hstart hmissed hfree,
      hok _ _ (hlater.inserted hsplit hfilePath hstart hmissed hfree)⟩
  · obtain ⟨error, rfl⟩ : ∃ error, outcome = .fail error := by
      cases outcome with
      | fail error => exact ⟨error, rfl⟩
      | _ => exact absurd rfl hpasses
    have hsame : cataloguer.Still later { later with examined := none } :=
      Still.of_same rfl rfl rfl rfl rfl rfl rfl rfl
    refine ⟨Ingests.of_calm hsame.toCalm fun _ ↦ id, herror _ error ?_
      (hlater.sound.calm hsame.toCalm)⟩
    cases target with
    | none => rfl
    | some target => exact absurd (hallowed.2.2 rfl (by simp [concerns, hcamera])) hpasses

/-- An error that is thrown while failures are allowed. -/
theorem amid_failed {error : Failure} {α : Type} {post : α → Scene → Prop}
    (hsound : cataloguer.Sound scene) (htarget : target = none) :
    (Program.failed error : Async α).Amid (cataloguer.setting target) post
      (fun _ scene ↦ cataloguer.Sound scene ∧ target = none) scene := by
  refine Amid.failed cataloguer.Sound ?_ hsound fun _ hlast ↦ ⟨hlast, htarget⟩
  exact fun _ _ hchange hsound ↦ hsound.calm hchange.1.toCalm

/-- A reply that failed ends a scan only while failures are allowed. -/
theorem amid_orThrow {call : Call} {outcome : Outcome}
    (hallowed : (cataloguer.setting target).allowed call outcome scene)
    (hconcerns : cataloguer.concerns call = true) {β α : Type} {value : β}
    {post : α → Scene → Prop} {next : β → Async α} (hsound : cataloguer.Sound scene)
    (hok : (next value).Amid (cataloguer.setting target) post
      (fun _ scene ↦ cataloguer.Sound scene ∧ target = none) scene) :
    ((orThrow (outcome.orFail value)).bind next).Amid (cataloguer.setting target) post
      (fun _ scene ↦ cataloguer.Sound scene ∧ target = none) scene := by
  cases outcome with
  | fail error =>
    refine amid_failed hsound ?_
    cases target with
    | none => rfl
    | some target => exact absurd (hallowed.2.2 rfl hconcerns) Bool.false_ne_true
  | _ => exact hok

theorem isNearMotion_amid (hsplit : listing.names = passed ++ name :: newer)
    (hknown : cataloguer.Uncatalogued target listing watermark passed name scene)
    (start stop : ℤ) :
    (cataloguer.ingest.isNearMotion cataloguer.camera.id start stop).Amid
      (cataloguer.setting target)
      (fun _ ↦ cataloguer.Uncatalogued target listing watermark passed name)
      (fun _ scene ↦ cataloguer.Sound scene ∧ target = none) scene := by
  have hstable : ∀ before after, (cataloguer.setting target).change before after →
      cataloguer.Uncatalogued target listing watermark passed name before →
        cataloguer.Uncatalogued target listing watermark passed name after :=
    fun _ _ hchange hknown ↦ hknown.change hsplit hchange
  refine amid_reads rfl _ hstable hknown fun later outcome hlater hallowed ↦ ?_
  refine amid_orThrow hallowed (by simp [concerns]) hlater.sound ?_
  exact Amid.done _ hstable hlater fun _ hlast ↦ hlast

/-- One file, from the search for its row to the row that is written. -/
theorem catalogueFile_amid (hsplit : listing.names = passed ++ name :: newer)
    (hhandling : cataloguer.Handling target listing watermark passed name scene) (durationMs : ℤ)
    (mode : RecordingMode) :
    (cataloguer.ingest.catalogueFile cataloguer.camera (cataloguer.path name) (startOf name)
        durationMs mode).Amid (cataloguer.setting target)
      (fun _ ↦ cataloguer.Scanning target listing watermark (passed ++ [name]))
      (fun _ scene ↦ cataloguer.Sound scene ∧ target = none) scene := by
  have hsub : ∀ other ∈ passed ++ [name], other ∈ listing.names := by
    intro other hother
    rw [hsplit, ← List.singleton_append, ← List.append_assoc]
    exact List.mem_append_left _ hother
  have hpath : cataloguer.ingest.cameraDir cataloguer.camera <+: cataloguer.path name :=
    List.prefix_append _ _
  have hstable : ∀ before after, (cataloguer.setting target).change before after →
      cataloguer.Scanning target listing watermark (passed ++ [name]) before →
        cataloguer.Scanning target listing watermark (passed ++ [name]) after :=
    fun _ _ hchange hknown ↦ hknown.change hsub hchange
  have hsettled : ∀ {later : Scene} {value : Option Recording},
      cataloguer.Scanning target listing watermark (passed ++ [name]) later →
        (Program.done value : Async (Option Recording)).Amid (cataloguer.setting target)
          (fun _ ↦ cataloguer.Scanning target listing watermark (passed ++ [name]))
          (fun _ scene ↦ cataloguer.Sound scene ∧ target = none) later :=
    fun hlater ↦ Amid.done _ hstable hlater fun _ hlast ↦ hlast
  unfold SegmentIngest.catalogueFile
  refine amid_reads rfl _ (fun _ _ hchange hknown ↦ Handling.change hsplit hchange hknown) hhandling
    fun found outcome hfound hallowed ↦ ?_
  refine amid_orThrow hallowed (by simpa [concerns] using hpath) hfound.sound ?_
  cases hexisting : found.world.recordings.findRecordingByFilePath (cataloguer.path name) with
  | some existing =>
    have hrow : found.HasRow (cataloguer.path name) :=
      ⟨existing, List.mem_of_find?_eq_some hexisting, by simpa using List.find?_some hexisting⟩
    exact hsettled (hfound.toScanning.concat fun _ ↦ Or.inl hrow)
  | none =>
    have hnone : ¬ found.HasRow (cataloguer.path name) := by
      rintro ⟨row, hrow, hsame⟩
      exact List.find?_eq_none.mp hexisting row hrow (by simpa using hsame)
    refine Amid.bind ((validate_amid hsplit hfound hnone durationMs).mono
      (fun _ _ hvalidated ↦ hvalidated) fun _ _ hfalse ↦ hfalse.elim)
      fun validated checked hvalidated ↦ ?_
    cases validated with
    | error failure =>
      dsimp only
      rcases hvalidated with ⟨hreason, hlost⟩ | ⟨hexists, hinside, hknown⟩
      · rw [if_pos (Or.inl hreason)]
        exact hsettled (hlost.1.toScanning.concat fun hdisk ↦ Or.inr (hlost.2 hdisk))
      rw [if_neg (fun hreason ↦ hreason.elim hexists hinside)]
      refine amid_stat_handled hsplit _
        (fun _ _ hchange hknown ↦ Uncatalogued.change hsplit hchange hknown)
        (fun _ hlater ↦ hlater.toHandling) hknown ?_ ?_
      · intro later file hlater _
        refine amid_create hsplit rfl rfl rfl
          { hlater.toHandling.examine hsplit (fun _ ↦ id) hlater.missed_nil with
            no_row := hlater.no_row
            never := hlater.never } (fun _ _ hcreated ↦ hsettled hcreated) ?_
        exact fun _ _ htarget hsound ↦ amid_failed hsound htarget
      · intro later missed error hlater _ hlost
        refine amid_create hsplit rfl rfl rfl
          { hlost.1 with
            no_row := hlater.no_row
            never := hlater.never } (fun _ _ hcreated ↦ hsettled hcreated) ?_
        exact fun _ _ htarget hsound ↦ amid_failed hsound htarget
    | ok validation =>
      obtain ⟨hstart, hknown⟩ := hvalidated
      refine Amid.bind (isNearMotion_amid hsplit hknown _ _) fun nearMotion asked hasked ↦ ?_
      refine amid_create hsplit rfl rfl hstart hasked ?_
        fun _ _ htarget hsound ↦ amid_failed hsound htarget
      intro created recording hcreated
      simp only [orThrow_ok, bind_eq, done_bind]
      split_ifs
      · refine Amid.await _ hstable hcreated fun later outcome hlater _ ↦ ?_
        have hstill : cataloguer.Still later (cataloguer.machine.answer
            (.emitEvent (.segmentCreated recording)) outcome later).2 :=
          Still.of_same rfl rfl rfl rfl rfl rfl rfl rfl
        exact ⟨Ingests.of_calm hstill.toCalm fun _ ↦ id,
          hsettled (hlater.still hsub hstill (fun _ ↦ id) fun _ ↦ id)⟩
      · exact hsettled hcreated

end File

end CameraIngest

end VmsLite.Recordings
