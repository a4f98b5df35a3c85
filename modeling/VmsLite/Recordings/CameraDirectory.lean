import VmsLite.Recordings.IngestRuns

/-!
# The directory of a camera

The segments on the disk of a camera whose names sort as they appear (`Orderly`), and what does not
disturb a scan of them: `Calm` is what everything does that neither catalogues a file of the camera
nor moves its watermark. Whatever happens around a scan is calm (`calm_react`), and so is every call
that is not such a step (`calm_answer`).
-/

set_option autoImplicit false

namespace VmsLite.Recordings

open VmsLite.Async Program

/-! ### Names in order -/

/-- A segment began before another, and its name sorts before it. -/
def Precedes (first second : String) : Prop := first < second ∧ startOf first < startOf second

/-- A segment is another, or began before it. -/
def UpTo (name last : String) : Prop := name = last ∨ Precedes name last

theorem Precedes.trans {first second third : String} (hfirst : Precedes first second)
    (hsecond : Precedes second third) : Precedes first third :=
  ⟨String.lt_trans hfirst.1 hsecond.1, hfirst.2.trans hsecond.2⟩

theorem Precedes.ne {first second : String} (hprecedes : Precedes first second) :
    first ≠ second := by
  rintro rfl
  exact lt_irrefl _ hprecedes.2

theorem UpTo.refl (name : String) : UpTo name name := Or.inl rfl

theorem UpTo.precedes {first second third : String} (hfirst : UpTo first second)
    (hsecond : Precedes second third) : Precedes first third := by
  rcases hfirst with rfl | hfirst
  · exact hsecond
  · exact hfirst.trans hsecond

theorem Precedes.upTo {first second third : String} (hfirst : Precedes first second)
    (hsecond : UpTo second third) : Precedes first third := by
  rcases hsecond with rfl | hsecond
  · exact hfirst
  · exact hfirst.trans hsecond

theorem UpTo.trans {first second third : String} (hfirst : UpTo first second)
    (hsecond : UpTo second third) : UpTo first third := by
  rcases hfirst with rfl | hfirst
  · exact hsecond
  · exact Or.inr (hfirst.upTo hsecond)

theorem UpTo.start_le {first second : String} (hupTo : UpTo first second) :
    startOf first ≤ startOf second := by
  rcases hupTo with rfl | hprecedes
  · exact le_rfl
  · exact hprecedes.2.le

/-! ### Files -/

theorem World.onDisk_eq_isSome (world : World) (path : Path) :
    world.onDisk path = (world.fileAt path).isSome := by
  rw [World.onDisk, World.fileAt, Bool.eq_iff_iff, List.any_eq_true, List.find?_isSome]

theorem World.onDisk_of_fileAt {world : World} {path : Path} {file : DiskFile}
    (hfile : world.fileAt path = some file) : world.onDisk path = true := by
  rw [World.onDisk_eq_isSome, hfile]
  rfl

theorem World.fileAt_removeFile_ne (world : World) {path other : Path} (hne : other ≠ path) :
    (world.removeFile path).fileAt other = world.fileAt other := by
  unfold World.fileAt World.removeFile
  rw [List.find?_filter]
  congr 1
  funext file
  by_cases hother : file.path = other
  · simp [hother, hne]
  · simp [hother]

theorem World.fileAt_removeFile (world : World) {path other : Path} {file : DiskFile}
    (hfile : (world.removeFile path).fileAt other = some file) :
    world.fileAt other = some file := by
  by_cases hother : other = path
  · subst hother
    have hdisk := World.onDisk_of_fileAt hfile
    rw [World.not_onDisk_removeFile] at hdisk
    cases hdisk
  · rwa [world.fileAt_removeFile_ne hother] at hfile

/-- A file is found behind another that is appended only under the other's path. -/
theorem find?_path_append {files : List DiskFile} {new : DiskFile} {path : Path}
    (hne : new.path ≠ path) :
    (files ++ [new]).find? (fun file ↦ file.path = path) =
      files.find? fun file ↦ file.path = path := by
  simp [List.find?_append, hne]

/-- Writing one file leaves the others as they are. -/
theorem find?_path_rewrite (files : List DiskFile) {written path : Path}
    (rewrite : DiskFile → DiskFile) (hpath : ∀ file, (rewrite file).path = file.path)
    (hne : path ≠ written) :
    (files.map fun file ↦ if file.path = written then rewrite file else file).find?
        (fun file ↦ file.path = path) = files.find? fun file ↦ file.path = path := by
  induction files with
  | nil => rfl
  | cons head files ih =>
    rw [List.map_cons, List.find?_cons, List.find?_cons, ih]
    by_cases hwritten : head.path = written
    · have hskip : head.path ≠ path := fun hsame ↦ hne (hsame.symm.trans hwritten)
      simp [hwritten, hpath, hne.symm]
    · rw [if_neg hwritten]

namespace CameraIngest

variable (cataloguer : CameraIngest)

/-- The segment of a path in the directory of the camera. -/
def nameOf (path : Path) : Option String :=
  if path.length = (cataloguer.ingest.cameraDir cataloguer.camera).length + 1 &&
      path.take (cataloguer.ingest.cameraDir cataloguer.camera).length =
        cataloguer.ingest.cameraDir cataloguer.camera then
    path.getLast?.filter isSegmentFile
  else none

variable {cataloguer}

@[simp] theorem path_inj {first second : String} :
    cataloguer.path first = cataloguer.path second ↔ first = second := by
  simp [path]

theorem nameOf_eq_some_iff {path : Path} {name : String} :
    cataloguer.nameOf path = some name ↔
      path = cataloguer.path name ∧ isSegmentFile name = true := by
  unfold nameOf CameraIngest.path
  constructor
  · intro hname
    split_ifs at hname with hdir
    simp only [Bool.and_eq_true, decide_eq_true_eq] at hdir
    obtain ⟨hlength, htake⟩ := hdir
    obtain ⟨hlast, hsegment⟩ := Option.filter_eq_some_iff.mp hname
    refine ⟨?_, hsegment⟩
    have hdrop : path.drop (cataloguer.ingest.cameraDir cataloguer.camera).length = [name] := by
      have hone : (path.drop (cataloguer.ingest.cameraDir cataloguer.camera).length).length =
          1 := by
        rw [List.length_drop]
        omega
      obtain ⟨last, hsingle⟩ := List.length_eq_one_iff.mp hone
      have hsplit := List.take_append_drop
        (cataloguer.ingest.cameraDir cataloguer.camera).length path
      rw [hsingle] at hsplit
      rw [← hsplit, List.getLast?_concat] at hlast
      rw [hsingle, Option.some.inj hlast]
    calc path = path.take (cataloguer.ingest.cameraDir cataloguer.camera).length ++
          path.drop (cataloguer.ingest.cameraDir cataloguer.camera).length :=
          (List.take_append_drop _ _).symm
      _ = cataloguer.ingest.cameraDir cataloguer.camera ++ [name] := by rw [htake, hdrop]
  · rintro ⟨rfl, hsegment⟩
    simp [hsegment]

@[simp] theorem nameOf_path {name : String} (hname : isSegmentFile name = true) :
    cataloguer.nameOf (cataloguer.path name) = some name :=
  nameOf_eq_some_iff.mpr ⟨rfl, hname⟩

variable (cataloguer)

/-- The segments on the disk. -/
def names (world : World) : List String :=
  world.files.filterMap fun file ↦ cataloguer.nameOf file.path

variable {cataloguer}

theorem mem_names {world : World} {name : String} :
    name ∈ cataloguer.names world ↔
      isSegmentFile name = true ∧ world.onDisk (cataloguer.path name) = true := by
  rw [names, List.mem_filterMap, World.onDisk_iff]
  constructor
  · rintro ⟨file, hfile, hname⟩
    obtain ⟨hpath, hsegment⟩ := nameOf_eq_some_iff.mp hname
    exact ⟨hsegment, file, hfile, hpath⟩
  · rintro ⟨hsegment, file, hfile, hpath⟩
    exact ⟨file, hfile, nameOf_eq_some_iff.mpr ⟨hpath, hsegment⟩⟩

/-- What `readdir` finds of the segments, when no directory has the name of one. -/
theorem filter_entries {world : World}
    (hdirectories : ∀ path ∈ world.directories, cataloguer.nameOf path = none) :
    (world.entries (cataloguer.ingest.cameraDir cataloguer.camera)).filter isSegmentFile =
      cataloguer.names world := by
  have hentries : (world.entries (cataloguer.ingest.cameraDir cataloguer.camera)).filter
      isSegmentFile = (world.directories ++ world.files.map DiskFile.path).filterMap
        cataloguer.nameOf := by
    unfold World.entries
    rw [List.filter_filterMap, List.filterMap_filter]
    rfl
  rw [hentries, List.filterMap_append, List.filterMap_eq_nil_iff.mpr hdirectories, List.nil_append,
    List.filterMap_map]
  rfl

/-! ### The order on the disk -/

variable (cataloguer) in
/-- The segments on the disk sort as they appeared, each under a name of its own. -/
structure Orderly (scene : Scene) : Prop where
  names_nodup : (cataloguer.names scene.world).Nodup
  directories : ∀ path ∈ scene.world.directories, cataloguer.nameOf path = none
  directory : ∀ name ∈ cataloguer.names scene.world,
    cataloguer.ingest.cameraDir cataloguer.camera ∈ scene.world.directories
  upTo_newest : ∀ name ∈ cataloguer.names scene.world, ∃ last ∈ scene.newest, UpTo name last
  ordered : ∀ first ∈ cataloguer.names scene.world, ∀ second ∈ cataloguer.names scene.world,
    first < second → startOf first < startOf second

/-- Removing files leaves the order as it is. -/
theorem Orderly.of_sublist {before after : Scene} (hbefore : cataloguer.Orderly before)
    (hnames : (cataloguer.names after.world).Sublist (cataloguer.names before.world))
    (hdirectories : after.world.directories = before.world.directories)
    (hnewest : after.newest = before.newest) : cataloguer.Orderly after where
  names_nodup := hbefore.names_nodup.sublist hnames
  directories := by
    rw [hdirectories]
    exact hbefore.directories
  directory := by
    rw [hdirectories]
    exact fun name hname ↦ hbefore.directory name (hnames.subset hname)
  upTo_newest := by
    rw [hnewest]
    exact fun name hname ↦ hbefore.upTo_newest name (hnames.subset hname)
  ordered := fun first hfirst second hsecond ↦
    hbefore.ordered first (hnames.subset hfirst) second (hnames.subset hsecond)

theorem Orderly.of_names {before after : Scene} (hbefore : cataloguer.Orderly before)
    (hnames : cataloguer.names after.world = cataloguer.names before.world)
    (hdirectories : ∀ path ∈ after.world.directories,
      path ∈ before.world.directories ∨ cataloguer.nameOf path = none)
    (hkept : ∀ path ∈ before.world.directories, path ∈ after.world.directories)
    (hnewest : after.newest = before.newest) : cataloguer.Orderly after where
  names_nodup := hnames ▸ hbefore.names_nodup
  directories := fun path hpath ↦ (hdirectories path hpath).elim (hbefore.directories path) id
  directory := by
    rw [hnames]
    exact fun name hname ↦ hkept _ (hbefore.directory name hname)
  upTo_newest := by
    rw [hnames, hnewest]
    exact hbefore.upTo_newest
  ordered := by
    rw [hnames]
    exact hbefore.ordered

/-- A segment that appears takes its place behind the others. -/
theorem Orderly.append {before after : Scene} (hbefore : cataloguer.Orderly before) {name : String}
    (hnames : cataloguer.names after.world = cataloguer.names before.world ++ [name])
    (hdirectories : ∀ path ∈ after.world.directories,
      path ∈ before.world.directories ∨ cataloguer.nameOf path = none)
    (hdirectory : cataloguer.ingest.cameraDir cataloguer.camera ∈ after.world.directories)
    (hnewest : after.newest = some name) (hlater : ∀ last ∈ before.newest, Precedes last name) :
    cataloguer.Orderly after where
  names_nodup := by
    rw [hnames, List.nodup_append]
    refine ⟨hbefore.names_nodup, List.nodup_singleton _, fun old hold new hnew ↦ ?_⟩
    obtain ⟨last, hlast, hupTo⟩ := hbefore.upTo_newest old hold
    rw [List.mem_singleton.mp hnew]
    exact (hupTo.precedes (hlater last hlast)).ne
  directories := fun path hpath ↦ (hdirectories path hpath).elim (hbefore.directories path) id
  directory := fun _ _ ↦ hdirectory
  upTo_newest := by
    intro old hold
    rw [hnames] at hold
    refine ⟨name, hnewest, ?_⟩
    rcases List.mem_append.mp hold with hold | hnew
    · obtain ⟨last, hlast, hupTo⟩ := hbefore.upTo_newest old hold
      exact Or.inr (hupTo.precedes (hlater last hlast))
    · exact Or.inl (List.mem_singleton.mp hnew)
  ordered := by
    have hbehind : ∀ old ∈ cataloguer.names before.world, Precedes old name := by
      intro old hold
      obtain ⟨last, hlast, hupTo⟩ := hbefore.upTo_newest old hold
      exact hupTo.precedes (hlater last hlast)
    rw [hnames]
    intro first hfirst second hsecond hlt
    rcases List.mem_append.mp hfirst with hfirst | hfirst
    · rcases List.mem_append.mp hsecond with hsecond | hsecond
      · exact hbefore.ordered first hfirst second hsecond hlt
      · rw [List.mem_singleton.mp hsecond]
        exact (hbehind first hfirst).2
    · rw [List.mem_singleton.mp hfirst] at hlt ⊢
      rcases List.mem_append.mp hsecond with hsecond | hsecond
      · exact absurd hlt (String.lt_asymm (hbehind second hsecond).1)
      · rw [List.mem_singleton.mp hsecond] at hlt
        exact absurd hlt (String.lt_irrefl _)

/-! ### Calm -/

/-- A row of the same camera and the same file. -/
structure SameFile (old row : Recording) : Prop where
  id_eq : row.id = old.id
  cameraId_eq : row.cameraId = old.cameraId
  filePath_eq : row.filePath = old.filePath
  startTime_eq : row.startTime = old.startTime

theorem SameFile.refl (row : Recording) : SameFile row row := ⟨rfl, rfl, rfl, rfl⟩

variable (cataloguer) in
/-- What leaves the camera's catalogue and its watermark alone: a row of it goes only with its
file, and a segment that is new on the disk is the newest. -/
structure Calm (before after : Scene) : Prop where
  orderly : cataloguer.Orderly before → cataloguer.Orderly after
  cameras : after.world.cameras = before.world.cameras
  watermark : after.world.watermarks.lookup cataloguer.camera.id =
    before.world.watermarks.lookup cataloguer.camera.id
  now_le : before.world.now ≤ after.world.now
  newest : ∀ last ∈ before.newest, ∃ newer ∈ after.newest, UpTo last newer
  appeared : ∀ name ∈ cataloguer.names after.world, name ∈ cataloguer.names before.world ∨
    ∀ last ∈ before.newest, Precedes last name
  row_origin : ∀ row ∈ after.world.recordings.rows,
    row.cameraId = cataloguer.camera.id ∨ (∃ name, row.filePath = cataloguer.path name) →
      ∃ old ∈ before.world.recordings.rows, SameFile old row
  row_stays : ∀ row ∈ before.world.recordings.rows,
    (∃ kept ∈ after.world.recordings.rows, SameFile row kept) ∨
      after.world.onDisk row.filePath = false
  catalogued : ∀ name, cataloguer.path name ∈ after.catalogued ↔
    cataloguer.path name ∈ before.catalogued

theorem Calm.refl (scene : Scene) : cataloguer.Calm scene scene where
  orderly := id
  cameras := rfl
  watermark := rfl
  now_le := le_rfl
  newest := fun last hlast ↦ ⟨last, hlast, UpTo.refl last⟩
  appeared := fun _ hname ↦ Or.inl hname
  row_origin := fun row hrow _ ↦ ⟨row, hrow, SameFile.refl row⟩
  row_stays := fun row hrow ↦ Or.inl ⟨row, hrow, SameFile.refl row⟩
  catalogued := fun _ ↦ Iff.rfl

/-- What touches no row, no camera and no watermark, and adds no segment, is calm. -/
theorem Calm.of_files {before after : Scene}
    (horderly : cataloguer.Orderly before → cataloguer.Orderly after)
    (hnames : ∀ name ∈ cataloguer.names after.world, name ∈ cataloguer.names before.world)
    (hrows : after.world.recordings = before.world.recordings)
    (hcameras : after.world.cameras = before.world.cameras)
    (hwatermarks : after.world.watermarks.lookup cataloguer.camera.id =
      before.world.watermarks.lookup cataloguer.camera.id)
    (hnow : before.world.now ≤ after.world.now) (hnewest : after.newest = before.newest)
    (hcatalogued : after.catalogued = before.catalogued) : cataloguer.Calm before after where
  orderly := horderly
  cameras := hcameras
  watermark := hwatermarks
  now_le := hnow
  newest := fun last hlast ↦ ⟨last, hnewest ▸ hlast, UpTo.refl last⟩
  appeared := fun name hname ↦ Or.inl (hnames name hname)
  row_origin := fun row hrow _ ↦ ⟨row, hrows ▸ hrow, SameFile.refl row⟩
  row_stays := fun row hrow ↦ Or.inl ⟨row, hrows ▸ hrow, SameFile.refl row⟩
  catalogued := fun _ ↦ by rw [hcatalogued]

/-- What changes rows only is calm, when every row stays, comes from a row, or goes without its
file. -/
theorem Calm.of_rows {before after : Scene}
    (hfiles : after.world.files = before.world.files)
    (hdirectories : after.world.directories = before.world.directories)
    (hcameras : after.world.cameras = before.world.cameras)
    (hwatermarks : after.world.watermarks = before.world.watermarks)
    (hnow : after.world.now = before.world.now) (hnewest : after.newest = before.newest)
    (hcatalogued : after.catalogued = before.catalogued)
    (horigin : ∀ row ∈ after.world.recordings.rows, ∃ old ∈ before.world.recordings.rows,
      SameFile old row)
    (hstays : ∀ row ∈ before.world.recordings.rows,
      (∃ kept ∈ after.world.recordings.rows, SameFile row kept) ∨
        before.world.onDisk row.filePath = false) : cataloguer.Calm before after := by
  have hnames : cataloguer.names after.world = cataloguer.names before.world := by
    rw [names, names, hfiles]
  refine
    { orderly := fun horderly ↦ horderly.of_names hnames (fun path hpath ↦ Or.inl
        (hdirectories ▸ hpath)) (fun path hpath ↦ hdirectories ▸ hpath) hnewest
      cameras := hcameras
      watermark := by rw [hwatermarks]
      now_le := hnow.ge
      newest := fun last hlast ↦ ⟨last, hnewest ▸ hlast, UpTo.refl last⟩
      appeared := fun name hname ↦ Or.inl (hnames ▸ hname)
      row_origin := fun row hrow _ ↦ horigin row hrow
      row_stays := fun row hrow ↦ (hstays row hrow).imp_right fun hgone ↦ ?_
      catalogued := fun _ ↦ by rw [hcatalogued] }
  rw [World.onDisk, hfiles]
  exact hgone

theorem Calm.updateRow (scene : Scene) (id : RecordingId) (patch : RowPatch) :
    cataloguer.Calm scene { scene with world := scene.world.updateRow id patch } := by
  have hpatch : ∀ row : Recording, SameFile row (if row.id = id then patch.apply row else row) := by
    intro row
    split_ifs
    · exact ⟨rfl, rfl, rfl, rfl⟩
    · exact SameFile.refl row
  refine Calm.of_rows rfl rfl rfl rfl rfl rfl rfl ?_ ?_
  · intro row hrow
    obtain ⟨old, hold, rfl⟩ := RecordingTable.mem_update.mp hrow
    exact ⟨old, hold, hpatch old⟩
  · exact fun row hrow ↦ Or.inl ⟨_, RecordingTable.mem_update.mpr ⟨row, hrow, rfl⟩, hpatch row⟩

theorem Calm.removeRow {scene : Scene} {id : RecordingId} (hgone : FileGone id scene) :
    cataloguer.Calm scene
      { scene with world := scene.world.removeRows fun row ↦ row.id = id } := by
  refine Calm.of_rows rfl rfl rfl rfl rfl rfl rfl ?_ ?_
  · exact fun row hrow ↦ ⟨row, (RecordingTable.mem_remove.mp hrow).1, SameFile.refl row⟩
  · intro row hrow
    by_cases hid : row.id = id
    · exact Or.inr (hgone row hrow hid)
    · exact Or.inl ⟨row, RecordingTable.mem_remove.mpr ⟨hrow, by simpa using hid⟩,
        SameFile.refl row⟩

theorem Calm.removeFile (scene : Scene) (path : Path) :
    cataloguer.Calm scene { scene with world := scene.world.removeFile path } := by
  have hnames : (cataloguer.names (scene.world.removeFile path)).Sublist
      (cataloguer.names scene.world) := List.filter_sublist.filterMap _
  exact Calm.of_files (fun horderly ↦ horderly.of_sublist hnames rfl rfl)
    (fun _ hname ↦ hnames.subset hname) rfl rfl rfl le_rfl rfl rfl

/-- A segment that appears. -/
theorem Calm.appear {scene : Scene} {name : String} {size : ℕ} {mtimeMs : ℤ} {header : List UInt8}
    (hsegment : isSegmentFile name = true) (hlater : ∀ last ∈ scene.newest, Precedes last name) :
    cataloguer.Calm scene
      (cataloguer.react (.segmentAppears name size mtimeMs header) scene) := by
  have hnames : cataloguer.names
      (cataloguer.react (.segmentAppears name size mtimeMs header) scene).world =
        cataloguer.names scene.world ++ [name] := by
    simp only [names, react, Recordings.react, List.filterMap_append, List.filterMap_cons,
      List.filterMap_nil, nameOf_path hsegment]
  have hdropLast : (cataloguer.path name).dropLast =
      cataloguer.ingest.cameraDir cataloguer.camera := by
    rw [path, List.dropLast_concat]
  have hdirectories : (cataloguer.react (.segmentAppears name size mtimeMs header)
      scene).world.directories = if cataloguer.ingest.cameraDir cataloguer.camera ∈
        scene.world.directories then scene.world.directories
        else scene.world.directories ++ [cataloguer.ingest.cameraDir cataloguer.camera] := by
    simp only [react, Recordings.react, hdropLast]
  refine
    { orderly := fun horderly ↦ horderly.append hnames ?_ ?_ rfl hlater
      cameras := rfl
      watermark := rfl
      now_le := le_rfl
      newest := fun last hlast ↦ ⟨name, rfl, Or.inr (hlater last hlast)⟩
      appeared := ?_
      row_origin := fun row hrow _ ↦ ⟨row, hrow, SameFile.refl row⟩
      row_stays := fun row hrow ↦ Or.inl ⟨row, hrow, SameFile.refl row⟩
      catalogued := fun _ ↦ Iff.rfl }
  · intro path hpath
    rw [hdirectories] at hpath
    split_ifs at hpath
    · exact Or.inl hpath
    · refine (List.mem_append.mp hpath).imp_right fun hnew ↦ ?_
      rw [List.mem_singleton.mp hnew]
      refine Option.eq_none_iff_forall_ne_some.mpr fun other hother ↦ ?_
      have hlength := congrArg List.length (nameOf_eq_some_iff.mp hother).1
      simp [CameraIngest.path] at hlength
  · rw [hdirectories]
    split_ifs with hmem
    · exact hmem
    · exact List.mem_append_right _ (List.mem_singleton.mpr rfl)
  · intro other hother
    rw [hnames] at hother
    refine (List.mem_append.mp hother).imp_right fun hnew ↦ ?_
    rw [List.mem_singleton.mp hnew]
    exact hlater

/-- A change of the files that keeps their paths is calm. -/
theorem Calm.rewrite {scene : Scene} {rewrite : DiskFile → DiskFile}
    (hpath : ∀ file, (rewrite file).path = file.path) :
    cataloguer.Calm scene
      { scene with world := { scene.world with files := scene.world.files.map rewrite } } := by
  have hnames : cataloguer.names { scene.world with files := scene.world.files.map rewrite } =
      cataloguer.names scene.world := by
    rw [names, names, List.filterMap_map]
    refine List.filterMap_congr fun file _ ↦ ?_
    rw [Function.comp_apply, hpath]
  exact Calm.of_files (fun horderly ↦ horderly.of_names hnames (fun _ ↦ Or.inl) (fun _ ↦ id) rfl)
    (fun _ hname ↦ hnames ▸ hname) rfl rfl rfl le_rfl rfl rfl

/-- Another file that appears. -/
theorem Calm.around_appear {scene : Scene} {file : DiskFile}
    (hother : ∀ name, isSegmentFile name = true → ¬ cataloguer.path name <+: file.path) :
    cataloguer.Calm scene
      { scene with world := Recordings.react (.fileAppears file) scene.world } := by
  have hbelow : ∀ path, path <+: file.path → cataloguer.nameOf path = none := by
    refine fun path hpath ↦ Option.eq_none_iff_forall_ne_some.mpr fun name hname ↦ ?_
    obtain ⟨rfl, hsegment⟩ := nameOf_eq_some_iff.mp hname
    exact hother name hsegment hpath
  have hnames : cataloguer.names (Recordings.react (.fileAppears file) scene.world) =
      cataloguer.names scene.world := by
    simp only [names, Recordings.react, List.filterMap_append, List.filterMap_cons,
      List.filterMap_nil, hbelow file.path List.prefix_rfl, List.append_nil]
  refine Calm.of_files (fun horderly ↦ horderly.of_names hnames ?_ ?_ rfl)
    (fun _ hname ↦ hnames ▸ hname) rfl rfl rfl le_rfl rfl rfl
  · intro path hpath
    simp only [Recordings.react] at hpath
    split_ifs at hpath
    · exact Or.inl hpath
    · refine (List.mem_append.mp hpath).imp_right fun hnew ↦ ?_
      rw [List.mem_singleton.mp hnew]
      exact hbelow _ (List.dropLast_prefix _)
  · intro path hpath
    simp only [Recordings.react]
    split_ifs
    · exact hpath
    · exact List.mem_append_left _ hpath

/-- What happens around a scan is calm. -/
theorem calm_react {event : IngestEvent} {scene : Scene}
    (hpossible : cataloguer.Possible (.occurred event) scene)
    (hcareful : cataloguer.Careful (.occurred event) scene) :
    cataloguer.Calm scene (cataloguer.react event scene) := by
  cases event with
  | segmentAppears name size mtimeMs header =>
    exact Calm.appear hpossible.1 fun last hlast ↦ ⟨hcareful last hlast, hpossible.2 last hlast⟩
  | segmentWritten name size mtimeMs header =>
    refine Calm.rewrite fun file ↦ ?_
    split_ifs <;> rfl
  | fileRemoved path => exact Calm.removeFile scene path
  | rowRemoved id => exact Calm.removeRow hpossible
  | rowUpdated id patch => exact Calm.updateRow scene id patch
  | around change =>
    cases change with
    | fileAppears file => exact Calm.around_appear hpossible
    | fileWritten path size mtimeMs =>
      refine Calm.rewrite fun file ↦ ?_
      split_ifs <;> rfl
    | setProtection id isProtected => exact Calm.updateRow scene id _
    | clockAdvances ms =>
      refine Calm.of_files (fun horderly ↦ horderly.of_names rfl (fun _ ↦ Or.inl) (fun _ ↦ id) rfl)
        (fun _ ↦ id) rfl rfl rfl ?_ rfl rfl
      exact Int.le_add_of_nonneg_right (Int.natCast_nonneg ms)
    | _ =>
      exact Calm.of_files (fun horderly ↦ horderly.of_names rfl (fun _ ↦ Or.inl) (fun _ ↦ id) rfl)
        (fun _ ↦ id) rfl rfl rfl le_rfl rfl rfl

/-! ### Calls -/

variable (cataloguer) in
/-- Calls that neither catalogue a file of the camera nor move its watermark. -/
def Leaves : Call → Prop
  | .createRecording data => data.cameraId ≠ cataloguer.camera.id ∧
      ∀ name, data.filePath ≠ cataloguer.path name
  | .setWatermark cameraId _ => cameraId ≠ cataloguer.camera.id
  | .deleteCamera _ => False
  | _ => True

variable (cataloguer) in
/-- What is calm, and leaves the files and the clock alone. -/
structure Still (before after : Scene) : Prop extends cataloguer.Calm before after where
  files_eq : after.world.files = before.world.files
  now_eq : after.world.now = before.world.now
  newest_eq : after.newest = before.newest

/-- The onlooker's memory does not matter for what is calm, apart from what was catalogued. -/
theorem Calm.note {before after : Scene} (hcalm : cataloguer.Calm before after) {noted : Scene}
    (hworld : noted.world = after.world) (hnewest : noted.newest = after.newest)
    (hcatalogued : ∀ name, cataloguer.path name ∈ noted.catalogued ↔
      cataloguer.path name ∈ after.catalogued) : cataloguer.Calm before noted := by
  obtain ⟨world, newest, catalogued, missed, examined⟩ := after
  obtain ⟨notedWorld, notedNewest, notedCatalogued, notedMissed, notedExamined⟩ := noted
  obtain rfl : notedWorld = world := hworld
  obtain rfl : notedNewest = newest := hnewest
  refine
    { hcalm with
      orderly := fun horderly ↦ ?_
      catalogued := fun name ↦ (hcatalogued name).trans (hcalm.catalogued name) }
  have hafter := hcalm.orderly horderly
  exact
    { names_nodup := hafter.names_nodup
      directories := hafter.directories
      directory := hafter.directory
      upTo_newest := hafter.upTo_newest
      ordered := hafter.ordered }

/-- A call that leaves rows, files and cameras alone is still. -/
theorem Still.of_same {before after : Scene}
    (hrows : after.world.recordings = before.world.recordings)
    (hfiles : after.world.files = before.world.files)
    (hdirectories : after.world.directories = before.world.directories)
    (hcameras : after.world.cameras = before.world.cameras)
    (hwatermark : after.world.watermarks.lookup cataloguer.camera.id =
      before.world.watermarks.lookup cataloguer.camera.id)
    (hnow : after.world.now = before.world.now)
    (hnewest : after.newest = before.newest) (hcatalogued : after.catalogued = before.catalogued) :
    cataloguer.Still before after := by
  have hnames : cataloguer.names after.world = cataloguer.names before.world := by
    rw [names, names, hfiles]
  exact
    { toCalm := Calm.of_files (fun horderly ↦ horderly.of_names hnames (fun path hpath ↦ Or.inl
        (hdirectories ▸ hpath)) (fun path hpath ↦ hdirectories ▸ hpath) hnewest)
        (fun name hname ↦ hnames ▸ hname) hrows hcameras hwatermark hnow.ge hnewest hcatalogued
      files_eq := hfiles
      now_eq := hnow
      newest_eq := hnewest }

/-- A row of another camera that is inserted is calm. -/
theorem Calm.insertRow {scene : Scene} {data : NewRecording}
    (hfree : ∀ row ∈ scene.world.recordings.rows, row.filePath ≠ data.filePath)
    (hleaves : cataloguer.Leaves (.createRecording data)) :
    cataloguer.Calm scene
      { scene with
        world := { scene.world with recordings := scene.world.recordings.insert data hfree } } where
  orderly := fun horderly ↦ horderly.of_names rfl (fun _ ↦ Or.inl) (fun _ ↦ id) rfl
  cameras := rfl
  watermark := rfl
  now_le := le_rfl
  newest := fun last hlast ↦ ⟨last, hlast, UpTo.refl last⟩
  appeared := fun _ hname ↦ Or.inl hname
  row_origin := by
    intro row hrow hours
    have hinserted : row ∈ (scene.world.recordings.insert data hfree).rows := hrow
    rcases RecordingTable.mem_insert.mp hinserted with hold | rfl
    · exact ⟨row, hold, SameFile.refl row⟩
    · rcases hours with hcamera | ⟨name, hname⟩
      · exact absurd hcamera hleaves.1
      · exact absurd hname (hleaves.2 name)
  row_stays := by
    intro row hrow
    have hkept : row ∈ (scene.world.recordings.insert data hfree).rows :=
      RecordingTable.mem_insert.mpr (Or.inl hrow)
    exact Or.inl ⟨row, hkept, SameFile.refl row⟩
  catalogued := fun _ ↦ Iff.rfl

/-- A call that neither catalogues a file of the camera nor moves its watermark is calm, and still
unless it unlinks a file. -/
theorem calm_answer {call : Call} {outcome : Outcome} {scene : Scene}
    (hleaves : cataloguer.Leaves call)
    (hpossible : cataloguer.Possible (.called call outcome) scene) :
    cataloguer.Calm scene (answerNoted call outcome scene).2 ∧
      ((∀ path, call ≠ .unlink path) →
        cataloguer.Still scene (answerNoted call outcome scene).2) := by
  have hstill : ∀ {noted : Scene}, cataloguer.Calm scene noted →
      noted.world.files = scene.world.files → noted.world.now = scene.world.now →
        noted.newest = scene.newest → cataloguer.Calm scene noted ∧
          ((∀ path, call ≠ .unlink path) → cataloguer.Still scene noted) :=
    fun hcalm hfiles hnow hnewest ↦ ⟨hcalm, fun _ ↦ ⟨hcalm, hfiles, hnow, hnewest⟩⟩
  have hsame : ∀ {noted : Scene}, cataloguer.Still scene noted → cataloguer.Calm scene noted ∧
      ((∀ path, call ≠ .unlink path) → cataloguer.Still scene noted) :=
    fun hnoted ↦ ⟨hnoted.toCalm, fun _ ↦ hnoted⟩
  cases call with
  | createRecording data =>
    rcases World.answerCreate_cases scene.world data outcome with
      ⟨hfree, hanswer⟩ | ⟨error, hanswer⟩
    · simp only [answerNoted, answer, hanswer]
      refine hstill ((Calm.insertRow hfree hleaves).note rfl rfl fun name ↦ ?_) rfl rfl rfl
      have hne : cataloguer.path name ≠ data.filePath := fun heq ↦ hleaves.2 name heq.symm
      simp [Scene.note, NewRecording.toRecording, hne]
    · simp only [answerNoted, answer, hanswer]
      exact hsame (Still.of_same rfl rfl rfl rfl rfl rfl rfl rfl)
  | updateRecordingTier id tier =>
    rcases World.answerUpdate_cases scene.world id { retentionTier := some tier } outcome with
      ⟨-, hanswer⟩ | ⟨-, hanswer⟩
    · simp only [answerNoted, answer, hanswer]
      exact hstill (Calm.updateRow scene id _) rfl rfl rfl
    · simp only [answerNoted, answer, hanswer]
      exact hsame (Still.of_same rfl rfl rfl rfl rfl rfl rfl rfl)
  | updateRecordingStatus id status errorReason =>
    rcases World.answerUpdate_cases scene.world id
      { status := some status, errorReason := some errorReason } outcome with
      ⟨-, hanswer⟩ | ⟨-, hanswer⟩
    · simp only [answerNoted, answer, hanswer]
      exact hstill (Calm.updateRow scene id _) rfl rfl rfl
    · simp only [answerNoted, answer, hanswer]
      exact hsame (Still.of_same rfl rfl rfl rfl rfl rfl rfl rfl)
  | deleteRecording id =>
    rcases World.answerDelete_cases scene.world id outcome with hanswer | ⟨error, hanswer⟩
    · have hpasses : outcome.passes = true := by
        cases outcome with
        | fail error => simp [World.answerDelete] at hanswer
        | _ => rfl
      simp only [answerNoted, answer, hanswer]
      exact hstill (Calm.removeRow (hpossible hpasses)) rfl rfl rfl
    · simp only [answerNoted, answer, hanswer]
      exact hsame (Still.of_same rfl rfl rfl rfl rfl rfl rfl rfl)
  | unlink path =>
    refine ⟨?_, fun hunlink ↦ absurd rfl (hunlink path)⟩
    rcases World.answerUnlink_cases scene.world path outcome with
      ⟨-, hanswer⟩ | ⟨error, hanswer, -⟩
    · simp only [answerNoted, answer, hanswer]
      exact Calm.removeFile scene path
    · simp only [answerNoted, answer, hanswer]
      exact Calm.refl scene
  | deleteCamera cameraId => exact hleaves.elim
  | setWatermark cameraId mark =>
    refine hsame (Still.of_same rfl rfl rfl rfl ?_ rfl rfl rfl)
    simp only [answerNoted, answer, Scene.note, List.lookup_cons]
    have hne : (cataloguer.camera.id == cameraId) = false := by
      simpa using fun heq ↦ hleaves heq.symm
    rw [hne]
  | stat path =>
    simp only [answerNoted, answer]
    cases scene.world.answerFile "stat" path id outcome <;>
      exact hsame (Still.of_same rfl rfl rfl rfl rfl rfl rfl rfl)
  | _ => exact hsame (Still.of_same rfl rfl rfl rfl rfl rfl rfl rfl)

end CameraIngest

end VmsLite.Recordings
