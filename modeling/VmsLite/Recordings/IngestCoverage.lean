import VmsLite.Recordings.CameraDirectory

/-!
# What a scan may skip

A scan skips the files at or before its watermark, and after a restart those at or before the newest
row. So both must be marks below which every file has a row (`Covered`); with what the schema says
of the camera and its rows this is the invariant `Sound`. It survives whatever is calm, the row that
a scan writes when it has settled the files before it (`Sound.insert`), and the watermark it then
sets (`Sound.setWatermark`).
-/

set_option autoImplicit false

namespace VmsLite.Recordings

open VmsLite.Async Program

namespace CameraIngest

variable (cataloguer : CameraIngest)

/-! ### The invariant -/

/-- Every segment on the disk at or before an instant has a row. -/
def Covered (mark : ℤ) (scene : Scene) : Prop :=
  ∀ name ∈ cataloguer.names scene.world, startOf name ≤ mark →
    scene.HasRow (cataloguer.path name)

/-- A segment is no newer than the newest that has appeared. -/
def Known (name : String) (scene : Scene) : Prop := ∃ last ∈ scene.newest, UpTo name last

/-- What holds of the camera in every scene of a run. -/
structure Sound (scene : Scene) : Prop extends cataloguer.Orderly scene where
  mem_cameras : cataloguer.camera ∈ scene.world.cameras
  id_unique : ∀ other ∈ scene.world.cameras, other.id = cataloguer.camera.id →
    other = cataloguer.camera
  path_unique : ∀ other ∈ scene.world.cameras,
    other.mediaMtxPath = cataloguer.camera.mediaMtxPath → other = cataloguer.camera
  row_start : ∀ row ∈ scene.world.recordings.rows, row.cameraId = cataloguer.camera.id →
    ∃ name, row.filePath = cataloguer.path name ∧ row.startTime = startOf name
  covered_row : ∀ row ∈ scene.world.recordings.rows, row.cameraId = cataloguer.camera.id →
    cataloguer.Covered row.startTime scene
  covered_watermark : ∀ mark, scene.world.watermarks.lookup cataloguer.camera.id =
    some (some mark) → cataloguer.Covered mark scene ∧ ∃ last ∈ scene.newest, mark ≤ startOf last
  catalogued_row : ∀ name, scene.HasRow (cataloguer.path name) →
    cataloguer.path name ∈ scene.catalogued
  row_catalogued : ∀ name ∈ cataloguer.names scene.world,
    cataloguer.path name ∈ scene.catalogued → scene.HasRow (cataloguer.path name)
  known_catalogued : ∀ name, cataloguer.path name ∈ scene.catalogued → Known name scene

variable {cataloguer}

section Calm

variable {before after : Scene} (hcalm : cataloguer.Calm before after)

include hcalm

theorem Calm.known {name : String} (hknown : Known name before) : Known name after := by
  obtain ⟨last, hlast, hupTo⟩ := hknown
  obtain ⟨newer, hnewer, hlater⟩ := hcalm.newest last hlast
  exact ⟨newer, hnewer, hupTo.trans hlater⟩

/-- A known segment that is on the disk was there before. -/
theorem Calm.mem_names {name : String} (hknown : Known name before)
    (hname : name ∈ cataloguer.names after.world) : name ∈ cataloguer.names before.world := by
  rcases hcalm.appeared name hname with hold | hnew
  · exact hold
  · obtain ⟨last, hlast, hupTo⟩ := hknown
    exact absurd rfl (hupTo.precedes (hnew last hlast)).ne

/-- A row stays as long as its file is there. -/
theorem Calm.hasRow {path : Path} (hrow : before.HasRow path)
    (hdisk : after.world.onDisk path = true) : after.HasRow path := by
  obtain ⟨row, hmem, rfl⟩ := hrow
  rcases hcalm.row_stays row hmem with ⟨kept, hkept, hsame⟩ | hgone
  · exact ⟨kept, hkept, hsame.filePath_eq⟩
  · rw [hdisk] at hgone
    cases hgone

theorem Calm.hasRow_origin {name : String} (hrow : after.HasRow (cataloguer.path name)) :
    before.HasRow (cataloguer.path name) := by
  obtain ⟨row, hmem, hpath⟩ := hrow
  obtain ⟨old, hold, hsame⟩ := hcalm.row_origin row hmem (Or.inr ⟨name, hpath⟩)
  exact ⟨old, hold, hsame.filePath_eq.symm.trans hpath⟩

/-- What was covered up to a known instant stays so. -/
theorem Calm.covered {mark : ℤ} (hcovered : cataloguer.Covered mark before)
    (hmark : ∃ last ∈ before.newest, mark ≤ startOf last) : cataloguer.Covered mark after := by
  intro name hname hstart
  rcases hcalm.appeared name hname with hold | hnew
  · exact hcalm.hasRow (hcovered name hold hstart) (CameraIngest.mem_names.mp hname).2
  · obtain ⟨last, hlast, hle⟩ := hmark
    exact absurd (hnew last hlast).2 (not_lt.mpr (hstart.trans hle))

/-- What is calm keeps the invariant. -/
theorem Sound.calm (hsound : cataloguer.Sound before) : cataloguer.Sound after where
  toOrderly := hcalm.orderly hsound.toOrderly
  mem_cameras := hcalm.cameras ▸ hsound.mem_cameras
  id_unique := hcalm.cameras ▸ hsound.id_unique
  path_unique := hcalm.cameras ▸ hsound.path_unique
  row_start := by
    intro row hrow hcamera
    obtain ⟨old, hold, hsame⟩ := hcalm.row_origin row hrow (Or.inl hcamera)
    obtain ⟨name, hpath, hstart⟩ := hsound.row_start old hold (hsame.cameraId_eq ▸ hcamera)
    exact ⟨name, hsame.filePath_eq.trans hpath, hsame.startTime_eq.trans hstart⟩
  covered_row := by
    intro row hrow hcamera
    obtain ⟨old, hold, hsame⟩ := hcalm.row_origin row hrow (Or.inl hcamera)
    have hcamera' : old.cameraId = cataloguer.camera.id := hsame.cameraId_eq ▸ hcamera
    obtain ⟨name, hpath, hstart⟩ := hsound.row_start old hold hcamera'
    obtain ⟨last, hlast, hupTo⟩ :=
      hsound.known_catalogued name (hsound.catalogued_row name ⟨old, hold, hpath⟩)
    rw [hsame.startTime_eq]
    exact hcalm.covered (hsound.covered_row old hold hcamera')
      ⟨last, hlast, hstart ▸ hupTo.start_le⟩
  covered_watermark := by
    intro mark hmark
    obtain ⟨hcovered, last, hlast, hle⟩ :=
      hsound.covered_watermark mark (hcalm.watermark ▸ hmark)
    obtain ⟨newer, hnewer, hlater⟩ := hcalm.newest last hlast
    exact ⟨hcalm.covered hcovered ⟨last, hlast, hle⟩, newer, hnewer, hle.trans hlater.start_le⟩
  catalogued_row := fun name hrow ↦
    (hcalm.catalogued name).mpr (hsound.catalogued_row name (hcalm.hasRow_origin hrow))
  row_catalogued := by
    intro name hname hcatalogued
    have hbefore := (hcalm.catalogued name).mp hcatalogued
    have hold := hcalm.mem_names (hsound.known_catalogued name hbefore) hname
    exact hcalm.hasRow (hsound.row_catalogued name hold hbefore)
      (CameraIngest.mem_names.mp hname).2
  known_catalogued := fun name hcatalogued ↦
    hcalm.known (hsound.known_catalogued name ((hcalm.catalogued name).mp hcatalogued))

end Calm

/-- A camera that was just set up. -/
theorem Fresh.sound {scene : Scene} (hfresh : cataloguer.Fresh scene) : cataloguer.Sound scene := by
  have hnameOf : ∀ path ∈ scene.world.directories ++ scene.world.files.map DiskFile.path,
      cataloguer.nameOf path = none := by
    refine fun path hpath ↦ Option.eq_none_iff_forall_ne_some.mpr fun name hname ↦ ?_
    obtain ⟨heq, hsegment⟩ := nameOf_eq_some_iff.mp hname
    exact hfresh.no_segments path hpath name hsegment heq
  have hnames : cataloguer.names scene.world = [] := by
    refine List.filterMap_eq_nil_iff.mpr fun file hfile ↦ ?_
    exact hnameOf _ (List.mem_append_right _ (List.mem_map_of_mem hfile))
  have hnone : ∀ name, name ∉ cataloguer.names scene.world := by
    rw [hnames]
    exact fun name ↦ List.not_mem_nil
  exact
    { names_nodup := hnames ▸ List.nodup_nil
      directories := fun path hpath ↦ hnameOf path (List.mem_append_left _ hpath)
      directory := fun name hname ↦ absurd hname (hnone name)
      upTo_newest := fun name hname ↦ absurd hname (hnone name)
      ordered := fun first hfirst ↦ absurd hfirst (hnone first)
      mem_cameras := hfresh.mem_cameras
      id_unique := hfresh.id_unique
      path_unique := hfresh.path_unique
      row_start := fun row hrow hcamera ↦ absurd hcamera (hfresh.no_rows row hrow).1
      covered_row := fun row hrow hcamera ↦ absurd hcamera (hfresh.no_rows row hrow).1
      covered_watermark := by
        intro mark hmark
        rw [hfresh.no_watermark] at hmark
        cases hmark
      catalogued_row := by
        rintro name ⟨row, hrow, hpath⟩
        exact absurd hpath ((hfresh.no_rows row hrow).2 name)
      row_catalogued := fun name hname ↦ absurd hname (hnone name)
      known_catalogued := by
        rw [hfresh.no_history.2.1]
        exact fun name hname ↦ absurd hname List.not_mem_nil }

/-- A restart keeps the invariant: the catalogue is what is left to resume from. -/
theorem Sound.restart {scene : Scene} (hsound : cataloguer.Sound scene) :
    cataloguer.Sound scene.restart where
  toOrderly := hsound.toOrderly.of_names rfl (fun _ ↦ Or.inl) (fun _ ↦ id) rfl
  mem_cameras := hsound.mem_cameras
  id_unique := hsound.id_unique
  path_unique := hsound.path_unique
  row_start := hsound.row_start
  covered_row := hsound.covered_row
  covered_watermark := fun _ hmark ↦ by cases hmark
  catalogued_row := hsound.catalogued_row
  row_catalogued := hsound.row_catalogued
  known_catalogued := hsound.known_catalogued

/-! ### A scan on its way through the directory -/

variable (cataloguer) in
/-- How far a scan of the listed names has got: what is on the disk is listed or newer than all that
is, and the names that it has passed have a row, unless `stat` missed them. -/
structure Passed (listed passed : List String) (scene : Scene) : Prop where
  mem_listed : ∀ name ∈ cataloguer.names scene.world,
    name ∈ listed ∨ ∀ other ∈ listed, Precedes other name
  known : ∀ name ∈ listed, Known name scene
  settled : ∀ name ∈ passed, name ∈ cataloguer.names scene.world →
    scene.HasRow (cataloguer.path name) ∨ cataloguer.path name ∈ scene.missed

section Passed

variable {listed passed newer : List String} {name : String} {scene before after : Scene}

theorem Passed.calm (hcalm : cataloguer.Calm before after)
    (hmissed : ∀ path ∈ before.missed, path ∈ after.missed) (hsub : ∀ name ∈ passed, name ∈ listed)
    (hpassed : cataloguer.Passed listed passed before) :
    cataloguer.Passed listed passed after where
  mem_listed := by
    intro name hname
    rcases hcalm.appeared name hname with hold | hnew
    · exact hpassed.mem_listed name hold
    · refine Or.inr fun other hother ↦ ?_
      obtain ⟨last, hlast, hupTo⟩ := hpassed.known other hother
      exact hupTo.precedes (hnew last hlast)
  known := fun name hname ↦ hcalm.known (hpassed.known name hname)
  settled := by
    intro name hname hdisk
    have hold := hcalm.mem_names (hpassed.known name (hsub name hname)) hdisk
    rcases hpassed.settled name hname hold with hrow | hmiss
    · exact Or.inl (hcalm.hasRow hrow (CameraIngest.mem_names.mp hdisk).2)
    · exact Or.inr (hmissed _ hmiss)

/-- One more name is passed. -/
theorem Passed.concat (hpassed : cataloguer.Passed listed passed scene)
    (hname : name ∈ cataloguer.names scene.world →
      scene.HasRow (cataloguer.path name) ∨ cataloguer.path name ∈ scene.missed) :
    cataloguer.Passed listed (passed ++ [name]) scene where
  mem_listed := hpassed.mem_listed
  known := hpassed.known
  settled := by
    intro other hother
    rcases List.mem_append.mp hother with hold | hnew
    · exact hpassed.settled other hold
    · rw [List.mem_singleton.mp hnew]
      exact hname

/-- Once nothing missed is left, the passed names are marks. -/
theorem Passed.covered (hpassed : cataloguer.Passed listed passed scene)
    (hsplit : listed = passed ++ newer) (hsorted : listed.Pairwise Precedes)
    (hmissed : MissedSettled scene none) (hname : name ∈ passed) :
    cataloguer.Covered (startOf name) scene := by
  intro other hother hstart
  have hmem : other ∈ passed := by
    rcases hpassed.mem_listed other hother with hlisted | hlater
    · rw [hsplit] at hlisted hsorted
      rcases List.mem_append.mp hlisted with hold | hnew
      · exact hold
      · have hprecedes := (List.pairwise_append.mp hsorted).2.2 name hname other hnew
        exact absurd hprecedes.2 (not_lt.mpr hstart)
    · have hprecedes := hlater name (hsplit ▸ List.mem_append_left _ hname)
      exact absurd hprecedes.2 (not_lt.mpr hstart)
  rcases hpassed.settled other hmem hother with hrow | hmiss
  · exact hrow
  · exact hmissed _ hmiss (by simp) (CameraIngest.mem_names.mp hother).2

end Passed

/-! ### The two steps -/

/-- The scene after a row was written. -/
def Scene.inserted (scene : Scene) (data : NewRecording)
    (hfree : ∀ row ∈ scene.world.recordings.rows, row.filePath ≠ data.filePath) : Scene :=
  { scene with
    world := { scene.world with recordings := scene.world.recordings.insert data hfree }
    catalogued := data.filePath :: scene.catalogued
    examined := none }

theorem mem_inserted {scene : Scene} {data : NewRecording}
    {hfree : ∀ row ∈ scene.world.recordings.rows, row.filePath ≠ data.filePath} {row : Recording} :
    row ∈ (Scene.inserted scene data hfree).world.recordings.rows ↔
      row ∈ scene.world.recordings.rows ∨
        row = data.toRecording scene.world.recordings.nextId :=
  @RecordingTable.mem_insert scene.world.recordings data hfree row

theorem hasRow_inserted {scene : Scene} {data : NewRecording}
    {hfree : ∀ row ∈ scene.world.recordings.rows, row.filePath ≠ data.filePath} {path : Path} :
    (Scene.inserted scene data hfree).HasRow path ↔
      scene.HasRow path ∨ path = data.filePath := by
  constructor
  · rintro ⟨row, hrow, rfl⟩
    rcases mem_inserted.mp hrow with hold | rfl
    · exact Or.inl ⟨row, hold, rfl⟩
    · exact Or.inr rfl
  · rintro (⟨row, hrow, rfl⟩ | rfl)
    · exact ⟨row, mem_inserted.mpr (Or.inl hrow), rfl⟩
    · exact ⟨_, mem_inserted.mpr (Or.inr rfl), rfl⟩

section Steps

variable {listed passed newer : List String} {name : String} {scene : Scene}

/-- A row that is written for the next name settles it. -/
theorem Passed.inserted (hpassed : cataloguer.Passed listed passed scene) {data : NewRecording}
    (hfilePath : data.filePath = cataloguer.path name)
    (hfree : ∀ row ∈ scene.world.recordings.rows, row.filePath ≠ data.filePath) :
    cataloguer.Passed listed (passed ++ [name]) (Scene.inserted scene data hfree) where
  mem_listed := hpassed.mem_listed
  known := hpassed.known
  settled := by
    intro other hother hdisk
    rcases List.mem_append.mp hother with hold | hnew
    · exact (hpassed.settled other hold hdisk).imp_left fun hrow ↦
        hasRow_inserted.mpr (Or.inl hrow)
    · rw [List.mem_singleton.mp hnew]
      exact Or.inl (hasRow_inserted.mpr (Or.inr hfilePath.symm))

/-- The row of the next name keeps the invariant, when nothing missed before it is left. -/
theorem Sound.inserted (hsound : cataloguer.Sound scene)
    (hpassed : cataloguer.Passed listed passed scene) (hsplit : listed = passed ++ name :: newer)
    (hsorted : listed.Pairwise Precedes) {data : NewRecording}
    (hfilePath : data.filePath = cataloguer.path name) (hstart : data.startTime = startOf name)
    (hmissed : MissedSettled scene (some data.filePath))
    (hfree : ∀ row ∈ scene.world.recordings.rows, row.filePath ≠ data.filePath) :
    cataloguer.Sound (Scene.inserted scene data hfree) := by
  have hrow : ∀ {path}, scene.HasRow path → (Scene.inserted scene data hfree).HasRow path :=
    fun hrow ↦ hasRow_inserted.mpr (Or.inl hrow)
  have hnothing : MissedSettled (Scene.inserted scene data hfree) none := by
    intro path hpath _ hdisk
    by_cases hsame : path = data.filePath
    · exact hasRow_inserted.mpr (Or.inr hsame)
    · exact hrow (hmissed path hpath (by simpa using hsame) hdisk)
  have hcovered : cataloguer.Covered data.startTime (Scene.inserted scene data hfree) := by
    rw [hstart]
    exact (hpassed.inserted hfilePath hfree).covered
      (hsplit.trans (by rw [List.append_assoc, List.singleton_append])) hsorted hnothing
      (List.mem_append_right _ (List.mem_singleton.mpr rfl))
  exact
    { toOrderly := hsound.toOrderly.of_names rfl (fun _ ↦ Or.inl) (fun _ ↦ id) rfl
      mem_cameras := hsound.mem_cameras
      id_unique := hsound.id_unique
      path_unique := hsound.path_unique
      row_start := by
        intro row hmem hcamera
        rcases mem_inserted.mp hmem with hold | rfl
        · exact hsound.row_start row hold hcamera
        · exact ⟨name, hfilePath, hstart⟩
      covered_row := by
        intro row hmem hcamera
        rcases mem_inserted.mp hmem with hold | rfl
        · exact fun other hother hle ↦ hrow (hsound.covered_row row hold hcamera other hother hle)
        · exact hcovered
      covered_watermark := by
        intro mark hmark
        obtain ⟨hmarked, hlast⟩ := hsound.covered_watermark mark hmark
        exact ⟨fun other hother hle ↦ hrow (hmarked other hother hle), hlast⟩
      catalogued_row := by
        intro other hother
        rcases hasRow_inserted.mp hother with hold | hnew
        · exact List.mem_cons_of_mem _ (hsound.catalogued_row other hold)
        · exact hnew ▸ List.mem_cons_self
      row_catalogued := by
        intro other hother hcatalogued
        rcases List.mem_cons.mp hcatalogued with hnew | hold
        · exact hasRow_inserted.mpr (Or.inr hnew)
        · exact hrow (hsound.row_catalogued other hother hold)
      known_catalogued := by
        intro other hcatalogued
        rcases List.mem_cons.mp hcatalogued with hnew | hold
        · obtain rfl := path_inj.mp (hnew.trans hfilePath)
          exact hpassed.known other
            (hsplit ▸ List.mem_append_right _ List.mem_cons_self)
        · exact hsound.known_catalogued other hold }

variable (cataloguer) in
/-- The scene after the watermark of the camera was set. -/
def marked (mark : Option ℤ) (scene : Scene) : Scene :=
  { scene with
    world := { scene.world with
      watermarks := (cataloguer.camera.id, mark) :: scene.world.watermarks }
    examined := none }

/-- A watermark below which everything has a row keeps the invariant. -/
theorem Sound.marked {mark : Option ℤ} (hsound : cataloguer.Sound scene)
    (hmark : ∀ instant ∈ mark, cataloguer.Covered instant scene ∧
      ∃ last ∈ scene.newest, instant ≤ startOf last) :
    cataloguer.Sound (cataloguer.marked mark scene) where
  toOrderly := hsound.toOrderly.of_names rfl (fun _ ↦ Or.inl) (fun _ ↦ id) rfl
  mem_cameras := hsound.mem_cameras
  id_unique := hsound.id_unique
  path_unique := hsound.path_unique
  row_start := hsound.row_start
  covered_row := hsound.covered_row
  covered_watermark := by
    intro instant hinstant
    have hset : mark = some instant := by
      simpa [CameraIngest.marked, List.lookup_cons] using hinstant
    exact hmark instant hset
  catalogued_row := hsound.catalogued_row
  row_catalogued := hsound.row_catalogued
  known_catalogued := hsound.known_catalogued

/-- The newest row is such a watermark. -/
theorem Sound.covered_latest (hsound : cataloguer.Sound scene) {instant : ℤ}
    (hlatest : scene.world.recordings.findLatestStartTime cataloguer.camera.id = some instant) :
    cataloguer.Covered instant scene ∧ ∃ last ∈ scene.newest, instant ≤ startOf last := by
  obtain ⟨row, hrow, rfl⟩ := List.mem_map.mp (List.max?_mem hlatest)
  obtain ⟨hmem, hcamera⟩ := List.mem_filter.mp hrow
  have hcamera : row.cameraId = cataloguer.camera.id := of_decide_eq_true hcamera
  obtain ⟨name, hpath, hstart⟩ := hsound.row_start row hmem hcamera
  obtain ⟨last, hlast, hupTo⟩ :=
    hsound.known_catalogued name (hsound.catalogued_row name ⟨row, hmem, hpath⟩)
  exact ⟨hsound.covered_row row hmem hcamera, last, hlast, hstart ▸ hupTo.start_le⟩

end Steps

end CameraIngest

end VmsLite.Recordings
