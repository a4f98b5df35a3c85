import VmsLite.Backups.Database
import VmsLite.Backups.FaithfulArchives
import VmsLite.Backups.PartialRestore

/-!
# Restores into an empty database

The archive of a database is read as the config that was written. Restored into an empty database it
gives back the tables just when every cell survives: the column stores again what JSON and
`sanitizeRecord` make of it (`restores_iff_survives`). A text does not survive when it looks like a
date, and a JSON `null` never does (`restoresBackup_iff`).
-/

set_option autoImplicit false

namespace VmsLite.Backups.Service

open Data

/-! ### The archive -/

/-- What the platform does with the texts and the archive of a backup. -/
structure Platform.Handles (platform : Platform) (createdAt : ℤ) (database : Database) : Prop where
  gunzip : ∀ bytes, platform.gunzip (platform.gzip bytes) = some bytes
  decodes : platform.DecodesUtf8
  parseConfig : platform.parse (platform.stringify (config platform database)) =
    some (config platform database)
  parseManifest : platform.parse (platform.stringify (manifest platform createdAt database)) =
    some (manifest platform createdAt database)
  stringify_ne_nil : ∀ value, platform.stringify value ≠ []
  config_length : (configBuffer platform database).length < 8589934592
  manifest_length : (manifestBuffer platform createdAt database).length < 8589934592

theorem utf8_ne_nil {text : Text} (htext : text ≠ []) : utf8 text ≠ [] := by
  intro hnil
  have hread := fromUtf8_utf8 text
  rw [hnil] at hread
  exact htext (Option.some.inj hread).symm

/-- The two names of a backup. -/
theorem archivable_of_length {name : Text} {content : Bytes}
    (hname : name = "manifest.json".toList ∨ name = "config.json".toList)
    (hlength : content.length < 8589934592) :
    Archive.Archivable { name, content } := by
  have hnames : name ≠ [] ∧ (utf8 name).length ≤ 100 ∧ '\x00' ∉ name := by
    obtain rfl | rfl := hname
    · exact ⟨by decide, by decide, by decide⟩
    · exact ⟨by decide, by decide, by decide⟩
  obtain ⟨hnil, hshort, hzero⟩ := hnames
  exact ⟨hnil, hshort, fun char hchar ↦ ne_of_mem_of_not_mem hchar hzero, hlength⟩

theorem writtenName_manifest :
    Archive.writtenName "manifest.json".toList = "manifest.json".toList := by decide

theorem writtenName_config :
    Archive.writtenName "config.json".toList = "config.json".toList := by decide

section ReadConfig

variable {platform : Platform} {createdAt : ℤ} {database : Database}

theorem extractTarGz_createBackup (hplatform : platform.Handles createdAt database) (seconds : ℕ) :
    platform.extractTarGz (createBackup platform createdAt seconds database) = .ok
      [("config.json".toList, configBuffer platform database),
        ("manifest.json".toList, manifestBuffer platform createdAt database)] := by
  have hconfig : configBuffer platform database ≠ [] :=
    utf8_ne_nil (hplatform.stringify_ne_nil _)
  have hmanifest : manifestBuffer platform createdAt database ≠ [] :=
    utf8_ne_nil (hplatform.stringify_ne_nil _)
  have harchivable : ∀ file ∈ [
      ({ name := "manifest.json".toList
         content := manifestBuffer platform createdAt database } : Archive.TarFile),
      { name := "config.json".toList, content := configBuffer platform database }],
        Archive.Archivable file := by
    rw [List.forall_mem_cons, List.forall_mem_singleton]
    exact ⟨archivable_of_length (Or.inl rfl) hplatform.manifest_length,
      archivable_of_length (Or.inr rfl) hplatform.config_length⟩
  unfold createBackup
  rw [Archive.extractTarGz_buildTarGz hplatform.gunzip hplatform.decodes harchivable]
  unfold Archive.Platform.found
  rw [List.filter_cons_of_pos (by simpa using hmanifest),
    List.filter_cons_of_pos (by simpa using hconfig), List.filter_nil, List.map_cons, List.map_cons,
    writtenName_manifest, writtenName_config]
  rfl

theorem isText_self (text : Text) : isText text (some (.string text)) = true := decide_eq_true rfl

/-- An archive with a manifest that is an object. -/
theorem readConfig_of_files {archive manifestBuf : Bytes} {files : Archive.Files}
    {entries : List (Text × Json)} (hfiles : platform.extractTarGz archive = .ok files)
    (hlookup : files.lookup "manifest.json".toList = some manifestBuf)
    (hparse : platform.parse (platform.decode manifestBuf) = some (.object entries)) :
    readConfig platform archive = checkConfig platform files (.object entries) := by
  unfold readConfig
  rw [hfiles]
  dsimp only
  rw [hlookup]
  dsimp only
  rw [hparse]

/-- The config of an archive is the one that was written. -/
theorem readConfig_createBackup (hplatform : platform.Handles createdAt database) (seconds : ℕ) :
    readConfig platform (createBackup platform createdAt seconds database) =
      .ok (config platform database) := by
  have hmanifest : platform.parse (platform.decode (manifestBuffer platform createdAt database)) =
      some (manifest platform createdAt database) := by
    unfold manifestBuffer
    rw [hplatform.decodes, hplatform.parseManifest]
  have hconfig : platform.parse (platform.decode (configBuffer platform database)) =
      some (config platform database) := by
    unfold configBuffer
    rw [hplatform.decodes, hplatform.parseConfig]
  have hversion : (manifest platform createdAt database).property "schemaVersion".toList =
      some (.string "vms-bare-v1".toList) := rfl
  have hexpected : (manifest platform createdAt database).property "configSha256".toList =
      some (.string (platform.sha256 (configBuffer platform database))) := rfl
  have hfound : List.lookup "config.json".toList
      [("config.json".toList, configBuffer platform database),
        ("manifest.json".toList, manifestBuffer platform createdAt database)] =
          some (configBuffer platform database) := rfl
  rw [readConfig_of_files (extractTarGz_createBackup hplatform seconds) rfl hmanifest]
  change checkConfig platform _ (manifest platform createdAt database) = _
  unfold checkConfig
  rw [hversion, hexpected, hfound, if_pos (isText_self _)]
  dsimp only
  rw [if_pos (isText_self _), hconfig, Option.elim_some]

end ReadConfig

/-! ### The rows -/

section Rows

variable {prisma : Prisma} {platform : Platform} {model : Model} {row : Row}

/-- What is handed to a column when the row of a backup is restored. -/
def Platform.argumentOf (platform : Platform) (cell : Cell) : Argument :=
  platform.sanitizeArgument (.json (cell.toJson platform))

/-- A column stores again what a backup and a restore make of its value. -/
def Prisma.Survives (prisma : Prisma) (platform : Platform) (model : Model)
    (entry : Text × Cell) : Prop :=
  prisma.store model entry.1 (platform.argumentOf entry.2) = some entry.2

def Platform.recordOf (platform : Platform) (row : Row) : Record :=
  row.map fun entry ↦ (entry.1, platform.argumentOf entry.2)

theorem sanitizeRecord_rowJson :
    platform.sanitizeRecord (spread (rowJson platform row)) = platform.recordOf row := by
  unfold Platform.sanitizeRecord rowJson spread Platform.recordOf
  rw [List.map_map, List.map_map]
  rfl

/-- No column has the name of a relation. -/
theorem without_recordOf {keys : List Text} (hkeys : ∀ column ∈ model.columns, column ∉ keys)
    (hcolumns : row.map Prod.fst = model.columns) :
    without keys (platform.recordOf row) = platform.recordOf row := by
  refine List.filter_eq_self.mpr fun entry hentry ↦ ?_
  obtain ⟨cell, hcell, rfl⟩ := List.mem_map.mp hentry
  have hcolumn : cell.1 ∈ model.columns := hcolumns ▸ List.mem_map_of_mem hcell
  simpa using hkeys cell.1 hcolumn

theorem createData_rowJson (hcolumns : row.map Prod.fst = model.columns) :
    createData platform model (rowJson platform row) = platform.recordOf row := by
  cases model with
  | user => exact sanitizeRecord_rowJson
  | camera =>
    unfold createData Platform.sanitizeCameraRecord
    rw [sanitizeRecord_rowJson]
    exact without_recordOf (by decide) hcolumns
  | _ =>
    unfold createData Platform.cleanRecord
    rw [sanitizeRecord_rowJson]
    exact without_recordOf (by decide) hcolumns

theorem sanitizeArgument_idem (argument : Argument) :
    platform.sanitizeArgument (platform.sanitizeArgument argument) =
      platform.sanitizeArgument argument := by
  match argument with
  | .json (.string text) =>
    unfold Platform.sanitizeArgument
    dsimp only
    split_ifs with hdate
    · rfl
    · dsimp only
      rw [if_neg hdate]
  | .json .null | .json (.bool _) | .json (.number _) | .json (.array _) | .json (.object _)
  | .date _ => rfl

theorem sanitizeRecord_recordOf (row : Row) :
    platform.sanitizeRecord (platform.recordOf row) = platform.recordOf row := by
  unfold Platform.sanitizeRecord Platform.recordOf
  rw [List.map_map]
  exact List.map_congr_left fun entry _ ↦ Prod.ext rfl (sanitizeArgument_idem _)

theorem updateData_rowJson (hcolumns : row.map Prod.fst = model.columns) :
    updateData platform model (rowJson platform row) =
      without ["id".toList] (platform.recordOf row) := by
  cases model with
  | user =>
    unfold updateData Platform.sanitizeRecordForUpdate
    rw [sanitizeRecord_rowJson]
  | camera =>
    unfold updateData Platform.sanitizeCameraRecordForUpdate Platform.sanitizeCameraRecord
    dsimp only
    rw [sanitizeRecord_rowJson, without_recordOf (by decide) hcolumns]
  | _ =>
    unfold updateData Platform.cleanRecord Platform.sanitizeRecordForUpdate
    dsimp only
    rw [sanitizeRecord_rowJson, without_recordOf (by decide) hcolumns, sanitizeRecord_recordOf]

theorem nodup_columns (model : Model) : model.columns.Nodup := by cases model <;> decide

theorem lookup_recordOf (hcolumns : row.map Prod.fst = model.columns) {entry : Text × Cell}
    (hentry : entry ∈ row) :
    (platform.recordOf row).lookup entry.1 = some (platform.argumentOf entry.2) := by
  have hkeys : ((platform.recordOf row).map Prod.fst).Nodup := by
    rw [show (platform.recordOf row).map Prod.fst = row.map Prod.fst from List.map_map, hcolumns]
    exact nodup_columns model
  exact (lookup_eq_some_iff_mem hkeys).mpr (List.mem_map_of_mem hentry)

theorem keys_recordOf (hcolumns : row.map Prod.fst = model.columns) :
    (platform.recordOf row).all (fun entry ↦ model.columns.contains entry.1) = true := by
  refine List.all_eq_true.mpr fun entry hentry ↦ List.contains_iff_mem.mpr ?_
  obtain ⟨cell, hcell, rfl⟩ := List.mem_map.mp hentry
  exact hcolumns ▸ List.mem_map_of_mem hcell

/-- The row that is made of the record of a row. -/
theorem rowOf_recordOf_iff (hcolumns : row.map Prod.fst = model.columns) {made : Row} :
    prisma.rowOf model (platform.recordOf row) none = some made ↔
      List.Forall₂ (fun entry cell ↦
        (prisma.store model entry.1 (platform.argumentOf entry.2)).map (entry.1, ·) = some cell)
          row made := by
  unfold Prisma.rowOf
  rw [if_pos (keys_recordOf hcolumns), mapM_eq_some_iff, ← hcolumns, List.forall₂_map_left_iff]
  refine forall₂_congr_mem fun entry hentry cell ↦ ?_
  unfold Prisma.cellOf
  rw [lookup_recordOf hcolumns hentry]

/-- A row is made again of its record just when all its cells survive. -/
theorem rowOf_recordOf_self (hcolumns : row.map Prod.fst = model.columns) :
    prisma.rowOf model (platform.recordOf row) none = some row ↔
      ∀ entry ∈ row, prisma.Survives platform model entry := by
  rw [rowOf_recordOf_iff hcolumns, List.forall₂_same]
  refine forall₂_congr fun entry _ ↦ ?_
  unfold Prisma.Survives
  rw [Option.map_eq_some_iff]
  constructor
  · rintro ⟨cell, hcell, hentry⟩
    exact hentry ▸ hcell
  · exact fun hcell ↦ ⟨entry.2, hcell, rfl⟩

/-- The part of an `upsert` that is not needed is checked with the same values. -/
theorem isSome_rowOf_update (hcolumns : row.map Prod.fst = model.columns)
    (hsurvives : ∀ entry ∈ row, prisma.Survives platform model entry) :
    (prisma.rowOf model (without ["id".toList] (platform.recordOf row))
      (some (model.columns.map (·, .null)))).isSome = true := by
  have hkeys : (platform.recordOf row).all (fun entry ↦ model.columns.contains entry.1) = true :=
    keys_recordOf hcolumns
  unfold Prisma.rowOf
  rw [if_pos, isSome_mapM_iff]
  · intro column hcolumn
    rw [Option.isSome_map]
    unfold Prisma.cellOf
    cases hlookup : (without ["id".toList] (platform.recordOf row)).lookup column with
    | none =>
      have hkeys : ((model.columns.map (·, Cell.null)).map Prod.fst).Nodup := by
        rw [List.map_map, show Prod.fst ∘ (·, Cell.null) = @id Text from rfl, List.map_id]
        exact nodup_columns model
      have hnull : (model.columns.map (·, Cell.null)).lookup column = some .null :=
        (lookup_eq_some_iff_mem hkeys).mpr (List.mem_map_of_mem hcolumn)
      dsimp only
      rw [hnull]
      rfl
    | some argument =>
      obtain ⟨before, after, happend, -⟩ := List.lookup_eq_some_iff.mp hlookup
      have hmem : (column, argument) ∈ without ["id".toList] (platform.recordOf row) :=
        happend ▸ List.mem_append_right _ List.mem_cons_self
      obtain ⟨entry, hentry, hsame⟩ := List.mem_map.mp (List.mem_of_mem_filter hmem)
      obtain ⟨rfl, rfl⟩ := Prod.mk.inj hsame
      dsimp only
      rw [hsurvives entry hentry]
      rfl
  · exact List.all_eq_true.mpr fun entry hentry ↦
      List.all_eq_true.mp hkeys entry (List.mem_of_mem_filter hentry)

end Rows

/-! ### Writes -/

section Writes

variable {prisma : Prisma} {platform : Platform} {model : Model} {row : Row}
  {database after : Database}

theorem property_rowJson (platform : Platform) (row : Row) (column : Text) :
    (rowJson platform row).property column = (row.lookup column).map (Cell.toJson platform) := by
  change (row.map _).lookup column = _
  induction row with
  | nil => rfl
  | cons entry row ih =>
    rw [List.map_cons, List.lookup_cons, List.lookup_cons, ih]
    cases column == entry.1 <;> rfl

theorem property_of_text {column text : Text} (htext : row.text column = some text) :
    (rowJson platform row).property column = some (.string text) := by
  rw [property_rowJson]
  unfold Row.text at htext
  split at htext
  next found hfound =>
    obtain rfl := Option.some.inj htext
    rw [hfound]
    rfl
  · cases htext

theorem id_of_text {id : Text} (hid : row.text "id".toList = some id) : row.id = id := by
  unfold Row.id
  rw [hid, Option.getD_some]

theorem create_ok {data : Record} (hcreate : prisma.create model data database = .ok after) :
    ∃ made, prisma.rowOf model data none = some made ∧
      schema.insert database model made = some after := by
  unfold Prisma.create at hcreate
  split at hcreate
  · cases hcreate
  next made hmade =>
    split_ifs at hcreate
    exact ⟨made, hmade, eq_some_of_elim_ok hcreate⟩

theorem create_eq_ok {data : Record} {made : Row} (hmade : prisma.rowOf model data none = some made)
    (hadmits : prisma.admits model made = true)
    (hinsert : schema.insert database model made = some after) :
    prisma.create model data database = .ok after := by
  unfold Prisma.create
  rw [hmade]
  dsimp only
  rw [if_pos hadmits, hinsert, Option.elim_some]

/-- An `upsert` inserts the row that is made of its data, or puts a row in the place of another. -/
theorem upsert_ok {id : Option Json} {create update : Record}
    (hupsert : prisma.upsert model id create update database = .ok after) :
    (∃ made, prisma.rowOf model create none = some made ∧
      schema.insert database model made = some after) ∨
        ∃ made, schema.replace database model made = some after := by
  unfold Prisma.upsert at hupsert
  split at hupsert
  · split at hupsert
    · split_ifs at hupsert
      exact Or.inl (create_ok hupsert)
    · split at hupsert
      next made _ _ =>
        split_ifs at hupsert
        exact Or.inr ⟨made, eq_some_of_elim_ok hupsert⟩
      · cases hupsert
  · cases hupsert

theorem upsert_fresh {id : Text} (hcolumns : row.map Prod.fst = model.columns)
    (hid : row.text "id".toList = some id) (hfresh : ∀ other ∈ database model, other.id ≠ id)
    (hsurvives : ∀ entry ∈ row, prisma.Survives platform model entry)
    (hadmits : prisma.admits model row = true)
    (hinsert : schema.insert database model row = some after) :
    prisma.upsert model ((rowJson platform row).property "id".toList)
      (createData platform model (rowJson platform row))
      (updateData platform model (rowJson platform row)) database = .ok after := by
  have hnone : (database model).find? (fun other ↦ other.id = id) = none :=
    List.find?_eq_none.mpr fun other hother hsame ↦ hfresh other hother (of_decide_eq_true hsame)
  unfold Prisma.upsert
  rw [property_of_text hid]
  dsimp only
  rw [hnone]
  dsimp only
  rw [updateData_rowJson hcolumns, if_pos (isSome_rowOf_update hcolumns hsurvives),
    createData_rowJson hcolumns]
  exact create_eq_ok ((rowOf_recordOf_self hcolumns).mpr hsurvives) hadmits hinsert

/-- The restore of the rows of a model into any tables. -/
theorem attemptModel_overwrite (source : Database) :
    attemptModel prisma.client platform .overwrite
      (fun model ↦ (source model).map (rowJson platform)) database model =
    (source model).foldlM (fun reached row ↦
      prisma.upsert model ((rowJson platform row).property "id".toList)
        (createData platform model (rowJson platform row))
        (updateData platform model (rowJson platform row)) reached) database := by
  unfold attemptModel
  rw [List.foldlM_map]
  refine congrArg (List.foldlM · database (source model)) (funext₂ fun reached row ↦ ?_)
  change (do
    let result ← (do
      let after ← prisma.upsert model ((rowJson platform row).property "id".toList)
        (createData platform model (rowJson platform row))
        (updateData platform model (rowJson platform row)) reached
      return some after)
    return result.getD reached) = _
  cases prisma.upsert model ((rowJson platform row).property "id".toList)
    (createData platform model (rowJson platform row))
    (updateData platform model (rowJson platform row)) reached <;> rfl

end Writes

/-! ### The order of the models -/

/-- Every model comes after those that its rows refer to. -/
def isOrdered (earlier : List Model) : List Model → Bool
  | [] => true
  | model :: models =>
    (model.foreignKeys.all fun key ↦ earlier.contains key.2) && isOrdered (model :: earlier) models

theorem isOrdered_restoreOrder : isOrdered [] restoreOrder = true := by decide

/-- Tables that satisfy the schema of the database. -/
structure Prisma.Holds (prisma : Prisma) (database : Database) : Prop where
  keys : schema.Valid database
  columns : ∀ model, ∀ row ∈ database model, row.map Prod.fst = model.columns
  required : ∀ model, ∀ row ∈ database model, ∀ column ∈ model.lookupColumns,
    ∃ text, row.text column = some text
  admitted : ∀ model, ∀ row ∈ database model, prisma.admits model row = true

theorem id_mem_lookupColumns (model : Model) : "id".toList ∈ model.lookupColumns := by
  cases model <;> exact List.mem_cons_self

section Rebuild

variable {prisma : Prisma} {platform : Platform} {source reached final : Database}

/-- A row is inserted behind the rows that stood before it, once those it refers to are there. -/
theorem insert_next {model : Model} {before rest : List Row} {row : Row}
    (hkeys : schema.Valid source) (hsource : source model = before ++ row :: rest)
    (hreached : reached model = before)
    (hearlier : ∀ key ∈ model.foreignKeys, reached key.2 = source key.2) :
    schema.insert reached model row =
      some (Function.update reached model (before ++ [row])) := by
  have hunique := hkeys.unique model
  rw [hsource, List.pairwise_append] at hunique
  refine Schema.insert_eq_some_iff.mpr ⟨fun other hother hclash ↦ ?_, ?_, by rw [hreached]⟩
  · exact hunique.2.2 other (hreached ▸ hother) row List.mem_cons_self hclash.symm
  · intro reference hreference id hid
    obtain ⟨key, hkey, rfl⟩ := List.mem_map.mp hreference
    rw [hearlier key hkey]
    exact hkeys.resolved model row (hsource ▸ List.mem_append_right _ List.mem_cons_self)
      _ (List.mem_map_of_mem hkey) id hid

theorem rebuild_model {model : Model} (hholds : prisma.Holds source)
    (hsurvives : ∀ row ∈ source model, ∀ entry ∈ row, prisma.Survives platform model entry)
    (hother : ∀ key ∈ model.foreignKeys, key.2 ≠ model)
    (hearlier : ∀ key ∈ model.foreignKeys, reached key.2 = source key.2)
    (hempty : reached model = []) :
    attemptModel prisma.client platform .overwrite
      (fun model ↦ (source model).map (rowJson platform)) reached model =
        .ok (Function.update reached model (source model)) := by
  rw [attemptModel_overwrite]
  -- The induction is on the rows still to come
  suffices hrest : ∀ (rest before : List Row) (tables : Database), source model = before ++ rest →
      tables = Function.update reached model before →
      rest.foldlM (fun reached row ↦
        prisma.upsert model ((rowJson platform row).property "id".toList)
          (createData platform model (rowJson platform row))
          (updateData platform model (rowJson platform row)) reached) tables =
        .ok (Function.update reached model (source model)) by
    exact hrest (source model) [] reached rfl (by rw [← hempty, Function.update_eq_self])
  intro rest
  induction rest with
  | nil =>
    rintro before tables hsource rfl
    rw [hsource, List.append_nil]
    rfl
  | cons row rest ih =>
    rintro before tables hsource rfl
    have hmem : row ∈ source model := hsource ▸ List.mem_append_right _ List.mem_cons_self
    obtain ⟨id, hid⟩ := hholds.required model row hmem _ (id_mem_lookupColumns model)
    have hinsert : schema.insert (Function.update reached model before) model row =
        some (Function.update (Function.update reached model before) model (before ++ [row])) :=
      insert_next hholds.keys hsource (Function.update_self ..) fun key hkey ↦ by
        rw [Function.update_of_ne (hother key hkey)]
        exact hearlier key hkey
    have hfresh : ∀ other ∈ Function.update reached model before model, other.id ≠ id := by
      rw [Function.update_self]
      intro other hmember hsame
      have hunique := hholds.keys.unique model
      rw [hsource, List.pairwise_append] at hunique
      exact hunique.2.2 other hmember row List.mem_cons_self
        (Or.inl (hsame.trans (id_of_text hid).symm))
    rw [List.foldlM_cons, upsert_fresh (hholds.columns model row hmem) hid hfresh
      (hsurvives row hmem) (hholds.admitted model row hmem) hinsert, ok_bind]
    exact ih (before ++ [row]) _ (hsource.trans (List.append_cons before row rest))
      (Function.update_idem ..)

/-- The tables whose models have been restored. -/
def restoredTo (source : Database) (models : List Model) : Database :=
  fun model ↦ if model ∈ models then source model else []

theorem update_restoredTo (source : Database) (earlier : List Model) (model : Model) :
    Function.update (restoredTo source earlier) model (source model) =
      restoredTo source (model :: earlier) := by
  funext other
  unfold restoredTo
  by_cases hsame : other = model
  · subst hsame
    rw [Function.update_self, if_pos List.mem_cons_self]
  · rw [Function.update_of_ne hsame]
    simp only [List.mem_cons, hsame, false_or]

theorem rebuild_models {models earlier : List Model} (hholds : prisma.Holds source)
    (hsurvives : ∀ model, ∀ row ∈ source model, ∀ entry ∈ row,
      prisma.Survives platform model entry)
    (hordered : isOrdered earlier models = true) (hnodup : models.Nodup)
    (hnew : ∀ model ∈ models, model ∉ earlier) :
    models.foldlM (attemptModel prisma.client platform .overwrite
      (fun model ↦ (source model).map (rowJson platform))) (restoredTo source earlier) =
        .ok (restoredTo source (models.reverse ++ earlier)) := by
  induction models generalizing earlier with
  | nil => rfl
  | cons model models ih =>
    obtain ⟨hlater, hnodup⟩ := List.nodup_cons.mp hnodup
    obtain ⟨htargets, hordered⟩ := Bool.and_eq_true_iff.mp hordered
    have hearlier : ∀ key ∈ model.foreignKeys, key.2 ∈ earlier := fun key hkey ↦
      List.contains_iff_mem.mp (List.all_eq_true.mp htargets key hkey)
    have hmodel := hnew model List.mem_cons_self
    rw [List.foldlM_cons, rebuild_model hholds (hsurvives model)
      (fun key hkey ↦ ne_of_mem_of_not_mem (hearlier key hkey) hmodel)
      (fun key hkey ↦ if_pos (hearlier key hkey)) (if_neg hmodel), ok_bind, update_restoredTo,
      List.reverse_cons, List.append_assoc]
    refine ih hordered hnodup fun other hother ↦ ?_
    rw [List.mem_cons, not_or]
    exact ⟨ne_of_mem_of_not_mem hother hlater, hnew other (List.mem_cons_of_mem _ hother)⟩

/-- Where all cells survive, all rows are written again. -/
theorem attemptModels_of_survives (hholds : prisma.Holds source)
    (hsurvives : ∀ model, ∀ row ∈ source model, ∀ entry ∈ row,
      prisma.Survives platform model entry) :
    attemptModels prisma.client platform .overwrite
      (fun model ↦ (source model).map (rowJson platform)) (fun _ ↦ []) = .ok source := by
  have hrun := rebuild_models hholds hsurvives isOrdered_restoreOrder nodup_restoreOrder
    fun model _ ↦ List.not_mem_nil
  have hall : restoredTo source (restoreOrder.reverse ++ []) = source := by
    funext model
    unfold restoredTo
    rw [List.append_nil, if_pos (List.mem_reverse.mpr (mem_restoreOrder model))]
  have hempty : restoredTo source [] = fun _ ↦ [] := rfl
  rwa [hall, hempty] at hrun

/-! ### What had to survive -/

/-- A write of a record adds one row at most, to the table of its model; the row that it adds is
made of the record. -/
structure Added (prisma : Prisma) (model : Model) (data : Record) (before after : Database) :
    Prop where
  others : ∀ other, other ≠ model → after other = before other
  length_le : (after model).length ≤ (before model).length + 1
  made : (after model).length = (before model).length + 1 → ∃ made,
    prisma.rowOf model data none = some made ∧ after model = before model ++ [made]

theorem added_upsert {model : Model} {id : Option Json} {create update : Record}
    {before after : Database}
    (hupsert : prisma.upsert model id create update before = .ok after) :
    Added prisma model create before after := by
  rcases upsert_ok hupsert with ⟨made, hmade, hinsert⟩ | ⟨made, hreplace⟩
  · obtain ⟨-, -, rfl⟩ := Schema.insert_eq_some_iff.mp hinsert
    refine ⟨fun other hother ↦ Function.update_of_ne hother _ _, ?_, fun _ ↦ ⟨made, hmade, ?_⟩⟩
    · rw [Function.update_self, List.length_append, List.length_singleton]
    · rw [Function.update_self]
  · obtain ⟨-, -, rfl⟩ := Schema.replace_eq_some_iff.mp hreplace
    refine ⟨fun other hother ↦ Function.update_of_ne hother _ _, ?_, fun hlength ↦ ?_⟩
    · rw [Function.update_self, List.length_map]
      exact Nat.le_succ _
    · rw [Function.update_self, List.length_map] at hlength
      omega

/-- The rows that are made of the records of rows. -/
def Made (prisma : Prisma) (platform : Platform) (model : Model) (rows made : List Row) : Prop :=
  List.Forall₂ (fun row result ↦
    prisma.rowOf model (createData platform model (rowJson platform row)) none = some result)
      rows made

theorem added_rows {model : Model} {rows : List Row} {before after : Database}
    (hrun : rows.foldlM (fun reached row ↦
      prisma.upsert model ((rowJson platform row).property "id".toList)
        (createData platform model (rowJson platform row))
        (updateData platform model (rowJson platform row)) reached) before = .ok after) :
    (∀ other, other ≠ model → after other = before other) ∧
      (after model).length ≤ (before model).length + rows.length ∧
      ((after model).length = (before model).length + rows.length → ∃ made,
        Made prisma platform model rows made ∧ after model = before model ++ made) := by
  induction rows generalizing before with
  | nil =>
    obtain rfl := Except.ok.inj hrun
    exact ⟨fun _ _ ↦ rfl, Nat.le_refl _, fun _ ↦ ⟨[], List.Forall₂.nil, (List.append_nil _).symm⟩⟩
  | cons row rows ih =>
    obtain ⟨middle, hupsert, hrest⟩ := exists_of_bind_ok hrun
    have hadded := added_upsert hupsert
    have hfirst := hadded.length_le
    obtain ⟨hothers, hlength, hmade⟩ := ih hrest
    refine ⟨fun other hother ↦ (hothers other hother).trans (hadded.others other hother), ?_,
      fun hall ↦ ?_⟩
    · rw [List.length_cons]
      omega
    · rw [List.length_cons] at hall
      obtain ⟨first, hfirst, hmiddle⟩ := hadded.made (by omega)
      obtain ⟨made, hrows, hafter⟩ := hmade (by omega)
      exact ⟨first :: made, List.Forall₂.cons hfirst hrows, by rw [hafter, hmiddle,
        List.append_assoc, List.singleton_append]⟩

theorem made_of_models {models : List Model} {before : Database} (hnodup : models.Nodup)
    (hrun : models.foldlM (attemptModel prisma.client platform .overwrite
      (fun model ↦ (source model).map (rowJson platform))) before = .ok final) :
    (∀ other ∉ models, final other = before other) ∧ ∀ model ∈ models, before model = [] →
      (final model).length = (source model).length →
        Made prisma platform model (source model) (final model) := by
  induction models generalizing before with
  | nil =>
    obtain rfl := Except.ok.inj hrun
    exact ⟨fun _ _ ↦ rfl, nofun⟩
  | cons model models ih =>
    obtain ⟨hnew, hnodup⟩ := List.nodup_cons.mp hnodup
    obtain ⟨middle, hmodel, hrest⟩ := exists_of_bind_ok hrun
    rw [attemptModel_overwrite] at hmodel
    obtain ⟨hothers, -, hmade⟩ := added_rows hmodel
    obtain ⟨hkept, hlater⟩ := ih hnodup hrest
    constructor
    · intro other hother
      obtain ⟨hne, hother⟩ := not_or.mp (List.mem_cons.not.mp hother)
      exact (hkept other hother).trans (hothers other hne)
    · intro other hother hempty hlength
      rcases List.mem_cons.mp hother with rfl | hother
      · rw [hkept other hnew] at hlength ⊢
        obtain ⟨made, hrows, hafter⟩ := hmade (by rw [hlength, hempty, List.length_nil, zero_add])
        rwa [hafter, hempty, List.nil_append]
      · exact hlater other hother
          ((hothers other (ne_of_mem_of_not_mem hother hnew)).trans hempty) hlength

/-- The tables come back just when every cell survives. -/
theorem restores_iff_survives {createdAt : ℤ} {seconds : ℕ} (hholds : prisma.Holds source)
    (hplatform : platform.Handles createdAt source) :
    (∃ summary, restoreBackup prisma.client platform .overwrite
        (createBackup platform createdAt seconds source) (fun _ ↦ []) = (.ok summary, source)) ↔
      ∀ model, ∀ row ∈ source model, ∀ entry ∈ row, prisma.Survives platform model entry := by
  rw [returns_iff (readConfig_createBackup hplatform seconds)]
  constructor
  · intro hrun model row hrow
    have hmade := (made_of_models nodup_restoreOrder hrun).2 model (mem_restoreOrder model) rfl rfl
    have hself := List.forall₂_same.mp hmade row hrow
    have hcolumns := hholds.columns model row hrow
    rw [createData_rowJson hcolumns] at hself
    exact (rowOf_recordOf_self hcolumns).mp hself
  · exact attemptModels_of_survives hholds

/-! ### Which cells survive -/

/-- A value as the client takes it back. -/
def Cell.argument : Cell → Argument
  | .null => .json .null
  | .text value => .json (.string value)
  | .number value => .json (.number value)
  | .bool value => .json (.bool value)
  | .date time => .date (some time)
  | .json value => .json value

/-- What the client does with values of valid tables: what was read of a column may be written to it,
but a JSON `null`; a date is no text; and a date is read back of its ISO text. -/
structure Documented (prisma : Prisma) (platform : Platform) (source : Database) : Prop where
  takesBack : ∀ model, ∀ row ∈ source model, ∀ entry ∈ row,
    (∀ value, entry.2 = .json value → value ≠ .null) →
      prisma.store model entry.1 entry.2.argument = some entry.2
  date_ne_text : ∀ model column time value,
    prisma.store model column (.date time) ≠ some (.text value)
  null_ne_json : ∀ model column, prisma.store model column (.json .null) ≠ some (.json .null)
  dateOf_iso : ∀ model, ∀ row ∈ source model, ∀ column time, (column, .date time) ∈ row →
    platform.dateOf (platform.toISOString time) = some time

/-- A cell that holds no text like a date and no JSON `null`; the ISO text of a date looks like one
in the years from 0 to 9999. -/
def Cell.IsPlain (prisma : Prisma) (platform : Platform) (model : Model) (column : Text) :
    Cell → Prop
  | .text value => looksLikeDate value = false
  | .date time => looksLikeDate (platform.toISOString time) = true ∨
    prisma.store model column (.json (.string (platform.toISOString time))) = some (.date time)
  | .json .null => False
  | .json (.string value) => looksLikeDate value = false ∨
    prisma.store model column (.date (platform.dateOf value)) = some (.json (.string value))
  | _ => True

theorem survives_iff_isPlain (hdocumented : Documented prisma platform source) {model : Model}
    {row : Row} (hrow : row ∈ source model) {entry : Text × Cell} (hentry : entry ∈ row) :
    prisma.Survives platform model entry ↔ entry.2.IsPlain prisma platform model entry.1 := by
  have htakes := hdocumented.takesBack model row hrow entry hentry
  obtain ⟨column, cell⟩ := entry
  unfold Prisma.Survives Platform.argumentOf
  cases cell with
  | null => exact iff_of_true (htakes nofun) trivial
  | number value => exact iff_of_true (htakes nofun) trivial
  | bool value => exact iff_of_true (htakes nofun) trivial
  | text value =>
    unfold Cell.toJson Platform.sanitizeArgument Cell.IsPlain
    dsimp only
    split_ifs with hdate
    · exact iff_of_false (hdocumented.date_ne_text model column _ value)
        (fun hplain ↦ Bool.false_ne_true (hplain.symm.trans hdate))
    · exact iff_of_true (htakes nofun) (Bool.eq_false_of_not_eq_true hdate)
  | date time =>
    unfold Cell.toJson Platform.sanitizeArgument Cell.IsPlain
    dsimp only
    split_ifs with hdate
    · rw [hdocumented.dateOf_iso model row hrow column time hentry]
      exact iff_of_true (htakes nofun) (Or.inl hdate)
    · exact (or_iff_right hdate).symm
  | json value =>
    have hargument : value ≠ .null → prisma.store model column (.json value) = some (.json value) :=
      fun hvalue ↦ htakes fun other hother ↦ Cell.json.inj hother ▸ hvalue
    cases value with
    | null => exact iff_of_false (hdocumented.null_ne_json model column) id
    | string value =>
      unfold Cell.toJson Platform.sanitizeArgument Cell.IsPlain
      dsimp only
      split_ifs with hdate
      · exact (or_iff_right (ne_false_of_eq_true hdate)).symm
      · exact iff_of_true (hargument nofun) (Or.inl (Bool.eq_false_of_not_eq_true hdate))
    | bool value => exact iff_of_true (hargument nofun) trivial
    | number value => exact iff_of_true (hargument nofun) trivial
    | array items => exact iff_of_true (hargument nofun) trivial
    | object entries => exact iff_of_true (hargument nofun) trivial

/-- The archive of valid tables, restored into an empty database, gives back just these tables if
and only if no text in them looks like a date and no JSON value is `null`. -/
theorem restoresBackup_iff {createdAt : ℤ} {seconds : ℕ} (hholds : prisma.Holds source)
    (hplatform : platform.Handles createdAt source)
    (hdocumented : Documented prisma platform source) :
    (∃ summary, restoreBackup prisma.client platform .overwrite
        (createBackup platform createdAt seconds source) (fun _ ↦ []) = (.ok summary, source)) ↔
      ∀ model, ∀ row ∈ source model, ∀ entry ∈ row,
        entry.2.IsPlain prisma platform model entry.1 := by
  rw [restores_iff_survives hholds hplatform]
  exact forall_congr' fun model ↦ forall₂_congr fun row hrow ↦ forall₂_congr fun entry hentry ↦
    survives_iff_isPlain hdocumented hrow hentry

end Rebuild

/-! ### The backup of one webhook endpoint -/

def webhookRow : Row :=
  [("id".toList, .text "w1".toList), ("name".toList, .text "Gate".toList),
    ("url".toList, .text "https://hooks.local/vms".toList),
    ("secret".toList, .text "s3cret".toList),
    ("events".toList, .json (.array [.string ['*']])), ("enabled".toList, .bool true),
    ("createdAt".toList, .date 1709232310000), ("updatedAt".toList, .date 1709232310000)]

def endpointDatabase (row : Row) : Database
  | .webhookEndpoint => [row]
  | _ => []

def webhookDatabase : Database := endpointDatabase webhookRow

def webhookConfig : Json :=
  .object
    [("sites".toList, .array []), ("sitePermissions".toList, .array []),
      ("users".toList, .array []), ("cameras".toList, .array []),
      ("motionZones".toList, .array []), ("recordingSchedules".toList, .array []),
      ("cameraPermissions".toList, .array []), ("bookmarks".toList, .array []),
      ("webhookEndpoints".toList, .array [.object
        [("id".toList, .string "w1".toList), ("name".toList, .string "Gate".toList),
          ("url".toList, .string "https://hooks.local/vms".toList),
          ("secret".toList, .string "s3cret".toList),
          ("events".toList, .array [.string ['*']]), ("enabled".toList, .bool true),
          ("createdAt".toList, .string "2024-02-29T18:45:10.000Z".toList),
          ("updatedAt".toList, .string "2024-02-29T18:45:10.000Z".toList)]]),
      ("notificationConfigs".toList, .array [])]

@[irreducible] def webhookConfigText : Text :=
  ["\x7b\n", "  \"sites\": [],\n", "  \"sitePermissions\": [],\n", "  \"users\": [],\n",
    "  \"cameras\": [],\n", "  \"motionZones\": [],\n", "  \"recordingSchedules\": [],\n",
    "  \"cameraPermissions\": [],\n", "  \"bookmarks\": [],\n", "  \"webhookEndpoints\": [\n",
    "    \x7b\n", "      \"id\": \"w1\",\n", "      \"name\": \"Gate\",\n",
    "      \"url\": \"https://hooks.local/vms\",\n", "      \"secret\": \"s3cret\",\n",
    "      \"events\": [\n", "        \"*\"\n", "      ],\n", "      \"enabled\": true,\n",
    "      \"createdAt\": \"2024-02-29T18:45:10.000Z\",\n",
    "      \"updatedAt\": \"2024-02-29T18:45:10.000Z\"\n", "    \x7d\n", "  ],\n",
    "  \"notificationConfigs\": []\n", "\x7d"].flatMap String.toList

@[irreducible] def webhookManifestText : Text :=
  ["\x7b\n", "  \"version\": \"1.0\",\n", "  \"schemaVersion\": \"vms-bare-v1\",\n",
    "  \"createdAt\": \"2024-02-29T18:45:10.000Z\",\n", "  \"hostname\": \"vms\",\n",
    "  \"modelCounts\": \x7b\n", "    \"sites\": 0,\n", "    \"sitePermissions\": 0,\n",
    "    \"users\": 0,\n", "    \"cameras\": 0,\n", "    \"motionZones\": 0,\n",
    "    \"recordingSchedules\": 0,\n", "    \"cameraPermissions\": 0,\n",
    "    \"bookmarks\": 0,\n", "    \"webhookEndpoints\": 1,\n", "    \"notificationConfigs\": 0\n",
    "  \x7d,\n",
    "  \"configSha256\": \"4e2244fb6ea9c024ae0d60fbecee7e25ce530c1d98b67578cbeffc5229cf7ea9\"\n",
    "\x7d"].flatMap String.toList

/-- The tar file of the two texts at 1709232310 s, compressed. -/
def webhookArchive : Bytes :=
  [31, 139, 8, 0, 0, 0, 0, 0, 0, 3, 237, 84, 77, 139, 219, 48, 16, 205, 57, 191, 194, 248, 88, 242,
    49, 210, 250, 35, 201, 109, 89, 74, 175, 133, 45, 61, 108, 200, 65, 150, 199, 107, 109, 108, 41,
    72, 114, 246, 80, 242, 223, 139, 44, 103, 227, 108, 93, 8, 11, 89, 74, 201, 92, 228, 121, 51,
    158, 121, 150, 121, 175, 102, 82, 20, 104, 236, 236, 197, 40, 57, 186, 78, 0, 0, 36, 81, 212,
    158, 0, 240, 254, 132, 148, 196, 35, 18, 197, 41, 144, 24, 104, 146, 140, 128, 64, 76, 146, 81,
    0, 87, 226, 115, 22, 141, 177, 76, 143, 224, 83, 118, 253, 131, 241, 107, 28, 4, 225, 30, 181,
    17, 74, 134, 171, 32, 36, 51, 8, 39, 14, 51, 188, 196, 154, 253, 60, 85, 246, 181, 153, 102, 76,
    227, 116, 79, 124, 7, 215, 200, 44, 230, 247, 214, 85, 41, 208, 104, 10, 116, 74, 151, 63, 200,
    98, 21, 197, 43, 2, 51, 0, 120, 242, 173, 165, 50, 86, 178, 26, 187, 57, 30, 172, 85, 142, 213,
    131, 106, 164, 53, 225, 42, 112, 68, 220, 90, 97, 209, 165, 48, 57, 229, 223, 81, 215, 194, 56,
    30, 253, 74, 99, 80, 247, 115, 206, 106, 212, 172, 143, 212, 202, 10, 37, 159, 148, 60, 155,
    168, 145, 43, 157, 11, 249, 252, 200, 75, 204, 155, 10, 255, 28, 50, 188, 48, 83, 106, 91, 51,
    189, 237, 99, 175, 152, 149, 74, 109, 191, 202, 124, 167, 132, 255, 16, 210, 149, 164, 178, 162,
    16, 156, 57, 14, 15, 74, 22, 226, 185, 125, 113, 28, 4, 7, 127, 125, 45, 246, 88, 50, 26, 39,
    238, 94, 34, 164, 52, 138, 138, 44, 65, 182, 228, 64, 35, 134, 144, 39, 80, 100, 200, 17, 83,
    164, 49, 199, 248, 14, 56, 201, 151, 139, 44, 73, 227, 116, 193, 51, 44, 10, 30, 83, 186, 228,
    69, 138, 108, 25, 142, 15, 31, 248, 255, 158, 197, 53, 213, 127, 129, 254, 147, 232, 189, 254,
    73, 66, 110, 250, 255, 140, 104, 245, 127, 20, 221, 122, 51, 25, 15, 106, 174, 43, 28, 37, 215,
    165, 39, 197, 117, 192, 185, 224, 58, 112, 80, 111, 103, 19, 6, 119, 245, 213, 214, 65, 3, 98,
    91, 183, 90, 243, 222, 17, 4, 161, 200, 157, 146, 94, 189, 65, 121, 21, 118, 174, 243, 141, 89,
    60, 161, 141, 174, 28, 88, 90, 187, 51, 171, 249, 220, 77, 53, 179, 74, 113, 86, 205, 143, 246,
    228, 221, 7, 185, 198, 214, 223, 204, 93, 251, 244, 86, 193, 61, 246, 25, 180, 216, 151, 176,
    123, 222, 156, 218, 36, 203, 42, 116, 172, 172, 110, 240, 13, 190, 220, 58, 61, 221, 93, 126,
    65, 123, 219, 125, 24, 119, 235, 255, 226, 63, 235, 205, 135, 108, 226, 22, 183, 184, 197, 127,
    24, 191, 1, 1, 121, 107, 54, 0, 12, 0, 0]

def webhookDigest : Text :=
  "4e2244fb6ea9c024ae0d60fbecee7e25ce530c1d98b67578cbeffc5229cf7ea9".toList

/-- The manifest of the texts above. -/
def webhookManifest : Json :=
  .object
    [("version".toList, .string "1.0".toList),
      ("schemaVersion".toList, .string "vms-bare-v1".toList),
      ("createdAt".toList, .string "2024-02-29T18:45:10.000Z".toList),
      ("hostname".toList, .string "vms".toList),
      ("modelCounts".toList, .object
        [("sites".toList, .number 0), ("sitePermissions".toList, .number 0),
          ("users".toList, .number 0), ("cameras".toList, .number 0),
          ("motionZones".toList, .number 0), ("recordingSchedules".toList, .number 0),
          ("cameraPermissions".toList, .number 0), ("bookmarks".toList, .number 0),
          ("webhookEndpoints".toList, .number 1), ("notificationConfigs".toList, .number 0)]),
      ("configSha256".toList, .string webhookDigest)]

/-- A platform as far as the texts above were recorded of one. -/
def recordedPlatform : Platform where
  toPlatform := Archive.recordedPlatform
    (Archive.buildTar 1709232310
      [{ name := "manifest.json".toList, content := utf8 webhookManifestText },
        { name := "config.json".toList, content := utf8 webhookConfigText }]) webhookArchive
  sha256 bytes := if bytes = utf8 webhookConfigText then webhookDigest else []
  stringify value :=
    if (value.property "schemaVersion".toList).isSome then webhookManifestText
    else webhookConfigText
  parse text :=
    if text = webhookConfigText then some webhookConfig
    else if text = webhookManifestText then some webhookManifest else none
  toISOString _ := "2024-02-29T18:45:10.000Z".toList
  dateOf _ := some 1709232310000
  toText _ := none
  hostname := "vms".toList

/-- A client that takes values of the types of the columns. -/
def typedPrisma : Prisma where
  store _ column argument :=
    let isJson := ["coordinates".toList, "events".toList, "recipientPhones".toList].contains column
    match argument with
    | .date (some time) =>
      if ["createdAt".toList, "updatedAt".toList, "timestamp".toList].contains column then
        some (.date time)
      else none
    | .date none => none
    | .json .null => if isJson then none else some .null
    | .json (.string value) => some (if isJson then .json (.string value) else .text value)
    | .json (.bool value) => some (if isJson then .json (.bool value) else .bool value)
    | .json (.number value) => some (if isJson then .json (.number value) else .number value)
    | .json value => if isJson then some (.json value) else none
  default _ _ := none
  admits _ _ := true
  refused := "Invalid invocation".toList
  violated := "Unique constraint failed".toList

theorem config_webhookDatabase : config recordedPlatform webhookDatabase = webhookConfig := rfl

theorem forall_endpointDatabase {row : Row} {property : Model → Row → Prop}
    (hrow : property .webhookEndpoint row) :
    ∀ model, ∀ other ∈ endpointDatabase row model, property model other := by
  intro model other hmem
  cases model with
  | webhookEndpoint =>
    obtain rfl := List.mem_singleton.mp hmem
    exact hrow
  | _ => cases hmem

theorem holds_endpointDatabase {row : Row}
    (hcolumns : row.map Prod.fst = Model.webhookEndpoint.columns)
    (hid : ∃ id, row.text "id".toList = some id) : typedPrisma.Holds (endpointDatabase row) where
  keys :=
    { unique := fun model ↦ by
        cases model with
        | webhookEndpoint => exact List.pairwise_singleton _ _
        | _ => exact List.Pairwise.nil
      resolved := forall_endpointDatabase nofun }
  columns := forall_endpointDatabase hcolumns
  required := forall_endpointDatabase (List.forall_mem_singleton.mpr hid)
  admitted := forall_endpointDatabase rfl

theorem holds_webhookDatabase : typedPrisma.Holds webhookDatabase :=
  holds_endpointDatabase rfl ⟨_, rfl⟩

theorem length_webhookConfigText : (utf8 webhookConfigText).length = 500 := by decide +kernel

theorem length_webhookManifestText : (utf8 webhookManifestText).length = 461 := by decide +kernel

theorem configBuffer_webhookDatabase :
    configBuffer recordedPlatform webhookDatabase = utf8 webhookConfigText := rfl

theorem manifest_webhookDatabase :
    manifest recordedPlatform 1709232310000 webhookDatabase = webhookManifest := by
  unfold manifest
  rw [configBuffer_webhookDatabase, show recordedPlatform.sha256 (utf8 webhookConfigText) =
    webhookDigest from if_pos rfl]
  rfl

theorem manifestBuffer_webhookDatabase :
    manifestBuffer recordedPlatform 1709232310000 webhookDatabase = utf8 webhookManifestText := by
  unfold manifestBuffer
  rw [manifest_webhookDatabase]
  rfl

theorem webhookManifestText_ne : webhookManifestText ≠ webhookConfigText := by decide +kernel

theorem handles_webhookDatabase : recordedPlatform.Handles 1709232310000 webhookDatabase where
  gunzip := Archive.gunzip_recordedPlatform (by decide)
  decodes := Archive.decodesUtf8_recordedPlatform _ _
  parseConfig := by
    rw [config_webhookDatabase]
    exact if_pos rfl
  parseManifest := by
    rw [manifest_webhookDatabase]
    exact (if_neg webhookManifestText_ne).trans (if_pos rfl)
  stringify_ne_nil value := by
    have hconfig : webhookConfigText ≠ [] := by decide +kernel
    have hmanifest : webhookManifestText ≠ [] := by decide +kernel
    unfold recordedPlatform
    dsimp only
    split_ifs
    · exact hmanifest
    · exact hconfig
  config_length := by
    rw [configBuffer_webhookDatabase, length_webhookConfigText]
    decide
  manifest_length := by
    rw [manifestBuffer_webhookDatabase, length_webhookManifestText]
    decide

theorem documented_webhookDatabase :
    Documented typedPrisma recordedPlatform webhookDatabase where
  takesBack := forall_endpointDatabase (by
    unfold webhookRow
    simp only [List.forall_mem_cons]
    exact ⟨fun _ ↦ rfl, fun _ ↦ rfl, fun _ ↦ rfl, fun _ ↦ rfl, fun _ ↦ rfl, fun _ ↦ rfl,
      fun _ ↦ rfl, fun _ ↦ rfl, nofun⟩)
  date_ne_text model column time value := by
    cases time with
    | none => exact nofun
    | some time =>
      unfold typedPrisma
      dsimp only
      split_ifs <;> nofun
  null_ne_json model column := by
    unfold typedPrisma
    dsimp only
    split_ifs <;> nofun
  dateOf_iso := forall_endpointDatabase fun column time hentry ↦ by
    obtain rfl : time = 1709232310000 := by
      simp only [webhookRow, List.mem_cons, Prod.mk.injEq, Cell.date.injEq, reduceCtorEq, and_false,
        false_or, List.not_mem_nil, or_false] at hentry
      exact hentry.elim And.right And.right
    rfl

theorem restoresBackup_webhook :
    ∃ summary, restoreBackup typedPrisma.client recordedPlatform .overwrite
      (createBackup recordedPlatform 1709232310000 1709232310 webhookDatabase) (fun _ ↦ []) =
        (.ok summary, webhookDatabase) := by
  refine (restoresBackup_iff holds_webhookDatabase handles_webhookDatabase
    documented_webhookDatabase).mpr (forall_endpointDatabase ?_)
  unfold webhookRow
  simp only [List.forall_mem_cons]
  exact ⟨rfl, rfl, rfl, rfl, trivial, trivial, Or.inl rfl, Or.inl rfl, nofun⟩

end VmsLite.Backups.Service
