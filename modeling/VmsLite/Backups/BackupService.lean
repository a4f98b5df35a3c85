import VmsLite.Backups.Restore
import VmsLite.Backups.Tar
import VmsLite.Data.Json

/-!
# The backup service

`createBackup` writes the rows of ten models into an archive, and `restoreBackup` writes the rows of
an archive back, in one transaction. What a record call does to the tables is a parameter (`Client`):
it may fail on its own, or abort the transaction, and then every later call of it fails. The errors
of single records are collected, and become an exception only after the transaction is over.

A transaction commits when its callback returns and is rolled back when it throws; the commit of an
aborted one is a rollback. The branch for an unknown model is left out: no model is.
-/

set_option autoImplicit false

namespace VmsLite.Backups.Service

open Data

abbrev Text := List Char

inductive Model
  | site | user | camera | motionZone | recordingSchedule | cameraPermission | sitePermission
  | bookmark | webhookEndpoint | notificationConfig
  deriving DecidableEq, Repr

/-- The order in which a restore writes the models. -/
def restoreOrder : List Model :=
  [.site, .user, .camera, .motionZone, .recordingSchedule, .cameraPermission, .sitePermission,
    .bookmark, .webhookEndpoint, .notificationConfig]

/-- The order of the models in `config.json`. -/
def configOrder : List Model :=
  [.site, .sitePermission, .user, .camera, .motionZone, .recordingSchedule, .cameraPermission,
    .bookmark, .webhookEndpoint, .notificationConfig]

/-- The property of `config.json`. -/
def Model.configKey : Model → Text
  | .site => "sites".toList
  | .user => "users".toList
  | .camera => "cameras".toList
  | .motionZone => "motionZones".toList
  | .recordingSchedule => "recordingSchedules".toList
  | .cameraPermission => "cameraPermissions".toList
  | .sitePermission => "sitePermissions".toList
  | .bookmark => "bookmarks".toList
  | .webhookEndpoint => "webhookEndpoints".toList
  | .notificationConfig => "notificationConfigs".toList

/-- What stands before the message of an error, and the property behind it. -/
def Model.errorLabel : Model → Text × Text
  | .site => ("site ".toList, "id".toList)
  | .user => ("User ".toList, "username".toList)
  | .camera => ("Camera ".toList, "name".toList)
  | .motionZone => ("motionZone ".toList, "id".toList)
  | .recordingSchedule => ("recordingSchedule ".toList, "id".toList)
  | .cameraPermission => ("cameraPermission ".toList, "id".toList)
  | .sitePermission => ("sitePermission ".toList, "id".toList)
  | .bookmark => ("bookmark ".toList, "id".toList)
  | .webhookEndpoint => ("webhookEndpoint ".toList, "id".toList)
  | .notificationConfig => ("notificationConfig ".toList, "id".toList)

structure Platform extends Archive.Platform where
  /-- The digest in hexadecimal digits. -/
  sha256 : Bytes → Text
  /-- `JSON.stringify(value, null, 2)`. -/
  stringify : Json → Text
  parse : Text → Option Json
  toISOString : ℤ → Text
  /-- `new Date(text)`; none is an invalid date. -/
  dateOf : Text → Option ℤ
  /-- A value in a template; of some objects it throws. -/
  toText : Option Json → Option Text
  hostname : Text

/-! ### Records -/

/-- What is handed to a column. -/
inductive Argument
  | json (value : Json)
  | date (time : Option ℤ)

abbrev Record := List (Text × Argument)

/-- `/^\d{4}-\d{2}-\d{2}T/`. -/
def looksLikeDate : Text → Bool
  | y₁ :: y₂ :: y₃ :: y₄ :: '-' :: m₁ :: m₂ :: '-' :: d₁ :: d₂ :: 'T' :: _ =>
    [y₁, y₂, y₃, y₄, m₁, m₂, d₁, d₂].all Char.isDigit
  | _ => false

/-- The properties of a record. The keys of anything but an object are positions, which no model
has for a column; they are left out. -/
def spread : Json → Record
  | .object entries => entries.map fun entry ↦ (entry.1, .json entry.2)
  | _ => []

def without (keys : List Text) (record : Record) : Record :=
  record.filter fun entry ↦ !keys.contains entry.1

namespace Platform

variable (platform : Platform)

def sanitizeArgument : Argument → Argument
  | .json (.string text) =>
    if looksLikeDate text then .date (platform.dateOf text) else .json (.string text)
  | argument => argument

def sanitizeRecord (record : Record) : Record :=
  record.map fun entry ↦ (entry.1, platform.sanitizeArgument entry.2)

def sanitizeRecordForUpdate (record : Record) : Record :=
  without ["id".toList] (platform.sanitizeRecord record)

def sanitizeCameraRecord (record : Record) : Record :=
  without ["recordings".toList, "schedules".toList, "cameraPermissions".toList,
    "bookmarks".toList, "exportJobs".toList, "motionZones".toList, "site".toList]
      (platform.sanitizeRecord record)

def sanitizeCameraRecordForUpdate (record : Record) : Record :=
  without ["id".toList] (platform.sanitizeCameraRecord record)

/-- `clean` in `restoreModelArray`. -/
def cleanRecord (record : Record) : Record :=
  without ["camera".toList, "user".toList, "recordings".toList, "schedules".toList,
    "cameraPermissions".toList, "bookmarks".toList, "exportJobs".toList, "motionZones".toList,
    "cameras".toList] (platform.sanitizeRecord record)

end Platform

/-! ### Record calls -/

structure Failure where
  message : Text
  /-- Whether the transaction is over, as it is when the database refused a statement. -/
  aborts : Bool

/-- The calls of a transaction; a value of a filter may be missing. -/
structure Client (Tables : Type) where
  /-- Whether some row has one of the values. -/
  findFirst : Model → List (Text × Option Json) → Tables → Except Failure Bool
  findUnique : Model → Option Json → Tables → Except Failure Bool
  create : Model → Record → Tables → Except Failure Tables
  upsert : Model → Option Json → Record → Record → Tables → Except Failure Tables

section Restore

variable {Tables : Type} (client : Client Tables) (platform : Platform)

/-- What a call of `create` and of `upsert` is given. -/
def createData (model : Model) (record : Json) : Record :=
  match model with
  | .user => platform.sanitizeRecord (spread record)
  | .camera => platform.sanitizeCameraRecord (spread record)
  | _ => platform.cleanRecord (spread record)

def updateData (model : Model) (record : Json) : Record :=
  match model with
  | .user => platform.sanitizeRecordForUpdate (spread record)
  | .camera => platform.sanitizeCameraRecordForUpdate (spread record)
  | _ => platform.sanitizeRecordForUpdate (platform.cleanRecord (spread record))

/-- Whether a record is skipped unless it is to overwrite. -/
def isExisting (model : Model) (record : Json) (tables : Tables) : Except Failure Bool :=
  let value (name : Text) := (name, record.property name)
  match model with
  | .user => client.findFirst .user [value "id".toList, value "username".toList] tables
  | .camera => client.findFirst .camera [value "id".toList, value "mediaMtxPath".toList] tables
  | _ => client.findUnique model (record.property "id".toList) tables

/-- What is tried with a record; none is a record that is skipped. Of `null` nothing can be read. -/
def attempt (mode : RestoreMode) (model : Model) (record : Json) (tables : Tables) :
    Except Failure (Option Tables) :=
  match record, mode with
  | .null, _ => .error ⟨"Cannot read properties of null (reading 'id')".toList, false⟩
  | _, .overwrite => do
    let after ← client.upsert model (record.property "id".toList)
      (createData platform model record) (updateData platform model record) tables
    return some after
  | _, .skipExisting => do
    if ← isExisting client model record tables then return none
    let after ← client.create model (createData platform model record) tables
    return some after

/-- The line of an error. Nothing can be read of `null`, here outside of the `try`. -/
def errorLine (model : Model) (record : Json) (failure : Failure) : Option Text :=
  match record with
  | .null => none
  | _ => do
    let name ← platform.toText (record.property model.errorLabel.2)
    return model.errorLabel.1 ++ name ++ ": ".toList ++ failure.message

structure RestoreSummary where
  restored : Model → ℕ
  skipped : Model → ℕ
  errors : List Text

/-- A restore under way: the tables as its transaction sees them. -/
structure Progress (Tables : Type) where
  tables : Tables
  aborted : Bool
  summary : RestoreSummary

def abortedFailure : Failure where
  message := "current transaction is aborted, commands ignored until end of transaction block".toList
  aborts := true

/-- One round of a loop; none if it throws. -/
def restoreRecord (mode : RestoreMode) (model : Model) (progress : Progress Tables)
    (record : Json) : Option (Progress Tables) :=
  let outcome : Except Failure (Option Tables) :=
    if progress.aborted then .error abortedFailure
    else attempt client platform mode model record progress.tables
  match outcome with
  | .ok (some tables) => some
    { progress with
      tables
      summary.restored :=
        Function.update progress.summary.restored model (progress.summary.restored model + 1) }
  | .ok none => some
    { progress with
      summary.skipped :=
        Function.update progress.summary.skipped model (progress.summary.skipped model + 1) }
  | .error failure => do
    let line ← errorLine platform model record failure
    return { progress with
      aborted := progress.aborted || failure.aborts
      summary.errors := progress.summary.errors ++ [line] }

/-- The records of a model; none where there is nothing to iterate over. -/
def recordsOf (config : Json) (model : Model) : Option (List Json) :=
  let missing := if model = .site ∨ model = .sitePermission then some [] else none
  match config with
  | .null => none
  | _ =>
    match config.property model.configKey with
    | none => missing
    | some .null => missing
    | some (.array records) => some records
    | some (.string text) => some (text.map fun char ↦ .string [char])
    | some _ => none

/-- The config that holds some records of each model. -/
def configOf (records : Model → List Json) : Json :=
  .object (configOrder.map fun model ↦ (model.configKey, .array (records model)))

theorem recordsOf_configOf (records : Model → List Json) (model : Model) :
    recordsOf (configOf records) model = some (records model) := by
  cases model <;> rfl

def restoreModel (mode : RestoreMode) (config : Json) (progress : Progress Tables)
    (model : Model) : Option (Progress Tables) := do
  let records ← recordsOf config model
  records.foldlM (restoreRecord client platform mode model) progress

/-- The callback of the transaction; none if it throws. -/
def restoreModels (mode : RestoreMode) (config : Json) (tables : Tables) :
    Option (Progress Tables) :=
  restoreOrder.foldlM (restoreModel client platform mode config)
    { tables, aborted := false, summary := ⟨fun _ ↦ 0, fun _ ↦ 0, []⟩ }

inductive RestoreError
  | extract (failure : Archive.ExtractError)
  | noManifest
  /-- A text is no JSON, or no property can be read of its value. -/
  | unreadable
  | incompatible (schemaVersion : Option Json)
  | noConfig
  | mismatch (expected : Option Json) (actual : Text)
  /-- The callback threw. -/
  | callback
  | withErrors (errors : List Text)

/-- The messages of the errors that `restoreBackup` throws itself. -/
def RestoreError.message : RestoreError → Option Text
  | .extract failure => some failure.message.toList
  | .noManifest => some "Invalid backup archive: manifest.json not found".toList
  | .unreadable => none
  | .incompatible schemaVersion => do
    return "Incompatible backup schema version: expected \"vms-bare-v1\", got \"".toList ++
      (← platform.toText schemaVersion) ++ "\"".toList
  | .noConfig => some "Invalid backup archive: config.json not found".toList
  | .mismatch expected actual => do
    return "Backup integrity check failed: SHA-256 mismatch (expected ".toList ++
      (← platform.toText expected) ++ ", got ".toList ++ actual ++ ")".toList
  | .callback => none
  | .withErrors errors =>
    some ("Restore completed with errors: ".toList ++ "; ".toList.intercalate errors)

/-- `===` with a text. -/
def isText (text : Text) : Option Json → Bool
  | some (.string value) => value = text
  | _ => false

def checkConfig (files : Archive.Files) (manifest : Json) : Except RestoreError Json :=
  let schemaVersion := manifest.property "schemaVersion".toList
  if isText "vms-bare-v1".toList schemaVersion then
    match files.lookup "config.json".toList with
    | none => .error .noConfig
    | some configBuf =>
      let actualSha256 := platform.sha256 configBuf
      let expected := manifest.property "configSha256".toList
      if isText actualSha256 expected then
        (platform.parse (platform.decode configBuf)).elim (.error .unreadable) .ok
      else .error (.mismatch expected actualSha256)
  else .error (.incompatible schemaVersion)

/-- The checks of an archive, up to the transaction. -/
def readConfig (archive : Bytes) : Except RestoreError Json :=
  match platform.extractTarGz archive with
  | .error failure => .error (.extract failure)
  | .ok files =>
    match files.lookup "manifest.json".toList with
    | none => .error .noManifest
    | some manifestBuf =>
      match platform.parse (platform.decode manifestBuf) with
      | none => .error .unreadable
      | some .null => .error .unreadable
      | some manifest => checkConfig platform files manifest

/-- What `restoreBackup` returns or throws, and the tables after it. -/
def restoreBackup (mode : RestoreMode) (archive : Bytes) (tables : Tables) :
    Except RestoreError RestoreSummary × Tables :=
  match readConfig platform archive with
  | .error failure => (.error failure, tables)
  | .ok config =>
    match restoreModels client platform mode config tables with
    | none => (.error .callback, tables)
    | some progress =>
      let committed := if progress.aborted then tables else progress.tables
      if 0 < progress.summary.errors.length then
        (.error (.withErrors progress.summary.errors), committed)
      else (.ok progress.summary, committed)

end Restore

end VmsLite.Backups.Service
