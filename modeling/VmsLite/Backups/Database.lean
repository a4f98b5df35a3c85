import VmsLite.Backups.BackupService
import VmsLite.Data.Tables

/-!
# The database of a backup

The ten tables with their keys and references, as the schema of the database gives them, and the
client of a transaction. How a value is checked and converted for a column, and which values the
database stores, is a parameter (`Prisma`); a value that is refused by the client fails on its own,
a statement that is refused by the database aborts the transaction. A record with a key that is no
column is refused (nested writes of relations are left out).
-/

set_option autoImplicit false

namespace VmsLite.Backups.Service

open Data

/-- A value as it is read of a column. -/
inductive Cell
  | null
  | text (value : Text)
  | number (value : ℚ)
  | bool (value : Bool)
  | date (time : ℤ)
  | json (value : Json)

/-- The cells of a row under the names of their columns. -/
abbrev Row := List (Text × Cell)

namespace Model

/-- The columns of the models, in the order of the schema. -/
def columns (model : Model) : List Text :=
  match model with
  | .site => ["id", "name", "address", "timezone", "notes", "uplinkMbps", "createdAt",
      "updatedAt"].map String.toList
  | .sitePermission => ["id", "userId", "siteId", "canViewLive", "canViewPlayback", "canControlPtz",
      "canExportClips", "createdAt", "updatedAt"].map String.toList
  | .user => ["id", "username", "passwordHash", "role", "tokenVersion", "createdAt",
      "updatedAt"].map String.toList
  | .camera => ["id", "name", "siteId", "ip", "port", "username", "password", "rtspUrl",
      "subRtspUrl", "subStreamUrl", "onvifUrl", "profileToken", "manufacturer", "model",
      "serialNumber", "status", "recordingMode", "mediaMtxPath", "subMediaMtxPath", "createdAt",
      "updatedAt"].map String.toList
  | .motionZone => ["id", "cameraId", "name", "zoneType", "enabled", "coordinates", "color",
      "createdAt", "updatedAt"].map String.toList
  | .recordingSchedule => ["id", "cameraId", "dayOfWeek", "startHour", "startMin", "endHour",
      "endMin", "createdAt", "updatedAt"].map String.toList
  | .cameraPermission => ["id", "userId", "cameraId", "canViewLive", "canViewPlayback",
      "canControlPtz", "canExportClips", "createdAt", "updatedAt"].map String.toList
  | .bookmark => ["id", "cameraId", "userId", "timestamp", "title", "description", "category",
      "createdAt", "updatedAt"].map String.toList
  | .webhookEndpoint => ["id", "name", "url", "secret", "events", "enabled", "createdAt",
      "updatedAt"].map String.toList
  | .notificationConfig => ["id", "provider", "credentialsJson", "sender", "recipientPhones",
      "cooldownSeconds", "events", "enabled", "createdAt", "updatedAt"].map String.toList

/-- The unique keys beside the id. -/
def uniqueColumns : Model → List (List Text)
  | .site => [["name".toList]]
  | .user => [["username".toList]]
  | .camera => [["mediaMtxPath".toList], ["subMediaMtxPath".toList]]
  | .cameraPermission => [["userId".toList, "cameraId".toList]]
  | .sitePermission => [["userId".toList, "siteId".toList]]
  | _ => []

/-- The columns that hold ids of rows of other tables. -/
def foreignKeys : Model → List (Text × Model)
  | .camera => [("siteId".toList, .site)]
  | .motionZone => [("cameraId".toList, .camera)]
  | .recordingSchedule => [("cameraId".toList, .camera)]
  | .cameraPermission => [("userId".toList, .user), ("cameraId".toList, .camera)]
  | .sitePermission => [("userId".toList, .user), ("siteId".toList, .site)]
  | .bookmark => [("cameraId".toList, .camera), ("userId".toList, .user)]
  | _ => []

/-- The columns by which a restore finds that a row is there already. -/
def lookupColumns : Model → List Text
  | .user => ["id".toList, "username".toList]
  | .camera => ["id".toList, "mediaMtxPath".toList]
  | _ => ["id".toList]

end Model

/-- A text in a column. -/
def Row.text (column : Text) (row : Row) : Option Text :=
  match row.lookup column with
  | some (.text text) => some text
  | _ => none

def Row.id (row : Row) : Text := (row.text "id".toList).getD []

/-- The keys and references of the database. -/
def schema : Schema Model Row Text where
  id := Row.id
  uniqueKeys model := model.uniqueColumns.map fun columns row ↦ columns.mapM (Row.text · row)
  references model := model.foreignKeys.map fun key ↦ (Row.text key.1, key.2)

abbrev Database := Tables Model Row

/-! ### The client -/

structure Prisma where
  /-- What a column makes of a value; none is a value that the client refuses. -/
  store : Model → Text → Argument → Option Cell
  /-- What a column without a value gets; none where a value is required. -/
  default : Model → Text → Option Cell
  /-- The rows whose values the database stores. -/
  admits : Model → Row → Bool
  refused : Text
  violated : Text

namespace Prisma

variable (prisma : Prisma)

def refusal : Failure where
  message := prisma.refused
  aborts := false

def violation : Failure where
  message := prisma.violated
  aborts := true

/-- The cell of a column: the value that is given, else that of the row before, else the default. -/
def cellOf (model : Model) (record : Record) (before : Option Row) (column : Text) : Option Cell :=
  match record.lookup column, before with
  | some argument, _ => prisma.store model column argument
  | none, some row => row.lookup column
  | none, none => prisma.default model column

/-- The row that a record makes, in the place of one or as a new one. -/
def rowOf (model : Model) (record : Record) (before : Option Row) : Option Row :=
  if record.all fun entry ↦ model.columns.contains entry.1 then
    model.columns.mapM fun column ↦
      (prisma.cellOf model record before column).map fun cell ↦ (column, cell)
  else none

/-- The rows that match one value of a filter; a missing value matches all. -/
def matching (filter : Text × Option Json) : Except Failure (Row → Bool) :=
  match filter.2 with
  | none => .ok fun _ ↦ true
  | some (.string text) => .ok fun row ↦ row.text filter.1 = some text
  | some _ => .error prisma.refusal

def findFirst (model : Model) (filters : List (Text × Option Json)) (database : Database) :
    Except Failure Bool := do
  let alternatives ← filters.mapM prisma.matching
  return (database model).any fun row ↦ alternatives.any fun isMatch ↦ isMatch row

def findUnique (model : Model) (id : Option Json) (database : Database) : Except Failure Bool :=
  match id with
  | some (.string id) => .ok ((database model).any fun row ↦ row.id = id)
  | _ => .error prisma.refusal

def create (model : Model) (data : Record) (database : Database) : Except Failure Database :=
  match prisma.rowOf model data none with
  | none => .error prisma.refusal
  | some row =>
    if prisma.admits model row then
      (schema.insert database model row).elim (.error prisma.violation) .ok
    else .error prisma.violation

/-- Both parts of an `upsert` are checked, whichever is needed. -/
def upsert (model : Model) (id : Option Json) (create update : Record) (database : Database) :
    Except Failure Database :=
  match id with
  | some (.string id) =>
    match (database model).find? fun row ↦ row.id = id with
    | none =>
      if (prisma.rowOf model update (some (model.columns.map (·, .null)))).isSome then
        prisma.create model create database
      else .error prisma.refusal
    | some before =>
      match prisma.rowOf model create none, prisma.rowOf model update (some before) with
      | some _, some row =>
        if prisma.admits model row then
          (schema.replace database model row).elim (.error prisma.violation) .ok
        else .error prisma.violation
      | _, _ => .error prisma.refusal
  | _ => .error prisma.refusal

def client : Client Database where
  findFirst := prisma.findFirst
  findUnique := prisma.findUnique
  create := prisma.create
  upsert := prisma.upsert

end Prisma

/-! ### Backups -/

section Create

variable (platform : Platform)

/-- What `JSON.stringify` makes of a cell. -/
def Cell.toJson : Cell → Json
  | .null => .null
  | .text value => .string value
  | .number value => .number value
  | .bool value => .bool value
  | .date time => .string (platform.toISOString time)
  | .json value => value

def rowJson (row : Row) : Json :=
  .object (row.map fun entry ↦ (entry.1, entry.2.toJson platform))

def config (database : Database) : Json :=
  configOf fun model ↦ (database model).map (rowJson platform)

def configBuffer (database : Database) : Bytes :=
  utf8 (platform.stringify (config platform database))

def manifest (createdAt : ℤ) (database : Database) : Json :=
  .object
    [("version".toList, .string "1.0".toList),
      ("schemaVersion".toList, .string "vms-bare-v1".toList),
      ("createdAt".toList, .string (platform.toISOString createdAt)),
      ("hostname".toList, .string platform.hostname),
      ("modelCounts".toList,
        .object (configOrder.map fun model ↦ (model.configKey, .number (database model).length))),
      ("configSha256".toList, .string (platform.sha256 (configBuffer platform database)))]

def manifestBuffer (createdAt : ℤ) (database : Database) : Bytes :=
  utf8 (platform.stringify (manifest platform createdAt database))

/-- The archive of a database; the time of the entries is in seconds. -/
def createBackup (createdAt : ℤ) (seconds : ℕ) (database : Database) : Bytes :=
  platform.buildTarGz seconds
    [{ name := "manifest.json".toList, content := manifestBuffer platform createdAt database },
      { name := "config.json".toList, content := configBuffer platform database }]

end Create

end VmsLite.Backups.Service
