import Mathlib.Algebra.Order.Ring.Rat
import Mathlib.Data.List.Sort
import VmsLite.Async.RelyGuarantee
import VmsLite.Media.RtspUrl

/-!
# Motion zones

`MotionZoneService` keeps the zones of the cameras in the database, a second copy of those that it
wrote in memory, and for each camera the zones that `SpatialMotionFilter` evaluates motion events
with. The motion filter reads its cache only; a zone operation refreshes the cache when its write
has been tried.

An operation that reads the zones of a camera goes through two awaits: the database answers at one
instant (`findMany`), and at a later one the answer reaches the code that awaits it (`deliver`).
Between the two, other operations go on. A request has passed the schema of its route, so that a
zone type is one of two and a vertex is two numbers.
-/

set_option autoImplicit false

namespace VmsLite.Zones

open VmsLite.Async Program

abbrev CameraId := String

abbrev ZoneId := String

abbrev Text := List Char

structure Point where
  x : ℚ
  y : ℚ
  deriving DecidableEq, Repr

inductive ZoneType
  | inclusion | exclusion
  deriving DecidableEq, Repr

structure MotionZoneDto where
  id : ZoneId
  cameraId : CameraId
  name : Text
  zoneType : ZoneType
  enabled : Bool
  coordinates : List Point
  color : Option String
  createdAt : ℕ
  updatedAt : ℕ
  deriving DecidableEq, Repr

structure CreateMotionZoneRequest where
  name : Text
  zoneType : ZoneType
  coordinates : List Point
  enabled : Option Bool
  color : Option String
  deriving DecidableEq, Repr

structure UpdateMotionZoneRequest where
  name : Option Text
  zoneType : Option ZoneType
  coordinates : Option (List Point)
  enabled : Option Bool
  color : Option String
  deriving DecidableEq, Repr

inductive ZoneError
  | nameRequired
  | tooFewVertices (received : ℕ)
  | tooManyVertices (received : ℕ)
  | outsideBounds (index : ℕ) (vertex : Point)
  | notFound (id : ZoneId)
  | database
  deriving DecidableEq, Repr

/-- The JSON of a column of coordinates: an array, or a text, with what it parses to, or other
JSON. -/
inductive StoredCoordinates
  | array (points : List Point)
  | text (parsed : Option (List Point))
  | other
  deriving DecidableEq, Repr

structure MotionZoneRow where
  id : ZoneId
  cameraId : CameraId
  name : Text
  zoneType : ZoneType
  enabled : Bool
  coordinates : StoredCoordinates
  color : Option String
  createdAt : ℕ
  updatedAt : ℕ
  deriving DecidableEq, Repr

/-- A record of the database as the service hands it out. -/
def mapPrismaZone (record : MotionZoneRow) : MotionZoneDto where
  id := record.id
  cameraId := record.cameraId
  name := record.name
  zoneType := record.zoneType
  enabled := record.enabled
  coordinates :=
    match record.coordinates with
    | .array points => points
    | .text parsed => parsed.getD []
    | .other => []
  color := record.color
  createdAt := record.createdAt
  updatedAt := record.updatedAt

/-- What a request sets of a zone. -/
structure ZoneData where
  name : Text
  zoneType : ZoneType
  enabled : Bool
  coordinates : List Point
  color : Option String
  deriving DecidableEq, Repr

inductive ZoneWrite
  | create (id : ZoneId) (cameraId : CameraId) (data : ZoneData)
  | update (id : ZoneId) (data : ZoneData)
  | delete (id : ZoneId)
  deriving DecidableEq, Repr

namespace ZoneWrite

/-- The record that a write returns and the table after it. A create needs a new id, and the other
writes a record to go to. -/
def apply (write : ZoneWrite) (now : ℕ) (rows : List MotionZoneRow) :
    Option (MotionZoneRow × List MotionZoneRow) :=
  match write with
  | .create id cameraId data =>
    if rows.any fun row ↦ row.id = id then none
    else
      let row : MotionZoneRow :=
        { id := id
          cameraId := cameraId
          name := data.name
          zoneType := data.zoneType
          enabled := data.enabled
          coordinates := .array data.coordinates
          color := data.color
          createdAt := now
          updatedAt := now }
      some (row, rows ++ [row])
  | .update id data =>
    (rows.find? fun row ↦ row.id = id).map fun row ↦
      let updated : MotionZoneRow :=
        { row with
          name := data.name
          zoneType := data.zoneType
          enabled := data.enabled
          coordinates := .array data.coordinates
          color := data.color
          updatedAt := now }
      (updated, rows.map fun other ↦ if other.id = id then updated else other)
  | .delete id =>
    (rows.find? fun row ↦ row.id = id).map fun row ↦ (row, rows.filter fun other ↦ other.id ≠ id)

end ZoneWrite

/-! ### The service -/

inductive Call
  | now
  | randomUUID
  /-- The entries of `memoryZones`. -/
  | getMemory (id : ZoneId)
  | setMemory (id : ZoneId) (zone : MotionZoneDto)
  | deleteMemory (id : ZoneId)
  | listMemory (cameraId : CameraId)
  | setCameraZones (cameraId : CameraId) (zones : List MotionZoneDto)
  | findUnique (id : ZoneId)
  | findMany (cameraId : CameraId)
  /-- Zones that were read reach the code that awaits them. -/
  | deliver (cameraId : CameraId) (zones : List MotionZoneDto)
  /-- A write after which the cache of a camera is refreshed. -/
  | write (cameraId : CameraId) (write : ZoneWrite)

def Reply : Call → Type
  | .now => ℕ
  | .randomUUID => ZoneId
  | .getMemory _ => Option MotionZoneDto
  | .listMemory _ => List MotionZoneDto
  | .findUnique _ => Except ZoneError (Option MotionZoneRow)
  | .findMany _ => Except ZoneError (List MotionZoneRow)
  | .write .. => Except ZoneError MotionZoneRow
  | _ => Unit

abbrev Async (α : Type) : Type := Program Call Reply ZoneError α

/-- Await one call. -/
abbrev call (request : Call) : Async (Reply request) := Program.request request

/-- Zones in the order of their creation. -/
def sortByCreatedAt (zones : List MotionZoneDto) : List MotionZoneDto :=
  zones.insertionSort fun first second ↦ first.createdAt ≤ second.createdAt

/-- The first vertex outside the picture. -/
def checkVertices : ℕ → List Point → Except ZoneError Unit
  | _, [] => .ok ()
  | index, vertex :: rest =>
    if vertex.x < 0 ∨ 1 < vertex.x ∨ vertex.y < 0 ∨ 1 < vertex.y then
      .error (.outsideBounds index vertex)
    else checkVertices (index + 1) rest

/-- Checks a polygon; no coordinate is ever clamped. -/
def validateCoordinates (coordinates : List Point) : Except ZoneError Unit :=
  if coordinates.length < 3 then .error (.tooFewVertices coordinates.length)
  else if 32 < coordinates.length then .error (.tooManyVertices coordinates.length)
  else checkVertices 0 coordinates

/-- The zones of a camera as they were read, once they are there. -/
def takeZones (cameraId : CameraId) (zones : List MotionZoneDto) : Async (List MotionZoneDto) := do
  call (.deliver cameraId zones)
  call (.setCameraZones cameraId zones)
  return zones

/-- Lists the zones of a camera, from memory when the database does not answer. -/
def listZones (cameraId : CameraId) : Async (List MotionZoneDto) := do
  match ← call (.findMany cameraId) with
  | .ok results => takeZones cameraId (results.map mapPrismaZone)
  | .error _ =>
    let zones : List MotionZoneDto ← call (.listMemory cameraId)
    call (.setCameraZones cameraId zones)
    return zones

/-- Refreshes the cache of the motion filter for a camera. -/
def refreshCameraCache (cameraId : CameraId) : Async Unit := do
  let zones ← listZones cameraId
  let _ ← takeZones cameraId zones

def getZone (id : ZoneId) : Async (Option MotionZoneDto) := do
  match ← call (.findUnique id) with
  | .ok result => return result.map mapPrismaZone
  | .error _ => call (.getMemory id)

/-- Tries a write and refreshes the cache, whether the write succeeds or not. -/
def persist (cameraId : CameraId) (write : ZoneWrite) (zoneDto : MotionZoneDto) :
    Async MotionZoneDto :=
  (do
    let written ← orThrow (← call (.write cameraId write))
    refreshCameraCache cameraId
    return mapPrismaZone written).catching fun _ ↦ do
      refreshCameraCache cameraId
      return zoneDto

def defaultColor : ZoneType → String
  | .inclusion => "#10b981"
  | .exclusion => "#f43f5e"

/-- The zone that a request asks for. -/
def CreateMotionZoneRequest.zone (req : CreateMotionZoneRequest) (id : ZoneId) (cameraId : CameraId)
    (now : ℕ) : MotionZoneDto where
  id := id
  cameraId := cameraId
  name := Media.trim req.name
  zoneType := req.zoneType
  enabled := req.enabled ≠ some false
  coordinates := req.coordinates
  color := some ((req.color.filter (· ≠ "")).getD (defaultColor req.zoneType))
  createdAt := now
  updatedAt := now

/-- The data of a zone that a write takes over. -/
def MotionZoneDto.data (zone : MotionZoneDto) : ZoneData where
  name := zone.name
  zoneType := zone.zoneType
  enabled := zone.enabled
  coordinates := zone.coordinates
  color := zone.color

def createZone (cameraId : CameraId) (req : CreateMotionZoneRequest) : Async MotionZoneDto := do
  if Media.trim req.name = [] then orThrow (.error .nameRequired)
  orThrow (validateCoordinates req.coordinates)
  let id : ZoneId ← call .randomUUID
  let now : ℕ ← call .now
  let zoneDto := req.zone id cameraId now
  call (.setMemory id zoneDto)
  persist cameraId (.create id cameraId zoneDto.data) zoneDto

/-- A zone with what a request changes of it. -/
def UpdateMotionZoneRequest.zone (req : UpdateMotionZoneRequest)
    (existing : MotionZoneDto) (now : ℕ) :
    MotionZoneDto :=
  { existing with
    name := (req.name.map Media.trim).getD existing.name
    zoneType := req.zoneType.getD existing.zoneType
    enabled := req.enabled.getD existing.enabled
    coordinates := req.coordinates.getD existing.coordinates
    color := req.color.or existing.color
    updatedAt := now }

/-- Changes a zone that was looked up. -/
def updateFound (id : ZoneId) (req : UpdateMotionZoneRequest) :
    Option MotionZoneDto → Async MotionZoneDto
  | none => orThrow (.error (.notFound id))
  | some existing => do
    orThrow ((req.coordinates.map validateCoordinates).getD (.ok ()))
    let now : ℕ ← call .now
    let updatedDto := req.zone existing now
    call (.setMemory id updatedDto)
    persist existing.cameraId (.update id updatedDto.data) updatedDto

def updateZone (id : ZoneId) (req : UpdateMotionZoneRequest) : Async MotionZoneDto := do
  updateFound id req (← getZone id)

/-- Deletes a zone that was looked up. -/
def deleteFound (id : ZoneId) : Option MotionZoneDto → Async Unit
  | none => orThrow (.error (.notFound id))
  | some existing => do
    call (.deleteMemory id)
    (do
      let _ ← orThrow (← call (.write existing.cameraId (.delete id)))).catching fun _ ↦ pure ()
    refreshCameraCache existing.cameraId

def deleteZone (id : ZoneId) : Async Unit := do
  deleteFound id (← getZone id)

/-! ### The machine -/

structure World where
  /-- The table of motion zones. -/
  rows : List MotionZoneRow := []
  memoryZones : List (ZoneId × MotionZoneDto) := []
  /-- The cache of the motion filter. -/
  cameraZonesCache : CameraId → Option (List MotionZoneDto) := fun _ ↦ none
  now : ℕ := 0
  uuid : ZoneId := ""

/-- The zones that motion events of a camera are filtered with. -/
def World.getCameraZones (world : World) (cameraId : CameraId) : List MotionZoneDto :=
  (world.cameraZonesCache cameraId).getD []

/-- The records of a camera, in the order of their creation. -/
def rowsOf (rows : List MotionZoneRow) (cameraId : CameraId) : List MotionZoneRow :=
  (rows.filter fun row ↦ row.cameraId = cameraId).insertionSort fun first second ↦
    first.createdAt ≤ second.createdAt

/-- The zones of a camera that the database stores. -/
def World.storedZones (world : World) (cameraId : CameraId) : List MotionZoneDto :=
  (rowsOf world.rows cameraId).map mapPrismaZone

/-- The zones of a camera in memory. -/
def World.rememberedZones (world : World) (cameraId : CameraId) : List MotionZoneDto :=
  sortByCreatedAt ((world.memoryZones.map Prod.snd).filter fun zone ↦ zone.cameraId = cameraId)

/-- `Map.set`: a key that is there keeps its place. -/
def setMemory (entries : List (ZoneId × MotionZoneDto)) (id : ZoneId) (zone : MotionZoneDto) :
    List (ZoneId × MotionZoneDto) :=
  if entries.any fun entry ↦ entry.1 = id then
    entries.map fun entry ↦ if entry.1 = id then (id, zone) else entry
  else entries ++ [(id, zone)]

/-- How a call of the database ends: it may fail, and a write that fails may have been applied. -/
structure Outcome where
  failure : Bool := false
  applied : Bool := false
  deriving DecidableEq, Repr

def answer : (call : Call) → Outcome → World → Reply call × World
  | .now, _, world => (world.now, world)
  | .randomUUID, _, world => (world.uuid, world)
  | .getMemory id, _, world => (world.memoryZones.lookup id, world)
  | .setMemory id zone, _, world =>
    ((), { world with memoryZones := setMemory world.memoryZones id zone })
  | .deleteMemory id, _, world =>
    ((), { world with memoryZones := world.memoryZones.filter fun entry ↦ entry.1 ≠ id })
  | .listMemory cameraId, _, world => (world.rememberedZones cameraId, world)
  | .setCameraZones cameraId zones, _, world =>
    ((), { world with
      cameraZonesCache := Function.update world.cameraZonesCache cameraId (some zones) })
  | .findUnique id, outcome, world =>
    if outcome.failure then (.error .database, world)
    else (.ok (world.rows.find? fun row ↦ row.id = id), world)
  | .findMany cameraId, outcome, world =>
    if outcome.failure then (.error .database, world) else (.ok (rowsOf world.rows cameraId), world)
  | .deliver _ _, _, world => ((), world)
  | .write _ write, outcome, world =>
    match write.apply world.now world.rows with
    | none => (.error .database, world)
    | some (row, rows) =>
      if outcome.failure then
        (.error .database, if outcome.applied then { world with rows := rows } else world)
      else (.ok row, { world with rows := rows })

/-- The calls that the service awaits. -/
def Call.isAwaited : Call → Bool
  | .findUnique _ | .findMany _ | .deliver .. | .write .. => true
  | _ => false

/-- What happens beside the zone operations. -/
inductive ZoneEvent
  /-- `restoreBackup` commits, and leaves these records in the table. -/
  | restore (rows : List MotionZoneRow)
  /-- Time goes by, and another id is the next to be drawn. -/
  | tick (now : ℕ) (uuid : ZoneId)
  deriving DecidableEq, Repr

/-- A restart of the process empties what it keeps in memory. -/
def machine : Machine Call Reply World Outcome ZoneEvent where
  answer := answer
  synchronous := fun call ↦ !call.isAwaited
  calm := {}
  react := fun event world ↦
    match event with
    | .restore rows => { world with rows := rows }
    | .tick now uuid => { world with now := now, uuid := uuid }
  restart := fun world ↦ { rows := world.rows, now := world.now, uuid := world.uuid }

end VmsLite.Zones
