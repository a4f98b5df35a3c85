import VmsLite.Data.Base64
import VmsLite.Events.EventVisibility
import VmsLite.Webhooks.AddressTexts
import VmsLite.Zones.SpatialMotionFilter

/-!
# Cell motion

`processEvents` of `OnvifEventListenerService` hands the motion events of a camera to the event bus,
those that the zones of the camera let through. Where an event says that there is motion,
`extractSpatialCoordinates` reads off its data: a point, cells, or a bitmask of the cells of a grid.

An event with a bitmask is filtered as `evaluateCellGrid` decides for its cells, unless no cell is
active (`isFilteredAsGrid_iff`): then nothing is extracted, and the event passes for a coarse alarm.
-/

set_option autoImplicit false

namespace VmsLite.Zones

open VmsLite.Data
open Events (EventType)
open Webhooks (leadingNumber)

/-! ### The data of an event -/

/-- A value of the data of an event, as far as the code tells values apart. A value that is null
counts as absent. -/
inductive Value
  | string (text : Text)
  | number (value : ℚ)
  /-- An object with two numbers for coordinates. -/
  | point (point : Point)
  | cells (cells : List Cell)
  /-- A Boolean, or an object of another kind. -/
  | other (truthy : Bool)
  deriving DecidableEq, Repr

def Value.truthy : Value → Bool
  | .string text => !text.isEmpty
  | .number value => value ≠ 0
  | .point _ => true
  | .cells _ => true
  | .other truthy => truthy

abbrev EventData := List (String × Value)

def EventData.get? (data : EventData) (key : String) : Option Value := data.lookup key

structure ParsedOnvifEvent where
  topic : String
  isMotion : Bool
  isTamper : Bool
  timestamp : ℕ
  data : EventData
  deriving DecidableEq, Repr

/-! ### Numbers of texts -/

/-- The exponent at the head of a text, zero where there is none. -/
def leadingExponent (text : Text) : ℤ :=
  match text with
  | 'e' :: '-' :: rest | 'E' :: '-' :: rest => -((leadingNumber rest).getD 0 : ℤ)
  | 'e' :: '+' :: rest | 'E' :: '+' :: rest => (leadingNumber rest).getD 0
  | 'e' :: rest | 'E' :: rest => (leadingNumber rest).getD 0
  | _ => 0

def scale (digits : ℕ) (exponent : ℤ) : ℚ :=
  if 0 ≤ exponent then digits * Nat.pow 10 exponent.toNat
  else digits / Nat.pow 10 (-exponent).toNat

/-- The decimal number at the head of a text without a sign. -/
def leadingDecimal (text : Text) : Option ℚ :=
  let whole := text.takeWhile Char.isDigit
  let rest := text.dropWhile Char.isDigit
  let (fraction, rest) :=
    match rest with
    | '.' :: rest => (rest.takeWhile Char.isDigit, rest.dropWhile Char.isDigit)
    | rest => ([], rest)
  (leadingNumber (whole ++ fraction)).map fun digits ↦
    scale digits (leadingExponent rest - fraction.length)

/-- `parseFloat`, with `none` for `NaN`. Infinity is no coordinate. -/
def parseFloat (text : Text) : Option ℚ :=
  match text.dropWhile Media.isBlank with
  | '-' :: rest => (leadingDecimal rest).map fun value ↦ -value
  | '+' :: rest => leadingDecimal rest
  | rest => leadingDecimal rest

/-- `parseInt(String(value), 10)`, with `none` for `NaN`. The numbers are not so large or so small
that they are written with an exponent. -/
def Value.parseInt : Value → Option ℤ
  | .string text => Webhooks.parseInt text
  | .number value => some (if value < 0 then -(-value).floor else value.floor)
  | _ => none

/-- `typeof value === 'number' ? value : parseFloat(value)`. -/
def Value.parseFloat : Value → Option ℚ
  | .number value => some value
  | .string text => Zones.parseFloat text
  | _ => none

/-! ### Spatial coordinates -/

inductive SpatialCoordinates
  | point (point : Point)
  | cells (cells : List Cell) (totalCols totalRows : ℤ)
  deriving DecidableEq, Repr

/-- Normalised coordinates that stand in the data themselves. -/
def directCoordinates (data : EventData) : Option Point := do
  let rawX ← data.get? "x" <|> data.get? "X"
  let rawY ← data.get? "y" <|> data.get? "Y"
  let x ← rawX.parseFloat
  let y ← rawY.parseFloat
  some ⟨x, y⟩

def rawCells (data : EventData) : Option Value := data.get? "cells" <|> data.get? "activeCells"

def totalCols (data : EventData) : ℤ :=
  match data.get? "Columns" <|> data.get? "columns" with
  | none => 32
  | some columns => columns.parseInt.getD 32

def totalRows (data : EventData) : ℤ :=
  match data.get? "Rows" <|> data.get? "rows" with
  | none => 24
  | some rows => rows.parseInt.getD 24

/-- The cell of a bit of the mask, when it is in the grid. -/
def cellOf (cellIdx : ℕ) (cols rows : ℤ) : Option Cell :=
  let col := (cellIdx : ℤ).tmod cols
  let row := (cellIdx : ℤ) / cols
  if col < cols ∧ row < rows then some ⟨col.toNat, row.toNat⟩ else none

/-- The cells of the bits that are set. -/
def maskCells (buffer : Bytes) (cols rows : ℤ) : List Cell :=
  buffer.zipIdx.flatMap fun (byteVal, byteIdx) ↦
    if byteVal = 0 then []
    else
      (List.range 8).filterMap fun bit ↦
        if byteVal.toNat.testBit bit then cellOf (byteIdx * 8 + bit) cols rows else none

/-- The bitmask of an event, when it has one. -/
def bitmask (data : EventData) : Option Text :=
  match data.get? "Data" with
  | some (.string text) =>
    if !text.isEmpty && (data.get? "Columns").any Value.truthy &&
        (data.get? "Rows").any Value.truthy then some text
    else none
  | _ => none

def extractSpatialCoordinates (data : EventData) : Option SpatialCoordinates :=
  match data.get? "point" with
  | some (.point point) => some (.point point)
  | _ =>
    match directCoordinates data with
    | some point => some (.point point)
    | none =>
      match rawCells data with
      | some (.cells (cell :: cells)) =>
        some (.cells (cell :: cells) (totalCols data) (totalRows data))
      | _ =>
        match bitmask data with
        | none => none
        | some text =>
          let cells := maskCells (Base64.decode text) (totalCols data) (totalRows data)
          -- A mask without a cell of the grid is no spatial metadata
          if cells.length > 0 then some (.cells cells (totalCols data) (totalRows data)) else none

/-! ### Events of a camera -/

structure Subscription where
  cameraId : CameraId
  cameraName : String
  deriving DecidableEq, Repr

inductive Severity
  | warning | critical
  deriving DecidableEq, Repr

/-- The metadata of an emitted event. `spatialFiltered` and `matchedInclusion` go with events that
the zones let through, `spatialVerified` with those that they could not tell anything of. -/
structure EventMetadata where
  cameraName : String
  topic : String
  data : EventData
  spatialFiltered : Bool
  matchedInclusion : Option (List Text)
  spatialVerified : Option Bool
  deriving DecidableEq, Repr

structure EmitEventInput where
  cameraId : CameraId
  timestamp : ℕ
  type : EventType
  source : String
  severity : Severity
  metadata : EventMetadata
  deriving DecidableEq, Repr

/-- What the metadata of a motion event says of the zones. -/
structure SpatialCheck where
  spatialFiltered : Bool
  matchedInclusion : Option (List Text)
  spatialVerified : Option Bool
  deriving DecidableEq, Repr

/-- An answer of the filter, or `none` when the event is suppressed. -/
def SpatialCheck.ofResult (evalRes : SpatialEvaluationResult) : Option SpatialCheck :=
  if !evalRes.allowed then none
  else some ⟨true, evalRes.matchedInclusion, none⟩

/-- The check of a motion event against the zones, or `none` when the event is suppressed. -/
def checkZones (zones : List MotionZoneDto) (data : EventData) : Option SpatialCheck :=
  if zones.isEmpty then some ⟨false, none, none⟩
  else
    match extractSpatialCoordinates data with
    | some (.point point) => SpatialCheck.ofResult (evaluateMotionPoint point zones)
    | some (.cells cells totalCols totalRows) =>
      if cells.isEmpty then some ⟨false, none, none⟩
      else
        SpatialCheck.ofResult
          (evaluateCellGrid cells (if totalCols = 0 then 32 else totalCols)
            (if totalRows = 0 then 24 else totalRows) zones)
    -- A coarse alarm without spatial metadata passes with a warning
    | none => some ⟨false, none, some false⟩

/-- What the event bus is handed of one event. -/
def processEvent (sub : Subscription) (zones : List MotionZoneDto) (event : ParsedOnvifEvent) :
    List EmitEventInput :=
  if event.isMotion then
    match checkZones zones event.data with
    | none => []
    | some check =>
      [{ cameraId := sub.cameraId
         timestamp := event.timestamp
         type := .motionDetected
         source := "onvif.motion"
         severity := .warning
         metadata :=
          { cameraName := sub.cameraName
            topic := event.topic
            data := event.data
            spatialFiltered := check.spatialFiltered
            matchedInclusion := check.matchedInclusion
            spatialVerified := check.spatialVerified } }]
  else if event.isTamper then
    [{ cameraId := sub.cameraId
       timestamp := event.timestamp
       type := .cameraTamper
       source := "onvif.tamper"
       severity := .critical
       metadata :=
        { cameraName := sub.cameraName
          topic := event.topic
          data := event.data
          spatialFiltered := false
          matchedInclusion := none
          spatialVerified := none } }]
  else []

/-- The events that the bus is handed. Every event goes with the cache of zones as it is when the
loop comes to the event. -/
def processEvents (subscriptions : CameraId → Option Subscription) (cameraId : CameraId)
    (events : List (ParsedOnvifEvent × (CameraId → List MotionZoneDto))) : List EmitEventInput :=
  match subscriptions cameraId with
  | none => []
  | some sub =>
    events.flatMap fun (event, getCameraZones) ↦
      processEvent sub (getCameraZones sub.cameraId) event

theorem processEvents_append (subscriptions : CameraId → Option Subscription) (cameraId : CameraId)
    (before after : List (ParsedOnvifEvent × (CameraId → List MotionZoneDto))) :
    processEvents subscriptions cameraId (before ++ after) =
      processEvents subscriptions cameraId before ++
          processEvents subscriptions cameraId after := by
  unfold processEvents
  cases subscriptions cameraId with
  | none => rfl
  | some sub => exact List.flatMap_append

/-! ### Bitmasks -/

/-- A bit of some bytes. Bits behind the last byte are not set. -/
def isSet (buffer : Bytes) (index : ℕ) : Bool :=
  (buffer.getD (index / 8) 0).toNat.testBit (index % 8)

theorem cellOf_eq_some_iff {cols rows : ℕ} (hcols : 0 < cols) (cellIdx : ℕ) (cell : Cell) :
    cellOf cellIdx cols rows = some cell ↔
      cellIdx = cell.row * cols + cell.col ∧ cell.col < cols ∧ cell.row < rows := by
  have hcol : (cellIdx : ℤ).tmod cols = ((cellIdx % cols : ℕ) : ℤ) := by
    rw [Int.tmod_eq_emod_of_nonneg (Int.natCast_nonneg _), Int.natCast_emod]
  have hrow : (cellIdx : ℤ) / cols = ((cellIdx / cols : ℕ) : ℤ) := (Int.natCast_ediv _ _).symm
  have hlt := Nat.mod_lt cellIdx hcols
  unfold cellOf
  dsimp only
  rw [hcol, hrow]
  simp only [Int.toNat_natCast, Nat.cast_lt]
  constructor
  · intro hcell
    split_ifs at hcell with hinside
    obtain rfl := Option.some.inj hcell
    refine ⟨?_, hinside⟩
    rw [Nat.mul_comm]
    exact (Nat.div_add_mod cellIdx cols).symm
  · rintro ⟨rfl, hcellCol, hcellRow⟩
    have hmod : (cell.row * cols + cell.col) % cols = cell.col := by
      rw [Nat.add_comm, Nat.add_mul_mod_self_right, Nat.mod_eq_of_lt hcellCol]
    have hdiv : (cell.row * cols + cell.col) / cols = cell.row := by
      rw [Nat.add_comm, Nat.add_mul_div_right _ _ hcols, Nat.div_eq_of_lt hcellCol, Nat.zero_add]
    rw [hmod, hdiv, if_pos ⟨hcellCol, hcellRow⟩]

/-- The bits of the mask are read in the order of the cells, row by row. -/
theorem mem_maskCells {cols rows : ℕ} (hcols : 0 < cols) (buffer : Bytes) (cell : Cell) :
    cell ∈ maskCells buffer cols rows ↔
      isSet buffer (cell.row * cols + cell.col) = true ∧ cell.col < cols ∧ cell.row < rows := by
  unfold maskCells
  rw [List.mem_flatMap]
  constructor
  · rintro ⟨⟨byteVal, byteIdx⟩, hbyte, hcell⟩
    have hbyte := List.mem_zipIdx_iff_getElem?.mp hbyte
    dsimp only at hcell hbyte
    split_ifs at hcell with hzero
    · cases hcell
    · obtain ⟨bit, hbit, hcell⟩ := List.mem_filterMap.mp hcell
      have hbit := List.mem_range.mp hbit
      split_ifs at hcell with hset
      obtain ⟨hindex, hinside⟩ := (cellOf_eq_some_iff hcols _ cell).mp hcell
      refine ⟨?_, hinside⟩
      have hdiv : (byteIdx * 8 + bit) / 8 = byteIdx := by omega
      have hmod : (byteIdx * 8 + bit) % 8 = bit := by omega
      unfold isSet
      rw [← hindex, hdiv, hmod, List.getD_eq_getElem?_getD, hbyte]
      exact hset
  · rintro ⟨hset, hinside⟩
    obtain ⟨index, hindex⟩ : ∃ index, index = cell.row * cols + cell.col := ⟨_, rfl⟩
    rw [← hindex] at hset
    unfold isSet at hset
    rw [List.getD_eq_getElem?_getD] at hset
    cases hbyte : buffer[index / 8]? with
    | none =>
      rw [hbyte] at hset
      simp at hset
    | some byteVal =>
      rw [hbyte, Option.getD_some] at hset
      have hzero : byteVal ≠ 0 := by
        rintro rfl
        simp at hset
      have hjoin : index / 8 * 8 + index % 8 = index := Nat.div_add_mod' index 8
      refine ⟨(byteVal, index / 8), List.mem_zipIdx_iff_getElem?.mpr hbyte, ?_⟩
      dsimp only
      rw [if_neg hzero, List.mem_filterMap]
      refine ⟨index % 8, List.mem_range.mpr (Nat.mod_lt _ (by decide)), ?_⟩
      rw [if_pos hset, hjoin]
      exact (cellOf_eq_some_iff hcols index cell).mpr ⟨hindex, hinside⟩

/-! ### Events with a bitmask -/

/-- A value that spells a size, as a number or as a text. -/
def Spells (value : Value) (size : ℕ) : Prop :=
  value = .string (Nat.toDigits 10 size) ∨ value = .number size

/-- The data of an event that tells of motion by the bitmask of the active cells of a grid, and in
no other way. The bits that stand for no cell of the grid may be set or not. -/
structure CarriesGrid (data : EventData) (active : List Cell) (cols rows : ℕ) : Prop where
  cols_pos : 0 < cols
  rows_pos : 0 < rows
  inGrid : ∀ cell ∈ active, cell.col < cols ∧ cell.row < rows
  columnsItem : ∃ value, data.get? "Columns" = some value ∧ Spells value cols
  rowsItem : ∃ value, data.get? "Rows" = some value ∧ Spells value rows
  maskItem : ∃ buffer : Bytes, data.get? "Data" = some (.string (Base64.encode buffer)) ∧
    ∀ cell : Cell, cell.col < cols → cell.row < rows →
      (isSet buffer (cell.row * cols + cell.col) = true ↔ cell ∈ active)
  noPoint : ∀ point, data.get? "point" ≠ some (.point point)
  noCoordinates : directCoordinates data = none
  noCells : ∀ cell cells, rawCells data ≠ some (.cells (cell :: cells))

theorem Spells.truthy {value : Value} {size : ℕ} (hvalue : Spells value size) (hsize : 0 < size) :
    value.truthy = true := by
  rcases hvalue with rfl | rfl
  · simp [Value.truthy, Nat.toDigits_ne_nil]
  · simp [Value.truthy, hsize.ne']

theorem Spells.parseInt {value : Value} {size : ℕ} (hvalue : Spells value size) :
    value.parseInt = some (size : ℤ) := by
  rcases hvalue with rfl | rfl
  · exact Webhooks.parseInt_toDigits size
  · have hnonneg : ¬ ((size : ℚ) < 0) := not_lt.mpr (Nat.cast_nonneg size)
    simp only [Value.parseInt, if_neg hnonneg]
    exact congrArg some (Rat.floor_intCast size)

theorem CarriesGrid.totalCols_eq {data : EventData} {active : List Cell} {cols rows : ℕ}
    (hdata : CarriesGrid data active cols rows) : totalCols data = cols := by
  obtain ⟨value, hvalue, hspells⟩ := hdata.columnsItem
  unfold totalCols
  rw [hvalue]
  exact congrArg (Option.getD · _) hspells.parseInt

theorem CarriesGrid.totalRows_eq {data : EventData} {active : List Cell} {cols rows : ℕ}
    (hdata : CarriesGrid data active cols rows) : totalRows data = rows := by
  obtain ⟨value, hvalue, hspells⟩ := hdata.rowsItem
  unfold totalRows
  rw [hvalue]
  exact congrArg (Option.getD · _) hspells.parseInt

/-- What is read off an event with a bitmask: the active cells, and nothing when there are none. -/
theorem CarriesGrid.extractSpatialCoordinates_eq {data : EventData} {active : List Cell}
    {cols rows : ℕ} (hdata : CarriesGrid data active cols rows) :
    ∃ cells, (∀ cell, cell ∈ cells ↔ cell ∈ active) ∧
      extractSpatialCoordinates data =
        if cells.length > 0 then some (.cells cells cols rows) else none := by
  obtain ⟨buffer, hbuffer, hbits⟩ := hdata.maskItem
  obtain ⟨columnsValue, hcolumns, hcolumnsSpells⟩ := hdata.columnsItem
  obtain ⟨rowsValue, hrows, hrowsSpells⟩ := hdata.rowsItem
  refine ⟨maskCells buffer cols rows, ?_, ?_⟩
  · intro cell
    rw [mem_maskCells hdata.cols_pos]
    constructor
    · rintro ⟨hset, hcol, hrow⟩
      exact (hbits cell hcol hrow).mp hset
    · intro hactive
      obtain ⟨hcol, hrow⟩ := hdata.inGrid cell hactive
      exact ⟨(hbits cell hcol hrow).mpr hactive, hcol, hrow⟩
  · unfold extractSpatialCoordinates
    split
    · exact absurd ‹_› (hdata.noPoint _)
    · rw [hdata.noCoordinates]
      dsimp only
      split
      · exact absurd ‹_› (hdata.noCells _ _)
      · rw [hdata.totalCols_eq, hdata.totalRows_eq]
        unfold bitmask
        rw [hbuffer, hcolumns, hrows]
        simp only [Option.any_some, hcolumnsSpells.truthy hdata.cols_pos,
          hrowsSpells.truthy hdata.rows_pos, Bool.and_true]
        cases buffer with
        | nil => rfl
        | cons byte buffer =>
          have hnonempty : (Base64.encode (byte :: buffer)).isEmpty = false := by
            match buffer with
            | [] => rfl
            | [_] => rfl
            | _ :: _ :: _ => rfl
          simp only [hnonempty, Bool.not_false, if_true, Base64.decode_encode]

/-! ### The filter and the events -/

/-- A motion event is handed to the bus as `evaluateCellGrid` decides for its active cells, which is
when the zones admit the centroid of one of them. -/
structure FilteredAsGrid (subscriptions : CameraId → Option Subscription) (cameraId : CameraId)
    (event : ParsedOnvifEvent) (getCameraZones : CameraId → List MotionZoneDto)
    (zones : List MotionZoneDto) (active : List Cell) (cols rows : ℕ) : Prop where
  emitted : ∃ emitted,
    (∀ before after, processEvents subscriptions cameraId
      (before ++ (event, getCameraZones) :: after) =
        processEvents subscriptions cameraId before ++ emitted ++
          processEvents subscriptions cameraId after) ∧
    (emitted ≠ [] ↔ (evaluateCellGrid active cols rows zones).allowed = true)
  rule : (evaluateCellGrid active cols rows zones).allowed = true ↔
    ∃ cell ∈ active, Admits zones (centroid cell cols rows)

theorem processEvents_event {subscriptions : CameraId → Option Subscription} {cameraId : CameraId}
    {sub : Subscription} (hsub : subscriptions cameraId = some sub) (event : ParsedOnvifEvent)
    (getCameraZones : CameraId → List MotionZoneDto)
    (before after : List (ParsedOnvifEvent × (CameraId → List MotionZoneDto))) :
    processEvents subscriptions cameraId (before ++ (event, getCameraZones) :: after) =
      processEvents subscriptions cameraId before ++
        processEvent sub (getCameraZones sub.cameraId) event ++
          processEvents subscriptions cameraId after := by
  rw [processEvents_append, ← List.singleton_append, processEvents_append, ← List.append_assoc]
  unfold processEvents
  simp only [hsub, List.flatMap_singleton]

theorem processEvent_ne_nil_iff {event : ParsedOnvifEvent} (hmotion : event.isMotion = true)
    (sub : Subscription) (zones : List MotionZoneDto) :
    processEvent sub zones event ≠ [] ↔ (checkZones zones event.data).isSome = true := by
  unfold processEvent
  rw [if_pos hmotion]
  cases checkZones zones event.data with
  | none => simp
  | some check => simp

/-- The check of an event with a bitmask. -/
theorem CarriesGrid.checkZones_isSome_iff {data : EventData} {active : List Cell} {cols rows : ℕ}
    (hdata : CarriesGrid data active cols rows) {zones : List MotionZoneDto} (hzones : zones ≠ []) :
    (checkZones zones data).isSome = true ↔
      active = [] ∨ ∃ cell ∈ active, Admits zones (centroid cell cols rows) := by
  obtain ⟨cells, hcells, hextract⟩ := hdata.extractSpatialCoordinates_eq
  have hcols : (cols : ℤ) ≠ 0 := Int.natCast_ne_zero.mpr hdata.cols_pos.ne'
  have hrows : (rows : ℤ) ≠ 0 := Int.natCast_ne_zero.mpr hdata.rows_pos.ne'
  have hallowed := evaluateCellGrid_allowed_iff (Int.natCast_pos.mpr hdata.cols_pos)
    (Int.natCast_pos.mpr hdata.rows_pos) cells zones
  simp only [hcells] at hallowed
  unfold checkZones
  rw [if_neg (List.isEmpty_iff.not.mpr hzones), hextract]
  cases cells with
  | nil =>
    have hactive : active = [] := List.eq_nil_iff_forall_not_mem.mpr fun cell hcell ↦
      List.not_mem_nil ((hcells cell).mpr hcell)
    simp [hactive]
  | cons cell cells =>
    have hactive : active ≠ [] := List.ne_nil_of_mem ((hcells cell).mp List.mem_cons_self)
    have hlength : (cell :: cells).length > 0 := Nat.succ_pos _
    simp only [if_pos hlength, List.isEmpty_cons, Bool.false_eq_true, if_false, hcols, hrows,
      hactive, false_or, ← hallowed]
    unfold SpatialCheck.ofResult
    split_ifs with hresult
    · simpa using hresult
    · simpa using hresult

/-- An event with a bitmask is filtered as the cells are, unless no cell is active: then it passes
for a coarse alarm, while `evaluateCellGrid` lets no empty set of cells through. -/
theorem isFilteredAsGrid_iff {subscriptions : CameraId → Option Subscription} {cameraId : CameraId}
    {sub : Subscription} (hsub : subscriptions cameraId = some sub) {event : ParsedOnvifEvent}
    (hmotion : event.isMotion = true) {getCameraZones : CameraId → List MotionZoneDto}
    {zones : List MotionZoneDto} (hcache : getCameraZones sub.cameraId = zones)
    (hzones : zones ≠ []) {active : List Cell} {cols rows : ℕ}
    (hdata : CarriesGrid event.data active cols rows) :
    FilteredAsGrid subscriptions cameraId event getCameraZones zones active cols rows ↔
      active ≠ [] := by
  have hrule := evaluateCellGrid_allowed_iff (Int.natCast_pos.mpr hdata.cols_pos)
    (Int.natCast_pos.mpr hdata.rows_pos) active zones
  have hemitted := (processEvent_ne_nil_iff hmotion sub zones).trans
    (hdata.checkZones_isSome_iff hzones)
  have hbatch := processEvents_event hsub event getCameraZones
  rw [hcache] at hbatch
  constructor
  · rintro hfiltered rfl
    obtain ⟨emitted, hevents, hiff⟩ := hfiltered.emitted
    have halone := (hevents [] []).symm.trans (hbatch [] [])
    rw [List.append_cancel_right_eq, List.append_cancel_left_eq] at halone
    have hpassed := hiff.mp (halone ▸ hemitted.mpr (Or.inl rfl))
    obtain ⟨cell, hcell, -⟩ := hrule.mp hpassed
    exact List.not_mem_nil hcell
  · intro hactive
    refine ⟨⟨processEvent sub zones event, hbatch, ?_⟩, hrule⟩
    rw [hemitted, hrule]
    simp only [hactive, false_or]

/-- An exclusion zone over the whole frame. -/
def wholeFrame : MotionZoneDto where
  id := "zone-1"
  cameraId := "cam-1"
  name := ['a', 'l', 'l']
  zoneType := .exclusion
  enabled := true
  coordinates := [⟨0, 0⟩, ⟨1, 0⟩, ⟨1, 1⟩, ⟨0, 1⟩]
  color := none
  createdAt := 0
  updatedAt := 0

/-- A motion event with the bitmask of a grid of two cells. -/
def maskEvent (buffer : Bytes) : ParsedOnvifEvent where
  topic := "tns1:RuleEngine/CellMotionDetector/Motion"
  isMotion := true
  isTamper := false
  timestamp := 0
  data := [("Columns", .string ['2']), ("Rows", .string ['1']),
    ("Data", .string (Base64.encode buffer))]

theorem carriesGrid_maskEvent {buffer : Bytes} {active : List Cell}
    (hactive : ∀ cell ∈ active, cell.col < 2 ∧ cell.row < 1)
    (hbits : ∀ col < 2, (isSet buffer col = true ↔ ⟨col, 0⟩ ∈ active)) :
    CarriesGrid (maskEvent buffer).data active 2 1 where
  cols_pos := by decide
  rows_pos := by decide
  inGrid := hactive
  columnsItem := ⟨_, rfl, Or.inl rfl⟩
  rowsItem := ⟨_, rfl, Or.inl rfl⟩
  maskItem := by
    refine ⟨buffer, rfl, ?_⟩
    rintro ⟨col, row⟩ hcol hrow
    obtain rfl : row = 0 := Nat.lt_one_iff.mp hrow
    simpa using hbits col hcol
  noPoint point := by
    intro hpoint
    cases hpoint
  noCoordinates := rfl
  noCells cell cells := by
    intro hcells
    cases hcells

theorem isFilteredAsGrid_iff_right :
    FilteredAsGrid (fun _ ↦ some ⟨"cam-1", "Gate"⟩) "cam-1" (maskEvent [2]) (fun _ ↦ [wholeFrame])
      [wholeFrame] [⟨1, 0⟩] 2 1 := by
  have hdata : CarriesGrid (maskEvent [2]).data [⟨1, 0⟩] 2 1 :=
    carriesGrid_maskEvent (by simp) (by decide)
  exact (isFilteredAsGrid_iff rfl rfl rfl (List.cons_ne_nil _ _) hdata).mpr
    (List.cons_ne_nil _ _)

/-- With an exclusion zone over the whole frame, the event of an empty grid is emitted. -/
theorem not_isFilteredAsGrid_empty :
    CarriesGrid (maskEvent [0]).data [] 2 1 ∧
      ¬ FilteredAsGrid (fun _ ↦ some ⟨"cam-1", "Gate"⟩) "cam-1" (maskEvent [0])
        (fun _ ↦ [wholeFrame]) [wholeFrame] [] 2 1 := by
  refine ⟨carriesGrid_maskEvent (by simp) (by decide), ?_⟩
  intro hfiltered
  obtain ⟨emitted, hevents, hiff⟩ := hfiltered.emitted
  have hemitted : emitted ≠ [] := by
    have halone := hevents [] []
    rintro rfl
    cases halone
  exact Bool.false_ne_true (hiff.mp hemitted)

end VmsLite.Zones
