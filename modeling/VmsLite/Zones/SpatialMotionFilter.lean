import VmsLite.Zones.PointInPolygon

/-!
# The spatial motion filter

`SpatialMotionFilter` says of a point, or of the cells of a grid, whether the zones of a camera let
its motion through. A point is let through when the zones admit it (`Admits`), a set of cells when
the centroid of one of them is (`evaluateCellGrid_allowed_iff`).
-/

set_option autoImplicit false

namespace VmsLite.Zones

open VmsLite.Data

/-! ### The filter -/

structure SpatialEvaluationResult where
  allowed : Bool
  matchedInclusion : Option (List Text)
  matchedExclusion : Option (List Text)
  reason : String
  deriving DecidableEq, Repr

def join (names : List Text) : String := ", ".intercalate (names.map String.ofList)

def covers (point : Point) (zone : MotionZoneDto) : Bool :=
  isPointInPolygon point zone.coordinates == some true

/-- A single point against the zones. -/
def evaluateMotionPoint (point : Point) (zones : List MotionZoneDto) : SpatialEvaluationResult :=
  let activeZones := zones.filter (·.enabled)
  if activeZones.isEmpty then
    { allowed := true, matchedInclusion := none, matchedExclusion := none
      reason := "No enabled zones configured; full frame active" }
  else
    let exclusionZones := activeZones.filter (·.zoneType = .exclusion)
    let inclusionZones := activeZones.filter (·.zoneType = .inclusion)
    let matchedExclusions := (exclusionZones.filter (covers point)).map (·.name)
    if !matchedExclusions.isEmpty then
      { allowed := false, matchedInclusion := none, matchedExclusion := some matchedExclusions
        reason := "Matched exclusion zone(s): " ++ join matchedExclusions }
    else if inclusionZones.isEmpty then
      { allowed := true, matchedInclusion := none, matchedExclusion := none
        reason := "No inclusion zones configured; full frame active" }
    else
      let matchedInclusions := (inclusionZones.filter (covers point)).map (·.name)
      if !matchedInclusions.isEmpty then
        { allowed := true, matchedInclusion := some matchedInclusions, matchedExclusion := none
          reason := "Matched inclusion zone(s): " ++ join matchedInclusions }
      else
        { allowed := false, matchedInclusion := none, matchedExclusion := none
          reason := "Outside all configured inclusion zones" }

/-- A cell of an event grid. -/
structure Cell where
  col : ℕ
  row : ℕ
  deriving DecidableEq, Repr

def centroid (cell : Cell) (totalCols totalRows : ℤ) : Point where
  x := (cell.col + 1 / 2) / totalCols
  y := (cell.row + 1 / 2) / totalRows

/-- `Set.add`: an item that is there keeps its place. -/
def addItem {α : Type} [DecidableEq α] (set : List α) (item : α) : List α :=
  if item ∈ set then set else set ++ [item]

def addNames (set names : List Text) : List Text := names.foldl addItem set

/-- What the loop over the cells keeps. -/
structure GridScan where
  passedInclusions : List Text
  blockedExclusions : List Text
  anyCellAllowed : Bool
  deriving DecidableEq, Repr

def scanCell (totalCols totalRows : ℤ) (zones : List MotionZoneDto) (scan : GridScan)
    (cell : Cell) : GridScan :=
  let result := evaluateMotionPoint (centroid cell totalCols totalRows) zones
  if result.allowed then
    { scan with
      passedInclusions := addNames scan.passedInclusions (result.matchedInclusion.getD [])
      anyCellAllowed := true }
  else
    { scan with
      blockedExclusions := addNames scan.blockedExclusions (result.matchedExclusion.getD []) }

/-- The active cells of a cell motion detector, by their centroids. -/
def evaluateCellGrid (activeCells : List Cell) (totalCols totalRows : ℤ)
    (zones : List MotionZoneDto) : SpatialEvaluationResult :=
  if activeCells.isEmpty then
    { allowed := false, matchedInclusion := none, matchedExclusion := none
      reason := "No active cells in event grid" }
  else if totalCols ≤ 0 ∨ totalRows ≤ 0 then
    { allowed := true, matchedInclusion := none, matchedExclusion := none
      reason := "Invalid grid dimensions; defaulting to pass" }
  else
    let scan := activeCells.foldl (scanCell totalCols totalRows zones) ⟨[], [], false⟩
    if scan.anyCellAllowed then
      { allowed := true, matchedInclusion := some scan.passedInclusions, matchedExclusion := none
        reason := "At least one active cell centroid passed spatial filtering" }
    else
      { allowed := false, matchedInclusion := none
        matchedExclusion := some scan.blockedExclusions
        reason :=
          if scan.blockedExclusions.length > 0 then
            "All active cell centroids fell within exclusion zone(s): " ++
              join scan.blockedExclusions
          else "All active cell centroids fell outside configured inclusion zones" }

/-! ### What the zones admit -/

def Inside (point : Point) (zone : MotionZoneDto) : Prop :=
  3 ≤ zone.coordinates.length ∧ Odd (crossings point (sides zone.coordinates))

/-- A point in no enabled exclusion zone and, when there are enabled inclusion zones, in one of
them. -/
structure Admits (zones : List MotionZoneDto) (point : Point) : Prop where
  notExcluded : ∀ zone ∈ zones, zone.enabled = true → zone.zoneType = .exclusion →
    ¬ Inside point zone
  included : (∃ zone ∈ zones, zone.enabled = true ∧ zone.zoneType = .inclusion) →
    ∃ zone ∈ zones, zone.enabled = true ∧ zone.zoneType = .inclusion ∧ Inside point zone

theorem covers_iff (point : Point) (zone : MotionZoneDto) :
    covers point zone = true ↔ Inside point zone := by
  unfold covers Inside
  rw [beq_iff_eq]
  by_cases hsize : 3 ≤ zone.coordinates.length
  · simp [isPointInPolygon_eq point hsize, hsize]
  · have hshort : zone.coordinates.length < 3 := by omega
    simp [isPointInPolygon, hshort, hsize]

/-- No zone of a type is named for a point that is outside every enabled zone of that type. -/
theorem covering_isEmpty_iff (point : Point) (zones : List MotionZoneDto) (zoneType : ZoneType) :
    ((((zones.filter (·.enabled)).filter (·.zoneType = zoneType)).filter (covers point)).map
        (·.name)).isEmpty = true ↔
      ∀ zone ∈ zones, zone.enabled = true → zone.zoneType = zoneType → ¬ Inside point zone := by
  simp only [List.isEmpty_iff, List.map_eq_nil_iff, List.filter_eq_nil_iff, List.mem_filter,
    decide_eq_true_eq, covers_iff, and_imp]

theorem evaluateMotionPoint_allowed_iff (point : Point) (zones : List MotionZoneDto) :
    (evaluateMotionPoint point zones).allowed = true ↔ Admits zones point := by
  have hnames := covering_isEmpty_iff point zones
  unfold evaluateMotionPoint
  dsimp only
  split_ifs with hactive hexcluded hinclusions hincluded
  · simp only [List.isEmpty_iff, List.filter_eq_nil_iff] at hactive
    refine iff_of_true rfl ⟨?_, ?_⟩
    · intro zone hzone henabled
      exact absurd henabled (hactive zone hzone)
    · rintro ⟨zone, hzone, henabled, -⟩
      exact absurd henabled (hactive zone hzone)
  · rw [Bool.not_eq_true', ← Bool.not_eq_true, hnames .exclusion] at hexcluded
    exact iff_of_false id fun hadmits ↦ hexcluded hadmits.notExcluded
  · rw [Bool.not_eq_true', Bool.not_eq_false, hnames .exclusion] at hexcluded
    simp only [List.isEmpty_iff, List.filter_eq_nil_iff, List.mem_filter, decide_eq_true_eq,
      and_imp] at hinclusions
    refine iff_of_true rfl ⟨hexcluded, ?_⟩
    rintro ⟨zone, hzone, henabled, htype⟩
    exact absurd htype (hinclusions zone hzone henabled)
  · rw [Bool.not_eq_true', Bool.not_eq_false, hnames .exclusion] at hexcluded
    rw [Bool.not_eq_true', ← Bool.not_eq_true, hnames .inclusion] at hincluded
    push Not at hincluded
    exact iff_of_true rfl ⟨hexcluded, fun _ ↦ hincluded⟩
  · rw [Bool.not_eq_true', Bool.not_eq_false, hnames .inclusion] at hincluded
    refine iff_of_false id ?_
    intro hadmits
    have hinclusion : ∃ zone ∈ zones, zone.enabled = true ∧ zone.zoneType = .inclusion := by
      simpa [List.filter_eq_nil_iff, and_comm] using hinclusions
    obtain ⟨zone, hzone, henabled, htype, hinside⟩ := hadmits.included hinclusion
    exact hincluded zone hzone henabled htype hinside

theorem scan_anyCellAllowed_iff {totalCols totalRows : ℤ} {zones : List MotionZoneDto}
    (cells : List Cell) (scan : GridScan) :
    (cells.foldl (scanCell totalCols totalRows zones) scan).anyCellAllowed = true ↔
      scan.anyCellAllowed = true ∨ ∃ cell ∈ cells,
          Admits zones (centroid cell totalCols totalRows) := by
  induction cells generalizing scan with
  | nil => simp
  | cons cell cells ih =>
    have hcell : (scanCell totalCols totalRows zones scan cell).anyCellAllowed = true ↔
        scan.anyCellAllowed = true ∨ Admits zones (centroid cell totalCols totalRows) := by
      rw [← evaluateMotionPoint_allowed_iff]
      unfold scanCell
      dsimp only
      split_ifs with hallowed
      · simp [hallowed]
      · simp [hallowed]
    rw [List.foldl_cons, ih, hcell, or_assoc]
    simp only [List.mem_cons, exists_eq_or_imp]

/-- Cells are let through when the zones admit the centroid of one of them. -/
theorem evaluateCellGrid_allowed_iff {totalCols totalRows : ℤ} (hcols : 0 < totalCols)
    (hrows : 0 < totalRows) (cells : List Cell) (zones : List MotionZoneDto) :
    (evaluateCellGrid cells totalCols totalRows zones).allowed = true ↔
      ∃ cell ∈ cells, Admits zones (centroid cell totalCols totalRows) := by
  have hscan := @scan_anyCellAllowed_iff totalCols totalRows zones cells ⟨[], [], false⟩
  simp only [Bool.false_eq_true, false_or] at hscan
  unfold evaluateCellGrid
  dsimp only
  split_ifs with hempty hinvalid hallowed
  · simp [List.isEmpty_iff.mp hempty]
  · omega
  · exact iff_of_true rfl (hscan.mp hallowed)
  · exact iff_of_false id (hscan.not.mp hallowed)

end VmsLite.Zones
