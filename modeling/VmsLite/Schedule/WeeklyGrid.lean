import VmsLite.Recordings.Types
import Mathlib.Data.Nat.Basic
import Mathlib.Order.Basic

/-!
# Weekly schedules

A camera's recording schedule in its three spellings: the windows that are stored, the minutes at
which the scheduler takes the camera to be active, and the weekly grid of hours that the settings
show and that windows are made of. The grid and the scheduler do not always agree:
`weeklyGridAgrees_iff` says for which windows and for which grids they do.
-/

set_option autoImplicit false

namespace VmsLite.Schedule

open Recordings (CameraId RecordingMode)

/-! ### Windows -/

/-- A window in the bounds of `ScheduleWindowSchema`; day 0 is Sunday. -/
structure ScheduleWindow where
  dayOfWeek : Fin 7
  startHour : Fin 24
  startMin : Fin 60
  endHour : Fin 24
  endMin : Fin 60
  deriving DecidableEq, Repr

structure CameraScheduleConfig where
  mode : RecordingMode
  windows : List ScheduleWindow
  deriving DecidableEq, Repr

/-- What `getDay`, `getHours` and `getMinutes` read off a date. -/
structure LocalTime where
  day : Fin 7
  hour : Fin 24
  minute : Fin 60
  deriving DecidableEq, Repr

namespace ScheduleWindow

def startMins (win : ScheduleWindow) : ℕ := win.startHour * 60 + win.startMin

def endMins (win : ScheduleWindow) : ℕ := win.endHour * 60 + win.endMin

/-- The body of the loop of `isCameraActiveAt`: whether it returns true at this window. -/
def isActiveAt (win : ScheduleWindow) (currentDay prevDay : Fin 7) (currentMins : ℕ) : Bool :=
  (win.dayOfWeek = currentDay &&
    if win.startMins ≤ win.endMins then
      -- Standard daytime window
      win.startMins ≤ currentMins && currentMins < win.endMins
    else
      -- Today's evening portion of an overnight window
      win.startMins ≤ currentMins) ||
  -- Yesterday's overnight window: morning portion continuing into today
  (win.dayOfWeek = prevDay && win.endMins < win.startMins && currentMins < win.endMins)

end ScheduleWindow

/-- Evaluates if camera should record at a specific timestamp. -/
def isCameraActiveAt (config : CameraScheduleConfig) (date : LocalTime) : Bool :=
  match config.mode with
  | .continuous => true
  | .manualOff | .motionOnly => false
  | .scheduled =>
    let currentDay := date.day
    let prevDay := currentDay + 6
    let currentMins := (date.hour : ℕ) * 60 + (date.minute : ℕ)
    config.windows.any fun win ↦ win.isActiveAt currentDay prevDay currentMins

/-- Whether the media server should write segments for this camera right now. -/
def shouldRecordToDisk (config : CameraScheduleConfig) (date : LocalTime) : Bool :=
  config.mode = .motionOnly || isCameraActiveAt config date

/-! ### Grids -/

/-- Days by hours. -/
abbrev Grid := Fin 7 → Fin 24 → Bool

/-- The windows pushed for a day and the start of the one that is open. -/
structure DayScan where
  windows : List ScheduleWindow
  windowStart : Option (Fin 24)

/-- One round of the loop over the hours. -/
def DayScan.step (scan : DayScan) (day : Fin 7) (hour : Fin 24) (active : Bool) : DayScan :=
  match scan.windowStart, active with
  | none, true => { scan with windowStart := some hour }
  | some windowStart, false =>
    { windows := scan.windows ++
        [{ dayOfWeek := day
           startHour := windowStart
           startMin := 0
           endHour := hour
           endMin := 0 }]
      windowStart := none }
  | _, _ => scan

/-- The loop after its first hours. -/
def scanHours (grid : Grid) (day : Fin 7) : (hours : ℕ) → hours ≤ 24 → DayScan
  | 0, _ => { windows := [], windowStart := none }
  | hour + 1, h => (scanHours grid day hour (by omega)).step day ⟨hour, h⟩ (grid day ⟨hour, h⟩)

/-- The windows pushed after the loop, the one still open included. -/
def DayScan.close (scan : DayScan) (day : Fin 7) : List ScheduleWindow :=
  match scan.windowStart with
  | none => scan.windows
  | some windowStart => scan.windows ++
      [{ dayOfWeek := day, startHour := windowStart, startMin := 0, endHour := 23, endMin := 59 }]

def dayWindows (grid : Grid) (day : Fin 7) : List ScheduleWindow :=
  (scanHours grid day 24 (Nat.le_refl 24)).close day

/-- Converts a grid to consolidated windows. -/
def gridToWindows (grid : Grid) : List ScheduleWindow :=
  (List.finRange 7).flatMap (dayWindows grid)

/-- The last hour a window is given in the grid. The source's clamps into the day do nothing to a
field within the bounds of the schema, but for an end at `00:00`. -/
def ScheduleWindow.endH (win : ScheduleWindow) : ℕ :=
  if 0 < (win.endMin : ℕ) then win.endHour else (win.endHour : ℕ) - 1

def markWindow (grid : Grid) (win : ScheduleWindow) : Grid := fun day hour ↦
  if day = win.dayOfWeek ∧ win.startHour ≤ hour ∧ (hour : ℕ) ≤ win.endH then true
  else grid day hour

/-- Expands windows into a grid. -/
def windowsToGrid (windows : List ScheduleWindow) : Grid :=
  windows.foldl markWindow fun _ _ ↦ false

structure CameraScheduleResponse where
  cameraId : CameraId
  mode : RecordingMode
  windows : List ScheduleWindow
  grid : Grid

/-- What the settings report of a camera's stored schedule. -/
def getCameraSchedule (cameraId : CameraId) (existing : CameraScheduleConfig) :
    CameraScheduleResponse where
  cameraId := cameraId
  mode := existing.mode
  windows := existing.windows
  grid := windowsToGrid existing.windows

/-! ### Agreement -/

/-- The schedule of a camera that records in the given windows. -/
def scheduledIn (windows : List ScheduleWindow) : CameraScheduleConfig where
  mode := .scheduled
  windows := windows

/-- A cell of the reported grid is active exactly when the camera is at some minute of its hour. -/
def AgreesWithGrid (windows : List ScheduleWindow) : Prop :=
  ∀ (cameraId : CameraId) (day : Fin 7) (hour : Fin 24),
    (getCameraSchedule cameraId (scheduledIn windows)).grid day hour = true ↔
      ∃ minute, isCameraActiveAt (scheduledIn windows) ⟨day, hour, minute⟩ = true

/-- The windows made of a grid are active at every minute of its active cells and at no minute of
the others, and give the grid back. -/
structure RealisesGrid (grid : Grid) : Prop where
  active : ∀ day hour minute, grid day hour = true →
    isCameraActiveAt (scheduledIn (gridToWindows grid)) ⟨day, hour, minute⟩ = true
  inactive : ∀ day hour minute, grid day hour = false →
    isCameraActiveAt (scheduledIn (gridToWindows grid)) ⟨day, hour, minute⟩ = false
  roundTrip : windowsToGrid (gridToWindows grid) = grid

/-- The hours a window is given in the grid. -/
def ScheduleWindow.Shows (win : ScheduleWindow) (day : Fin 7) (hour : Fin 24) : Prop :=
  day = win.dayOfWeek ∧ win.startHour ≤ hour ∧ (hour : ℕ) ≤ win.endH

/-- The hours an overnight window runs into: those left of its day and those of the next day before
its end. -/
def ScheduleWindow.RunsInto (win : ScheduleWindow) (day : Fin 7) (hour : Fin 24) : Prop :=
  win.endMins < win.startMins ∧
    (day = win.dayOfWeek ∧ win.startHour ≤ hour ∨
      day = win.dayOfWeek + 1 ∧ (hour : ℕ) * 60 < win.endMins)

/-- Every hour that an overnight window runs into is among the hours that some window shows on its
own day, and every hour that a window from one minute to the same minute shows is covered by a
window that is not one of these. -/
structure ShowsItsHours (windows : List ScheduleWindow) : Prop where
  overnight : ∀ win ∈ windows, ∀ day hour, win.RunsInto day hour →
    ∃ other ∈ windows, other.Shows day hour
  empty : ∀ win ∈ windows, win.startMins = win.endMins → ∀ day hour, win.Shows day hour →
    ∃ other ∈ windows, other.RunsInto day hour ∨
      other.startMins < other.endMins ∧ other.Shows day hour

/-! ### The grid of some windows -/

theorem windowsToGrid_iff_of_foldl (windows : List ScheduleWindow) (grid : Grid) (day : Fin 7)
    (hour : Fin 24) : windows.foldl markWindow grid day hour = true ↔
      grid day hour = true ∨ ∃ win ∈ windows, win.Shows day hour := by
  induction windows generalizing grid with
  | nil => simp
  | cons win rest ih =>
    rw [List.foldl_cons, ih]
    by_cases hshows : win.Shows day hour
    · have hmark : markWindow grid win day hour = true := if_pos hshows
      simp [hmark, hshows]
    · have hmark : markWindow grid win day hour = grid day hour := if_neg hshows
      simp [hmark, hshows]

theorem windowsToGrid_iff (windows : List ScheduleWindow) (day : Fin 7) (hour : Fin 24) :
    windowsToGrid windows day hour = true ↔ ∃ win ∈ windows, win.Shows day hour := by
  unfold windowsToGrid
  simpa using windowsToGrid_iff_of_foldl windows (fun _ _ ↦ false) day hour

/-! ### The minutes of some windows -/

theorem isActiveAt_iff (win : ScheduleWindow) (day : Fin 7) (mins : ℕ) :
    win.isActiveAt day (day + 6) mins = true ↔
      day = win.dayOfWeek ∧ win.startMins ≤ mins ∧
          (mins < win.endMins ∨ win.endMins < win.startMins) ∨
        day = win.dayOfWeek + 1 ∧ win.endMins < win.startMins ∧ mins < win.endMins := by
  have hprev : win.dayOfWeek = day + 6 ↔ day = win.dayOfWeek + 1 := by omega
  unfold ScheduleWindow.isActiveAt
  by_cases hday : day = win.dayOfWeek
  · by_cases horder : win.startMins ≤ win.endMins
    · simp only [hday, horder]
      grind
    · grind
  · grind

theorem isCameraActiveAt_iff (windows : List ScheduleWindow) (date : LocalTime) :
    isCameraActiveAt (scheduledIn windows) date = true ↔ ∃ win ∈ windows,
      win.isActiveAt date.day (date.day + 6) ((date.hour : ℕ) * 60 + (date.minute : ℕ)) = true := by
  simp [isCameraActiveAt, scheduledIn]

/-- A window is active at some minute of an hour exactly when it is a daytime window that shows the
hour or an overnight window that runs into it. -/
theorem exists_minute_iff (win : ScheduleWindow) (day : Fin 7) (hour : Fin 24) :
    (∃ minute : Fin 60, win.isActiveAt day (day + 6) ((hour : ℕ) * 60 + (minute : ℕ)) = true) ↔
      win.RunsInto day hour ∨ win.startMins < win.endMins ∧ win.Shows day hour := by
  have hlast : (hour : ℕ) ≤ win.endH ↔ (hour : ℕ) * 60 < win.endMins ∨ win.endMins = 0 ∧
      hour = 0 := by
    unfold ScheduleWindow.endH ScheduleWindow.endMins
    split <;> omega
  have hfirst : win.startHour ≤ hour ↔ win.startMins < (hour : ℕ) * 60 + 60 := by
    unfold ScheduleWindow.startMins
    omega
  unfold ScheduleWindow.RunsInto ScheduleWindow.Shows
  rw [hlast, hfirst]
  constructor
  · rintro ⟨minute, hactive⟩
    rcases (isActiveAt_iff win day _).mp hactive with
      ⟨hday, hstart, hend | hend⟩ | ⟨hday, hend, hmins⟩
    · exact Or.inr ⟨by omega, hday, by omega, by omega⟩
    · exact Or.inl ⟨hend, Or.inl ⟨hday, by omega⟩⟩
    · exact Or.inl ⟨hend, Or.inr ⟨hday, by omega⟩⟩
  · have hwitness : win.startMins < (hour : ℕ) * 60 + 60 →
        ∃ minute : Fin 60, (hour : ℕ) * 60 + minute = max win.startMins (hour * 60) := by
      intro hstart
      refine ⟨⟨max win.startMins (hour * 60) - hour * 60, by omega⟩, ?_⟩
      show (hour : ℕ) * 60 + (max win.startMins (hour * 60) - hour * 60) = _
      omega
    rintro (⟨hover, ⟨hday, hstart⟩ | ⟨hday, hend⟩⟩ | ⟨horder, hday, hstart, hend⟩)
    · obtain ⟨minute, hminute⟩ := hwitness hstart
      exact ⟨minute, (isActiveAt_iff win day _).mpr (Or.inl ⟨hday, by omega, Or.inr hover⟩)⟩
    · exact ⟨0, (isActiveAt_iff win day _).mpr (Or.inr ⟨hday, hover, hend⟩)⟩
    · obtain ⟨minute, hminute⟩ := hwitness hstart
      exact ⟨minute, (isActiveAt_iff win day _).mpr
        (Or.inl ⟨hday, by omega, Or.inl (by omega)⟩)⟩

theorem exists_isCameraActiveAt_iff (windows : List ScheduleWindow) (day : Fin 7) (hour : Fin 24) :
    (∃ minute, isCameraActiveAt (scheduledIn windows) ⟨day, hour, minute⟩ = true) ↔
      ∃ win ∈ windows, win.RunsInto day hour ∨
        win.startMins < win.endMins ∧ win.Shows day hour := by
  simp only [isCameraActiveAt_iff]
  constructor
  · rintro ⟨minute, win, hwin, hactive⟩
    exact ⟨win, hwin, (exists_minute_iff win day hour).mp ⟨minute, hactive⟩⟩
  · rintro ⟨win, hwin, hreach⟩
    obtain ⟨minute, hactive⟩ := (exists_minute_iff win day hour).mpr hreach
    exact ⟨minute, win, hwin, hactive⟩

/-- An overnight window shows no hour but one that it runs into. -/
theorem runsInto_of_shows {win : ScheduleWindow} {day : Fin 7} {hour : Fin 24}
    (hover : win.endMins < win.startMins) (hshows : win.Shows day hour) :
    win.RunsInto day hour := ⟨hover, Or.inl ⟨hshows.1, hshows.2.1⟩⟩

theorem agreesWithGrid_iff (windows : List ScheduleWindow) :
    AgreesWithGrid windows ↔ ShowsItsHours windows := by
  have hcell : AgreesWithGrid windows ↔ ∀ day hour, (∃ win ∈ windows, win.Shows day hour) ↔
      ∃ win ∈ windows, win.RunsInto day hour ∨
        win.startMins < win.endMins ∧ win.Shows day hour := by
    simp only [AgreesWithGrid, getCameraSchedule, exists_isCameraActiveAt_iff]
    exact ⟨fun h day hour ↦ (windowsToGrid_iff windows day hour).symm.trans (h "" day hour),
      fun h _ day hour ↦ (windowsToGrid_iff windows day hour).trans (h day hour)⟩
  rw [hcell]
  constructor
  · intro hagree
    constructor
    · intro win hwin day hour hruns
      exact (hagree day hour).mpr ⟨win, hwin, Or.inl hruns⟩
    · intro win hwin _ day hour hshows
      exact (hagree day hour).mp ⟨win, hwin, hshows⟩
  · intro hshown day hour
    constructor
    · rintro ⟨win, hwin, hshows⟩
      rcases Nat.lt_trichotomy win.startMins win.endMins with horder | horder | horder
      · exact ⟨win, hwin, Or.inr ⟨horder, hshows⟩⟩
      · exact hshown.empty win hwin horder day hour hshows
      · exact ⟨win, hwin, Or.inl (runsInto_of_shows horder hshows)⟩
    · rintro ⟨win, hwin, hruns | ⟨-, hshows⟩⟩
      · exact hshown.overnight win hwin day hour hruns
      · exact ⟨win, hwin, hshows⟩

/-! ### The windows of a grid -/

/-- What the loop over the hours has done after some of them: its windows are whole hours of the day
and, with the open one, cover exactly the active ones among these hours. -/
structure DayScan.Covers (scan : DayScan) (grid : Grid) (day : Fin 7) (hours : ℕ) : Prop where
  ofDay : ∀ win ∈ scan.windows, win.dayOfWeek = day
  fullHours : ∀ win ∈ scan.windows, win.startMin = 0 ∧ win.endMin = 0
  ordered : ∀ win ∈ scan.windows, win.startHour < win.endHour
  ended : ∀ win ∈ scan.windows, (win.endHour : ℕ) < hours
  opened : ∀ start ∈ scan.windowStart, (start : ℕ) < hours
  covers : ∀ hour : Fin 24, (hour : ℕ) < hours → (grid day hour = true ↔
    (∃ win ∈ scan.windows, win.startHour ≤ hour ∧ hour < win.endHour) ∨
      ∃ start ∈ scan.windowStart, start ≤ hour)

theorem DayScan.Covers.step {scan : DayScan} {grid : Grid} {day : Fin 7} {hour : Fin 24}
    (h : scan.Covers grid day hour) :
    (scan.step day hour (grid day hour)).Covers grid day (hour + 1) := by
  have hnotEnded : ∀ win ∈ scan.windows, ¬ hour < win.endHour := by
    intro win hwin hlt
    have hended := h.ended win hwin
    omega
  have hended : ∀ win ∈ scan.windows, (win.endHour : ℕ) < hour + 1 := by
    intro win hwin
    exact Nat.lt_succ_of_lt (h.ended win hwin)
  have hearlier : ∀ other : Fin 24, (other : ℕ) < hour + 1 → other = hour ∨ (other : ℕ) < hour := by
    omega
  unfold DayScan.step
  cases hopen : scan.windowStart with
  | none =>
    cases hactive : grid day hour with
    | true =>
      refine ⟨h.ofDay, h.fullHours, h.ordered, hended, by simp, ?_⟩
      intro other hother
      rcases hearlier other hother with rfl | hlt
      · simp [hactive]
      · have hcovers := h.covers other hlt
        have hbefore : ¬ hour ≤ other := by omega
        simpa [hopen, hbefore] using hcovers
    | false =>
      refine ⟨h.ofDay, h.fullHours, h.ordered, hended, by simp [hopen], ?_⟩
      intro other hother
      rcases hearlier other hother with rfl | hlt
      · simp only [hactive, hopen]
        grind
      · exact h.covers other hlt
  | some windowStart =>
    have hstart : (windowStart : ℕ) < hour := h.opened windowStart hopen
    cases hactive : grid day hour with
    | true =>
      refine ⟨h.ofDay, h.fullHours, h.ordered, hended, ?_, ?_⟩
      · intro start hmem
        exact Nat.lt_succ_of_lt (h.opened start hmem)
      · intro other hother
        rcases hearlier other hother with rfl | hlt
        · have hle : windowStart ≤ other := by omega
          simp [hactive, hopen, hle]
        · exact h.covers other hlt
    | false =>
      refine ⟨?_, ?_, ?_, ?_, by simp, ?_⟩
      · simpa [or_imp, forall_and] using h.ofDay
      · simpa [or_imp, forall_and] using h.fullHours
      · have hordered : windowStart < hour := hstart
        simpa [or_imp, forall_and, hordered] using h.ordered
      · simpa [or_imp, forall_and] using hended
      · intro other hother
        rcases hearlier other hother with rfl | hlt
        · simp only [hactive]
          grind
        · have hcovers := h.covers other hlt
          have hbefore : other < hour := hlt
          rw [hcovers]
          simp [hopen, or_and_right, exists_or, hbefore]

theorem covers_scanHours (grid : Grid) (day : Fin 7) (hours : ℕ) (h : hours ≤ 24) :
    (scanHours grid day hours h).Covers grid day hours := by
  induction hours with
  | zero => constructor <;> simp [scanHours]
  | succ hour ih => exact (ih (by omega)).step

theorem endH_of_fullHour {win : ScheduleWindow} (hend : win.endMin = 0) :
    win.endH = (win.endHour : ℕ) - 1 := by
  simp [ScheduleWindow.endH, hend]

theorem endH_of_lastMinute {win : ScheduleWindow} (hhour : win.endHour = 23)
    (hend : win.endMin = 59) : win.endH = 23 := by
  unfold ScheduleWindow.endH
  rw [hend, hhour]
  rfl

namespace DayScan.Covers

variable {scan : DayScan} {grid : Grid} {day : Fin 7}

theorem close_cases {hours : ℕ} (h : scan.Covers grid day hours) (win : ScheduleWindow)
    (hwin : win ∈ scan.close day) : win.dayOfWeek = day ∧ win.startMin = 0 ∧
      (win.startHour < win.endHour ∧ win.endMin = 0 ∨ win.endHour = 23 ∧ win.endMin = 59) := by
  have hpushed : win ∈ scan.windows → win.dayOfWeek = day ∧ win.startMin = 0 ∧
      (win.startHour < win.endHour ∧ win.endMin = 0 ∨ win.endHour = 23 ∧ win.endMin = 59) :=
    fun hwin ↦ ⟨h.ofDay win hwin, (h.fullHours win hwin).1,
      Or.inl ⟨h.ordered win hwin, (h.fullHours win hwin).2⟩⟩
  unfold close at hwin
  cases hopen : scan.windowStart with
  | none => exact hpushed (by simpa only [hopen] using hwin)
  | some windowStart =>
    simp only [hopen, List.mem_append, List.mem_singleton] at hwin
    rcases hwin with hwin | rfl
    · exact hpushed hwin
    · exact ⟨rfl, rfl, Or.inr ⟨rfl, rfl⟩⟩

theorem close_shows_iff (h : scan.Covers grid day 24) (hour : Fin 24) :
    (∃ win ∈ scan.close day, win.startHour ≤ hour ∧ (hour : ℕ) ≤ win.endH) ↔
      grid day hour = true := by
  have hpushed : (∃ win ∈ scan.windows, win.startHour ≤ hour ∧ (hour : ℕ) ≤ win.endH) ↔
      ∃ win ∈ scan.windows, win.startHour ≤ hour ∧ hour < win.endHour := by
    refine exists_congr fun win ↦ and_congr_right fun hwin ↦ and_congr_right fun _ ↦ ?_
    have hordered := h.ordered win hwin
    have hendH := endH_of_fullHour (h.fullHours win hwin).2
    omega
  rw [h.covers hour hour.isLt, ← hpushed, close]
  cases hopen : scan.windowStart with
  | none => simp
  | some windowStart =>
    have hlast : (hour : ℕ) ≤ 23 := by omega
    simp only [List.mem_append, List.mem_singleton, or_and_right, exists_or, exists_eq_left,
      Option.mem_def, Option.some.injEq, exists_eq_left']
    rw [endH_of_lastMinute rfl rfl, and_iff_left hlast]

end DayScan.Covers

/-- The windows of a day go from a full hour to a later one, or to the last minute of the day. -/
theorem dayWindows_cases (grid : Grid) (day : Fin 7) (win : ScheduleWindow)
    (hwin : win ∈ dayWindows grid day) : win.dayOfWeek = day ∧ win.startMin = 0 ∧
      (win.startHour < win.endHour ∧ win.endMin = 0 ∨ win.endHour = 23 ∧ win.endMin = 59) :=
  (covers_scanHours grid day 24 (Nat.le_refl 24)).close_cases win hwin

/-- Exactly the active hours of a day are shown by its windows. -/
theorem shows_dayWindows_iff (grid : Grid) (day : Fin 7) (hour : Fin 24) :
    (∃ win ∈ dayWindows grid day, win.startHour ≤ hour ∧ (hour : ℕ) ≤ win.endH) ↔
      grid day hour = true :=
  (covers_scanHours grid day 24 (Nat.le_refl 24)).close_shows_iff hour

/-- The windows of a day cover the minutes of its active hours, but for its very last one. -/
theorem minutes_dayWindows_iff (grid : Grid) (day : Fin 7) (hour : Fin 24) (minute : Fin 60) :
    (∃ win ∈ dayWindows grid day, win.startMins ≤ (hour : ℕ) * 60 + (minute : ℕ) ∧
      (hour : ℕ) * 60 + (minute : ℕ) < win.endMins) ↔
      grid day hour = true ∧ ¬ (hour = 23 ∧ minute = 59) := by
  have hwindow : ∀ win ∈ dayWindows grid day,
      (win.startMins ≤ (hour : ℕ) * 60 + (minute : ℕ) ∧
        (hour : ℕ) * 60 + (minute : ℕ) < win.endMins ↔
        (win.startHour ≤ hour ∧ (hour : ℕ) ≤ win.endH) ∧ ¬ (hour = 23 ∧ minute = 59)) := by
    intro win hwin
    obtain ⟨-, hstart, hend⟩ := dayWindows_cases grid day win hwin
    have hzero : (win.startMin : ℕ) = 0 := by simp [hstart]
    have hlastHour : hour = 23 ↔ (hour : ℕ) = 23 := Fin.ext_iff
    have hlastMinute : minute = 59 ↔ (minute : ℕ) = 59 := Fin.ext_iff
    unfold ScheduleWindow.startMins ScheduleWindow.endMins
    rcases hend with ⟨horder, hend⟩ | ⟨hhour, hend⟩
    · have hendMin : (win.endMin : ℕ) = 0 := by simp [hend]
      rw [endH_of_fullHour hend]
      omega
    · have hendHour : (win.endHour : ℕ) = 23 := congrArg Fin.val hhour
      have hendMin : (win.endMin : ℕ) = 59 := congrArg Fin.val hend
      rw [endH_of_lastMinute hhour hend]
      omega
  rw [← shows_dayWindows_iff]
  constructor
  · rintro ⟨win, hwin, hmins⟩
    obtain ⟨hshows, hlast⟩ := (hwindow win hwin).mp hmins
    exact ⟨⟨win, hwin, hshows⟩, hlast⟩
  · rintro ⟨⟨win, hwin, hshows⟩, hlast⟩
    exact ⟨win, hwin, (hwindow win hwin).mpr ⟨hshows, hlast⟩⟩

theorem mem_gridToWindows_iff (grid : Grid) (win : ScheduleWindow) :
    win ∈ gridToWindows grid ↔ win ∈ dayWindows grid win.dayOfWeek := by
  simp only [gridToWindows, List.mem_flatMap, List.mem_finRange, true_and]
  constructor
  · rintro ⟨day, hwin⟩
    rwa [(dayWindows_cases grid day win hwin).1]
  · exact fun hwin ↦ ⟨win.dayOfWeek, hwin⟩

/-- The windows of a grid are active at every minute of its active hours, but for the last minute of
a day, and at no other minute. -/
theorem isCameraActiveAt_gridToWindows (grid : Grid) (day : Fin 7) (hour : Fin 24)
    (minute : Fin 60) :
    isCameraActiveAt (scheduledIn (gridToWindows grid)) ⟨day, hour, minute⟩ = true ↔
      grid day hour = true ∧ ¬ (hour = 23 ∧ minute = 59) := by
  have hactive : ∀ win ∈ gridToWindows grid,
      (win.isActiveAt day (day + 6) ((hour : ℕ) * 60 + (minute : ℕ)) = true ↔
        day = win.dayOfWeek ∧ win.startMins ≤ (hour : ℕ) * 60 + (minute : ℕ) ∧
          (hour : ℕ) * 60 + (minute : ℕ) < win.endMins) := by
    intro win hwin
    have hday := (mem_gridToWindows_iff grid win).mp hwin
    have horder : win.startMins ≤ win.endMins := by
      obtain ⟨-, hstart, ⟨hlt, hend⟩ | ⟨hhour, hend⟩⟩ := dayWindows_cases grid _ win hday
      · have hzero : (win.startMin : ℕ) = 0 := by simp [hstart]
        unfold ScheduleWindow.startMins ScheduleWindow.endMins
        omega
      · have hzero : (win.startMin : ℕ) = 0 := by simp [hstart]
        have hendHour : (win.endHour : ℕ) = 23 := congrArg Fin.val hhour
        unfold ScheduleWindow.startMins ScheduleWindow.endMins
        omega
    rw [isActiveAt_iff]
    grind
  rw [isCameraActiveAt_iff, ← minutes_dayWindows_iff]
  constructor
  · rintro ⟨win, hwin, hmins⟩
    obtain ⟨hday, hmins⟩ := (hactive win hwin).mp hmins
    exact ⟨win, hday ▸ (mem_gridToWindows_iff grid win).mp hwin, hmins⟩
  · rintro ⟨win, hwin, hmins⟩
    have hday : win.dayOfWeek = day := (dayWindows_cases grid day win hwin).1
    have hmem : win ∈ gridToWindows grid := (mem_gridToWindows_iff grid win).mpr (hday ▸ hwin)
    exact ⟨win, hmem, (hactive win hmem).mpr ⟨hday.symm, hmins⟩⟩

/-- A grid comes back from its windows. -/
theorem windowsToGrid_gridToWindows (grid : Grid) :
    windowsToGrid (gridToWindows grid) = grid := by
  funext day hour
  rw [Bool.eq_iff_iff, windowsToGrid_iff, ← shows_dayWindows_iff]
  constructor
  · rintro ⟨win, hwin, rfl, hshows⟩
    exact ⟨win, (mem_gridToWindows_iff grid win).mp hwin, hshows⟩
  · rintro ⟨win, hwin, hshows⟩
    obtain rfl : win.dayOfWeek = day := (dayWindows_cases grid day win hwin).1
    exact ⟨win, (mem_gridToWindows_iff grid win).mpr hwin, rfl, hshows⟩

theorem realisesGrid_iff (grid : Grid) : RealisesGrid grid ↔ ∀ day, grid day 23 = false := by
  constructor
  · intro hrealises day
    by_contra hcell
    have hlast := hrealises.active day 23 59 (by simpa using hcell)
    rw [isCameraActiveAt_gridToWindows] at hlast
    exact hlast.2 ⟨rfl, rfl⟩
  · intro hlate
    constructor
    · intro day hour minute hcell
      rw [isCameraActiveAt_gridToWindows]
      refine ⟨hcell, ?_⟩
      rintro ⟨rfl, -⟩
      rw [hlate day] at hcell
      contradiction
    · intro day hour minute hcell
      rw [Bool.eq_false_iff, ne_eq, isCameraActiveAt_gridToWindows, hcell]
      simp
    · exact windowsToGrid_gridToWindows grid

/-- The grid of some windows agrees with the scheduler exactly when the hours that their overnight
windows run into, and those that their empty windows show, are shown and covered by others; the
windows of a grid do what it says exactly when no last hour of a day is active in it. -/
theorem weeklyGridAgrees_iff (windows : List ScheduleWindow) (grid : Grid) :
    (AgreesWithGrid windows ↔ ShowsItsHours windows) ∧
      (RealisesGrid grid ↔ ∀ day, grid day 23 = false) :=
  ⟨agreesWithGrid_iff windows, realisesGrid_iff grid⟩

/-- Sunday from 22:00 to 06:00. -/
def overnightWindow : ScheduleWindow where
  dayOfWeek := 0
  startHour := 22
  startMin := 0
  endHour := 6
  endMin := 0

/-- The night of an overnight window is not in the grid, and the last minute of a week that is
active throughout is not recorded. -/
theorem not_weeklyGridAgrees_overnight :
    ¬ ((∀ windows, AgreesWithGrid windows) ∧ ∀ grid, RealisesGrid grid) ∧
      ¬ AgreesWithGrid [overnightWindow] ∧ ¬ RealisesGrid fun _ _ ↦ true := by
  have hovernight : ¬ AgreesWithGrid [overnightWindow] := by
    intro hagree
    have hcell := (hagree "" 0 22).mpr ⟨0, by decide⟩
    exact absurd hcell (by decide)
  have hlast : ¬ RealisesGrid fun _ _ ↦ true := by
    intro hrealises
    have hlate := (realisesGrid_iff _).mp hrealises 0
    contradiction
  exact ⟨fun h ↦ hovernight (h.1 _), hovernight, hlast⟩

end VmsLite.Schedule
