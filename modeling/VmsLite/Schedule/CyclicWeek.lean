import Mathlib.Data.ZMod.Basic
import VmsLite.Schedule.WeeklyGrid

/-!
# The cyclic week

What the windows of a schedule mean: the minutes of a week that comes round, as the union of
half-open intervals, one for each window. The scheduler takes a camera to be active at these minutes
and at no others (`isCameraActiveAt_iff_mem_activeMinutes`).
-/

set_option autoImplicit false

namespace VmsLite.Schedule

/-- The minutes of a week, where the last minute of Saturday is followed by the first of Sunday. -/
abbrev WeekMinute := ZMod 10080

/-- The minutes from one count of minutes up to another, as they fall in the week. -/
def weekInterval (first last : ℕ) : Set WeekMinute :=
  (fun minute : ℕ ↦ (minute : WeekMinute)) '' Set.Ico first last

namespace ScheduleWindow

variable (win : ScheduleWindow)

def weekStart : ℕ := win.dayOfWeek * 1440 + win.startMins

/-- The end of a window, on the next day when it is smaller than the start. -/
def weekEnd : ℕ :=
  if win.endMins < win.startMins then (win.dayOfWeek + 1) * 1440 + win.endMins
  else win.dayOfWeek * 1440 + win.endMins

end ScheduleWindow

/-- The union of the windows. -/
def activeMinutes (windows : List ScheduleWindow) : Set WeekMinute :=
  ⋃ win ∈ windows, weekInterval win.weekStart win.weekEnd

def LocalTime.minuteOfDay (date : LocalTime) : ℕ := date.hour * 60 + date.minute

def LocalTime.minuteOfWeek (date : LocalTime) : WeekMinute :=
  (date.day * 1440 + date.minuteOfDay : ℕ)

theorem mem_weekInterval {first last minute : ℕ} :
    (minute : WeekMinute) ∈ weekInterval first last ↔
      ∃ other, first ≤ other ∧ other < last ∧ other % 10080 = minute % 10080 := by
  unfold weekInterval
  simp only [Set.mem_image, Set.mem_Ico, ZMod.natCast_eq_natCast_iff', and_assoc]

/-- A window is active at the minutes of its interval. -/
theorem isActiveAt_iff_mem_weekInterval (win : ScheduleWindow) (date : LocalTime) :
    win.isActiveAt date.day (date.day + 6) date.minuteOfDay = true ↔
      date.minuteOfWeek ∈ weekInterval win.weekStart win.weekEnd := by
  obtain ⟨day, hour, minute⟩ := date
  have hmins : (hour : ℕ) * 60 + minute < 1440 := by omega
  have hstart : win.startMins < 1440 := by unfold ScheduleWindow.startMins; omega
  have hend : win.endMins < 1440 := by unfold ScheduleWindow.endMins; omega
  rw [isActiveAt_iff, LocalTime.minuteOfWeek, mem_weekInterval]
  unfold LocalTime.minuteOfDay ScheduleWindow.weekStart ScheduleWindow.weekEnd
  dsimp only
  constructor
  · rintro (⟨rfl, hfrom, huntil | hover⟩ | ⟨hnext, hover, huntil⟩)
    · -- the window of today
      refine ⟨_, Nat.add_le_add_left hfrom _, ?_, rfl⟩
      split_ifs <;> omega
    · refine ⟨_, Nat.add_le_add_left hfrom _, ?_, rfl⟩
      rw [if_pos hover]
      omega
    · -- the window of yesterday, which may be Saturday
      refine ⟨(win.dayOfWeek + 1) * 1440 + (hour * 60 + minute), by omega, ?_, by omega⟩
      rw [if_pos hover]
      omega
  · rintro ⟨other, hfrom, huntil, hsame⟩
    split_ifs at huntil with hover
    · by_cases hday : day = win.dayOfWeek
      · exact Or.inl ⟨hday, by omega, Or.inr hover⟩
      · exact Or.inr ⟨by omega, hover, by omega⟩
    · exact Or.inl ⟨by omega, by omega, Or.inl (by omega)⟩

/-- A camera on a schedule is active at the minutes of its windows, and at no others. -/
theorem isCameraActiveAt_iff_mem_activeMinutes (windows : List ScheduleWindow) (date : LocalTime) :
    isCameraActiveAt (scheduledIn windows) date = true ↔ date.minuteOfWeek ∈
        activeMinutes windows := by
  rw [isCameraActiveAt_iff]
  unfold activeMinutes
  simp only [Set.mem_iUnion, exists_prop]
  exact exists_congr fun win ↦ and_congr_right fun _ ↦ isActiveAt_iff_mem_weekInterval win date

end VmsLite.Schedule
