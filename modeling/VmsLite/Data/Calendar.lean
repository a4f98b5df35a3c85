import Mathlib.Algebra.Group.Int.Defs
import Mathlib.Algebra.Order.Group.Int
import Mathlib.Logic.Function.Iterate
import Mathlib.Tactic.SplitIfs

/-!
# The calendar

The dates of the Gregorian calendar, as a count of days before or after the first of January 1970.
Years before the calendar was introduced are counted as if it had been there.
-/

set_option autoImplicit false

namespace VmsLite.Data

structure Date where
  year : ℤ
  month : ℕ
  day : ℕ
  deriving DecidableEq, Repr

def isLeap (year : ℤ) : Bool := year % 4 = 0 && (year % 100 ≠ 0 || year % 400 = 0)

def daysInMonth (year : ℤ) (month : ℕ) : ℕ :=
  match month with
  | 2 => if isLeap year then 29 else 28
  | 4 | 6 | 9 | 11 => 30
  | _ => 31

theorem daysInMonth_le (year : ℤ) (month : ℕ) : daysInMonth year month ≤ 31 := by
  unfold daysInMonth
  split
  · split_ifs <;> decide
  all_goals decide

theorem daysInMonth_pos (year : ℤ) (month : ℕ) : 1 ≤ daysInMonth year month := by
  unfold daysInMonth
  split
  · split_ifs <;> decide
  all_goals decide

namespace Date

def epoch : Date := ⟨1970, 1, 1⟩

/-- The date of the next day. -/
def next (date : Date) : Date :=
  if date.day < daysInMonth date.year date.month then { date with day := date.day + 1 }
  else if date.month < 12 then { date with month := date.month + 1, day := 1 }
  else { year := date.year + 1, month := 1, day := 1 }

/-- The date of the day before. -/
def prev (date : Date) : Date :=
  if 1 < date.day then { date with day := date.day - 1 }
  else if 1 < date.month then
    { date with month := date.month - 1, day := daysInMonth date.year (date.month - 1) }
  else { year := date.year - 1, month := 12, day := 31 }

/-- The date of a day, counted from the epoch. -/
def ofDay : ℤ → Date
  | .ofNat days => next^[days] epoch
  | .negSucc days => prev^[days + 1] epoch

structure IsValid (date : Date) : Prop where
  month_pos : 1 ≤ date.month
  month_le : date.month ≤ 12
  day_pos : 1 ≤ date.day
  day_le : date.day ≤ daysInMonth date.year date.month

theorem IsValid.next {date : Date} (hdate : date.IsValid) : date.next.IsValid := by
  obtain ⟨hmonth, hmonth', hday, hday'⟩ := hdate
  unfold Date.next
  split_ifs with hinside hyear
  · exact ⟨hmonth, hmonth', Nat.le_add_left _ _, hinside⟩
  · exact ⟨Nat.le_add_left _ _, hyear, Nat.le_refl 1, daysInMonth_pos _ _⟩
  · exact ⟨Nat.le_refl 1, (by decide : 1 ≤ 12), Nat.le_refl 1, daysInMonth_pos _ _⟩

theorem IsValid.prev {date : Date} (hdate : date.IsValid) : date.prev.IsValid := by
  obtain ⟨hmonth, hmonth', hday, hday'⟩ := hdate
  unfold Date.prev
  split_ifs with hinside hyear
  · exact ⟨hmonth, hmonth', Nat.le_sub_one_of_lt hinside, (Nat.sub_le _ _).trans hday'⟩
  · exact ⟨Nat.le_sub_one_of_lt hyear, (Nat.sub_le _ _).trans hmonth', daysInMonth_pos _ _,
      Nat.le_refl _⟩
  · exact ⟨(by decide : 1 ≤ 12), Nat.le_refl 12, (by decide : 1 ≤ 31), Nat.le_refl 31⟩

theorem next_prev {date : Date} (hdate : date.IsValid) : date.prev.next = date := by
  obtain ⟨year, month, day⟩ := date
  obtain ⟨hmonth, hmonth', hday, hday'⟩ := hdate
  dsimp only at hmonth hmonth' hday hday'
  unfold prev
  dsimp only
  split_ifs with hinside hyear
  · have hearlier : day - 1 < daysInMonth year month := by omega
    unfold next
    dsimp only
    rw [if_pos hearlier, Nat.sub_add_cancel hday]
  · have hfirst : day = 1 := by omega
    have hmonth : month - 1 < 12 := by omega
    unfold next
    dsimp only
    rw [if_neg (lt_irrefl _), if_pos hmonth, Nat.sub_add_cancel hyear.le, hfirst]
  · have hfirst : day = 1 := by omega
    have hjanuary : month = 1 := by omega
    unfold next
    dsimp only
    have hdecember : daysInMonth (year - 1) 12 = 31 := rfl
    rw [hdecember, if_neg (lt_irrefl _), if_neg (lt_irrefl _), sub_add_cancel, hfirst, hjanuary]

theorem isValid_epoch : epoch.IsValid :=
  ⟨Nat.le_refl 1, (by decide : 1 ≤ 12), Nat.le_refl 1, (by decide : 1 ≤ 31)⟩

theorem isValid_ofDay (day : ℤ) : (ofDay day).IsValid := by
  have hnext : ∀ days : ℕ, (Date.next^[days] epoch).IsValid := by
    intro days
    induction days with
    | zero => exact isValid_epoch
    | succ days ih =>
      rw [Function.iterate_succ_apply']
      exact ih.next
  have hprev : ∀ days : ℕ, (Date.prev^[days] epoch).IsValid := by
    intro days
    induction days with
    | zero => exact isValid_epoch
    | succ days ih =>
      rw [Function.iterate_succ_apply']
      exact ih.prev
  cases day with
  | ofNat days => exact hnext days
  | negSucc days => exact hprev (days + 1)

/-- Each day has the date after the one of the day before. -/
theorem ofDay_add_one (day : ℤ) : ofDay (day + 1) = (ofDay day).next := by
  cases day with
  | ofNat days => exact Function.iterate_succ_apply' _ _ _
  | negSucc days =>
    have hbefore : ofDay (.negSucc days) = (Date.prev^[days] epoch).prev :=
      Function.iterate_succ_apply' _ _ _
    have hlater : ofDay (Int.negSucc days + 1) = Date.prev^[days] epoch := by
      cases days with
      | zero => rfl
      | succ days => rfl
    have hvalid := isValid_ofDay (Int.negSucc days + 1)
    rw [hlater] at hvalid
    rw [hbefore, hlater, next_prev hvalid]

/-- Earlier in the year, the month and the day, in this order. -/
def Before (first second : Date) : Prop :=
  first.year < second.year ∨ first.year = second.year ∧
    (first.month < second.month ∨ first.month = second.month ∧ first.day < second.day)

theorem before_next (date : Date) : date.Before date.next := by
  unfold Before next
  split_ifs with hinside hyear
  · exact Or.inr ⟨rfl, Or.inr ⟨rfl, Nat.lt_succ_self _⟩⟩
  · exact Or.inr ⟨rfl, Or.inl (Nat.lt_succ_self _)⟩
  · exact Or.inl (Int.lt_succ _)

theorem Before.trans {first second third : Date} (hfirst : first.Before second)
    (hsecond : second.Before third) : first.Before third := by
  unfold Before at *
  omega

theorem before_ofDay {day later : ℤ} (hlt : day < later) : (ofDay day).Before (ofDay later) := by
  induction later, (show day + 1 ≤ later from hlt) using Int.leInduction with
  | base =>
    rw [ofDay_add_one]
    exact before_next _
  | succ later hle ih =>
    rw [ofDay_add_one]
    exact (ih hle).trans (before_next _)

end Date

end VmsLite.Data
