import Mathlib.Data.List.TakeWhile
import Mathlib.Tactic.Ring
import Mathlib.Tactic.IntervalCases
import VmsLite.Data.Calendar
import VmsLite.Data.FixedDigits
import VmsLite.Recordings.SegmentIngest

/-!
# Names of segments

MediaMTX names a segment by the instant at which it starts, in UTC, to the microsecond. An instant
is a count of microseconds since 1970. The start time that `parseSegmentFileTime` reads off a name
is the instant rounded up to the millisecond, and names are ordered as the instants are
(`segmentNames_agree`).
-/

set_option autoImplicit false

namespace VmsLite.Recordings

open VmsLite.Data SegmentIngest

/-! ### The calendar of `Date.UTC` -/

/-- The days from 1970-01-01 to a date, as `Date.UTC` counts them. -/
def utcDays (date : Date) : ℤ := daysToMonth (12 * date.year + (date.month - 1)) + date.day - 1

/-- The days of whole years, from one first of March to another. -/
def daysToYear (year : ℤ) : ℤ := 365 * year + year / 4 - year / 100 + year / 400

theorem daysToYear_eq (year : ℤ) :
    year / 400 * 146097 + (year - year / 400 * 400) * 365 + (year - year / 400 * 400) / 4 -
      (year - year / 400 * 400) / 100 = daysToYear year := by
  unfold daysToYear
  omega

/-- The months from March on, and those before it, which count with the year before. -/
theorem daysToMonth_eq (year : ℤ) {month : ℤ} (hmonth : 0 ≤ month) (hmonth' : month < 12) :
    daysToMonth (12 * year + month) =
      if month ≤ 1 then daysToYear (year - 1) + (153 * (month + 10) + 2) / 5 - 719468
      else daysToYear year + (153 * (month - 2) + 2) / 5 - 719468 := by
  have hmod : (12 * year + month) % 12 = month := by omega
  have hdiv : (12 * year + month) / 12 = year := by omega
  unfold daysToMonth
  rw [hmod, hdiv]
  dsimp only
  split_ifs with hearly hearly' hearly'
  · rw [daysToYear_eq, add_assoc month 1 9]
    rfl
  · omega
  · omega
  · rw [sub_zero, daysToYear_eq, add_assoc month 1 (-3)]
    rfl

theorem isLeap_iff (year : ℤ) :
    isLeap year = true ↔ year % 4 = 0 ∧ (year % 100 ≠ 0 ∨ year % 400 = 0) := by
  simp [isLeap]

/-- A year has its leap day before its first of March. -/
theorem daysToYear_sub_one (year : ℤ) :
    daysToYear year = daysToYear (year - 1) + (if isLeap year then 366 else 365) := by
  have hfour : (year - 1) / 4 = year / 4 - (if year % 4 = 0 then 1 else 0) := by
    split_ifs with hyear <;> omega
  have hhundred : (year - 1) / 100 = year / 100 - (if year % 100 = 0 then 1 else 0) := by
    split_ifs with hyear <;> omega
  have hfourHundred : (year - 1) / 400 = year / 400 - (if year % 400 = 0 then 1 else 0) := by
    split_ifs with hyear <;> omega
  unfold daysToYear
  rw [hfour, hhundred, hfourHundred]
  simp only [isLeap_iff]
  split_ifs <;> omega

/-- The months of `Date.UTC` have as many days as those of the calendar. -/
theorem daysToMonth_succ (year : ℤ) {month : ℕ} (hmonth : 1 ≤ month) (hmonth' : month ≤ 12) :
    daysToMonth (12 * year + month) =
      daysToMonth (12 * year + (month - 1)) + daysInMonth year month := by
  have hbefore := daysToMonth_eq year (by omega : (0 : ℤ) ≤ month - 1) (by omega)
  rw [hbefore]
  rcases Nat.lt_or_eq_of_le hmonth' with hinside | rfl
  · have hafter := daysToMonth_eq year (by omega : (0 : ℤ) ≤ month) (by omega)
    rw [hafter]
    by_cases hfebruary : month = 2
    · -- The year of the first of March begins behind the leap day
      subst hfebruary
      rw [if_neg (by decide), if_pos (by decide), daysToYear_sub_one, daysInMonth]
      split_ifs <;> omega
    · interval_cases month <;> simp [daysInMonth] at hfebruary ⊢ <;> omega
  · have hnext : 12 * year + (12 : ℕ) = 12 * (year + 1) + 0 := by omega
    rw [hnext, daysToMonth_eq (year + 1) le_rfl (by decide), if_pos (by decide),
      if_neg (by decide), add_sub_cancel_right, daysInMonth]
    · omega
    all_goals decide

theorem utcDays_next {date : Date} (hdate : date.IsValid) :
    utcDays date.next = utcDays date + 1 := by
  have hmonth := daysToMonth_succ date.year hdate.month_pos hdate.month_le
  have hlast := hdate.day_le
  unfold Date.next
  split_ifs with hinside hyear
  · unfold utcDays
    push_cast
    ring
  · -- The last day of a month
    have hday : date.day = daysInMonth date.year date.month := by omega
    have hindex : ((date.month + 1 : ℕ) : ℤ) - 1 = date.month := by
      push_cast
      ring
    unfold utcDays
    dsimp only
    rw [hindex, hmonth, hday]
    push_cast
    ring
  · have hday : date.day = daysInMonth date.year date.month := by omega
    have hdecember : date.month = 12 := Nat.le_antisymm hdate.month_le (Nat.le_of_not_lt hyear)
    have hindex : 12 * (date.year + 1) + ((1 : ℕ) - 1) = 12 * date.year + date.month := by
      rw [hdecember]
      push_cast
      ring
    unfold utcDays
    dsimp only
    rw [hindex, hmonth, hday]
    push_cast
    ring

/-- `Date.UTC` counts the days as the calendar does. -/
theorem utcDays_ofDay (day : ℤ) : utcDays (Date.ofDay day) = day := by
  have hepoch : utcDays Date.epoch = 0 := by decide
  have hsucc : ∀ day, utcDays (Date.ofDay (day + 1)) = utcDays (Date.ofDay day) + 1 := by
    intro day
    rw [Date.ofDay_add_one, utcDays_next (Date.isValid_ofDay day)]
  induction day using Int.induction_on with
  | zero => exact hepoch
  | succ day ih => rw [hsucc, ih]
  | pred day ih =>
    have hday := hsucc (-(day : ℤ) - 1)
    rw [sub_add_cancel, ih] at hday
    omega

/-! ### Names -/

def microsPerDay : ℤ := 86400000000

/-- An instant of the years 100 to 9999, in microseconds since 1970. -/
structure Instant where
  micros : ℤ
  le_year : 100 ≤ (Date.ofDay (micros / microsPerDay)).year
  year_le : (Date.ofDay (micros / microsPerDay)).year ≤ 9999

namespace Instant

def date (instant : Instant) : Date := Date.ofDay (instant.micros / microsPerDay)

/-- The microseconds of the day. -/
def timeOfDay (instant : Instant) : ℕ := (instant.micros % microsPerDay).toNat

def segmentTime (instant : Instant) : SegmentTime where
  year := instant.date.year.toNat
  month := instant.date.month
  day := instant.date.day
  hour := instant.timeOfDay / 3600000000
  minute := instant.timeOfDay / 60000000 % 60
  second := instant.timeOfDay / 1000000 % 60
  micros := fixedDigits 6 (instant.timeOfDay % 1000000)

end Instant

/-- `%Y-%m-%d_%H-%M-%S-%f`. -/
def SegmentTime.text (time : SegmentTime) : List Char :=
  fixedDigits 4 time.year ++ '-' :: (fixedDigits 2 time.month ++ '-' :: (fixedDigits 2 time.day ++
    '_' :: (fixedDigits 2 time.hour ++ '-' :: (fixedDigits 2 time.minute ++
      '-' :: (fixedDigits 2 time.second ++ '-' :: time.micros)))))

/-- The name of the file that MediaMTX starts at an instant. -/
def segmentName (instant : Instant) : String :=
  String.ofList (instant.segmentTime.text ++ ['.', 'm', 'p', '4'])

namespace Instant

theorem isValid_date (instant : Instant) : instant.date.IsValid := Date.isValid_ofDay _

theorem micros_eq (instant : Instant) :
    instant.micros = utcDays instant.date * microsPerDay + instant.timeOfDay := by
  have hnonneg : 0 ≤ instant.micros % microsPerDay := Int.emod_nonneg _ (by decide)
  unfold timeOfDay date
  rw [utcDays_ofDay, Int.toNat_of_nonneg hnonneg, Int.mul_comm]
  exact (Int.mul_ediv_add_emod _ _).symm

theorem timeOfDay_lt (instant : Instant) : instant.timeOfDay < 86400000000 := by
  have hlt : instant.micros % microsPerDay < microsPerDay := Int.emod_lt_of_pos _ (by decide)
  unfold timeOfDay
  unfold microsPerDay at *
  omega

/-- The year of an instant takes four digits. -/
theorem fits_year (instant : Instant) : Fits 4 instant.date.year.toNat := by
  have hyear : instant.date.year ≤ 9999 := instant.year_le
  exact fits_four (by omega)

theorem fits_month (instant : Instant) : Fits 2 instant.date.month :=
  fits_two (lt_of_le_of_lt instant.isValid_date.month_le (by decide))

theorem fits_day (instant : Instant) : Fits 2 instant.date.day :=
  fits_two (lt_of_le_of_lt (instant.isValid_date.day_le.trans (daysInMonth_le _ _)) (by decide))

theorem fits_hour (instant : Instant) : Fits 2 (instant.timeOfDay / 3600000000) := by
  have htime := instant.timeOfDay_lt
  exact fits_two (by omega)

theorem fits_minute (instant : Instant) : Fits 2 (instant.timeOfDay / 60000000 % 60) :=
  fits_two (by omega)

theorem fits_second (instant : Instant) : Fits 2 (instant.timeOfDay / 1000000 % 60) :=
  fits_two (by omega)

theorem fits_micros (instant : Instant) : Fits 6 (instant.timeOfDay % 1000000) :=
  fits_six (Nat.mod_lt _ (by decide))

end Instant

/-! ### Reading a name -/

theorem digitValue_fixedDigits {width value : ℕ} (hvalue : Fits width value) :
    digitValue (fixedDigits width value) = value := by
  have hdigit : ∀ digit < 10, (Nat.digitChar digit).toNat - '0'.toNat = digit := by decide
  induction width generalizing value with
  | zero => exact (show value = 0 from hvalue).symm
  | succ width ih =>
    have hlast := hdigit (value % 10) (Nat.mod_lt _ (by decide))
    have hothers := ih hvalue
    unfold digitValue at hothers ⊢
    rw [fixedDigits, List.foldl_append, hothers, List.foldl_cons, List.foldl_nil, hlast]
    exact Nat.div_add_mod value 10

theorem takeDigits_fixedDigits {width value : ℕ} (hvalue : Fits width value) (rest : List Char) :
    takeDigits width (fixedDigits width value ++ rest) = some (value, rest) := by
  have hlength := length_fixedDigits width value
  have htake : (fixedDigits width value ++ rest).take width = fixedDigits width value := by
    rw [List.take_left' hlength]
  have hdrop : (fixedDigits width value ++ rest).drop width = rest := by
    rw [List.drop_left' hlength]
  have hdigits : (fixedDigits width value).all Char.isDigit = true :=
    List.all_eq_true.mpr fun char hchar ↦ isDigit_of_mem_fixedDigits hchar
  unfold takeDigits
  rw [htake, hdrop, hlength, hdigits, digitValue_fixedDigits hvalue]
  simp

theorem takeMicros_fixedDigits (value : ℕ) (rest : List Char) :
    takeMicros ('-' :: (fixedDigits 6 value ++ rest)) = (fixedDigits 6 value, rest) := by
  have hlength := length_fixedDigits 6 value
  have hdigits : (fixedDigits 6 value).takeWhile Char.isDigit = fixedDigits 6 value :=
    List.takeWhile_eq_self_iff.mpr fun char hchar ↦ isDigit_of_mem_fixedDigits hchar
  have hnonempty : (fixedDigits 6 value).isEmpty = false :=
    List.isEmpty_eq_false_iff.mpr (List.ne_nil_of_length_pos (by rw [hlength]; decide))
  simp only [takeMicros, List.take_left' hlength, hdigits, hnonempty, Bool.false_eq_true, if_false,
    hlength, List.drop_left' hlength]

namespace Instant

theorem matchSegmentTime_text (instant : Instant) (rest : List Char) :
    matchSegmentTime (instant.segmentTime.text ++ rest) = some (instant.segmentTime, rest) := by
  unfold matchSegmentTime SegmentTime.text segmentTime
  simp only [List.append_assoc, List.cons_append,
    takeDigits_fixedDigits instant.fits_year, takeDigits_fixedDigits instant.fits_month,
    takeDigits_fixedDigits instant.fits_day, takeDigits_fixedDigits instant.fits_hour,
    takeDigits_fixedDigits instant.fits_minute, takeDigits_fixedDigits instant.fits_second,
    takeMicros_fixedDigits, takeChar, if_true, Option.bind_eq_bind, Option.bind_some,
      Option.pure_def]

theorem isSegmentFile_segmentName (instant : Instant) :
    isSegmentFile (segmentName instant) = true := by
  unfold isSegmentFile segmentName
  rw [String.toList_ofList, matchSegmentTime_text]
  rfl

/-- The start time of a name is the one that stands at its beginning. -/
theorem parseSegmentFileTime_segmentName (instant : Instant) :
    parseSegmentFileTime (segmentName instant) = some instant.segmentTime.toMs := by
  have hmatch := instant.matchSegmentTime_text ['.', 'm', 'p', '4']
  unfold parseSegmentFileTime segmentName
  rw [String.toList_ofList]
  generalize instant.segmentTime.text ++ ['.', 'm', 'p', '4'] = chars at hmatch ⊢
  cases chars with
  | nil => simp [hmatch]
  | cons char chars => rw [List.tails, List.findSome?_cons, hmatch, Option.map_some]

/-- The instant rounded up to the millisecond. -/
def ceilMs (instant : Instant) : ℤ := (instant.micros + 999) / 1000

theorem toMs_segmentTime (instant : Instant) : instant.segmentTime.toMs = instant.ceilMs := by
  have hms : instant.segmentTime.ms = (instant.timeOfDay % 1000000 + 999) / 1000 := by
    unfold SegmentTime.ms segmentTime
    dsimp only
    rw [length_fixedDigits, List.replicate_zero, List.append_nil,
      digitValue_fixedDigits instant.fits_micros]
  have hearly : 100 ≤ instant.date.year := instant.le_year
  have hyear : ((instant.date.year.toNat : ℕ) : ℤ) = instant.date.year :=
    Int.toNat_of_nonneg (by omega)
  have hlate : ¬ (0 ≤ instant.date.year ∧ instant.date.year ≤ 99) := by omega
  have htime := instant.timeOfDay_lt
  have hdays : utcDays instant.date = daysToMonth (12 * instant.date.year +
    (instant.date.month - 1)) + instant.date.day - 1 := rfl
  unfold SegmentTime.toMs dateUtc ceilMs
  rw [hms, instant.micros_eq]
  unfold segmentTime microsPerDay
  dsimp only
  rw [hyear, if_neg hlate, ← hdays]
  omega

/-! ### The order of names -/

/-- The later of two instants has the later date, or the later time of the same date. -/
theorem before_or_timeOfDay_lt {first second : Instant} (hlt : first.micros < second.micros) :
    first.date.Before second.date ∨
      first.date = second.date ∧ first.timeOfDay < second.timeOfDay := by
  have hpos : (0 : ℤ) < microsPerDay := by decide
  rcases Int.lt_or_eq_of_le (Int.ediv_le_ediv hpos hlt.le) with hday | hday
  · exact Or.inl (Date.before_ofDay hday)
  · have hdate : first.date = second.date := congrArg Date.ofDay hday
    have hfirst := first.micros_eq
    have hsecond := second.micros_eq
    rw [hdate] at hfirst
    exact Or.inr ⟨hdate, by omega⟩

end Instant

theorem append_cons_lt {rest rest' : List Char} (hlt : rest < rest') (digits : List Char)
    (separator : Char) : digits ++ separator :: rest < digits ++ separator :: rest' :=
  List.append_left_lt (List.cons_lt_cons_iff.mpr (Or.inr ⟨rfl, hlt⟩))

/-- The name of a later instant is behind: the first field that differs decides, and the fields
before it are the same. -/
theorem segmentName_lt {first second : Instant} (hlt : first.micros < second.micros) :
    segmentName first < segmentName second := by
  rw [String.lt_iff]
  unfold segmentName SegmentTime.text Instant.segmentTime
  simp only [String.toList_ofList, List.append_assoc, List.cons_append]
  rcases Instant.before_or_timeOfDay_lt hlt with hdate | ⟨hdate, hclock⟩
  · have hearly : 100 ≤ first.date.year := first.le_year
    rcases hdate with hyears | ⟨hyears, hdate⟩
    · exact fixedDigits_append_lt second.fits_year (by omega) _ _
    rw [hyears]
    refine append_cons_lt ?_ _ _
    rcases hdate with hmonths | ⟨hmonths, hdays⟩
    · exact fixedDigits_append_lt second.fits_month hmonths _ _
    rw [hmonths]
    exact append_cons_lt (fixedDigits_append_lt second.fits_day hdays _ _) _ _
  · rw [hdate]
    refine append_cons_lt (append_cons_lt (append_cons_lt ?_ _ _) _ _) _ _
    have hfields : ∀ {time later : ℕ}, time < later →
        time / 3600000000 < later / 3600000000 ∨ time / 3600000000 = later / 3600000000 ∧
          (time / 60000000 % 60 < later / 60000000 % 60 ∨
            time / 60000000 % 60 = later / 60000000 % 60 ∧
              (time / 1000000 % 60 < later / 1000000 % 60 ∨
                time / 1000000 % 60 = later / 1000000 % 60 ∧
                  time % 1000000 < later % 1000000)) := by
      intro time later htimes
      omega
    rcases hfields hclock with hhours | ⟨hhours, hclock⟩
    · exact fixedDigits_append_lt second.fits_hour hhours _ _
    rw [hhours]
    refine append_cons_lt ?_ _ _
    rcases hclock with hminutes | ⟨hminutes, hclock⟩
    · exact fixedDigits_append_lt second.fits_minute hminutes _ _
    rw [hminutes]
    refine append_cons_lt ?_ _ _
    rcases hclock with hseconds | ⟨hseconds, hfraction⟩
    · exact fixedDigits_append_lt second.fits_second hseconds _ _
    rw [hseconds]
    exact append_cons_lt (fixedDigits_append_lt second.fits_micros hfraction _ _) _ _

theorem segmentName_lt_iff {first second : Instant} :
    segmentName first < segmentName second ↔ first.micros < second.micros := by
  constructor
  · intro hnames
    by_contra hle
    rcases Int.lt_or_eq_of_le (Int.not_lt.mp hle) with hlater | hsame
    · exact String.lt_asymm hnames (segmentName_lt hlater)
    · obtain ⟨firstMicros, _, _⟩ := first
      obtain ⟨secondMicros, _, _⟩ := second
      dsimp only at hsame
      subst hsame
      exact String.lt_irrefl _ hnames
  · exact segmentName_lt

/-- The scan takes the files in the order of their instants. -/
theorem sortNames_map_segmentName (instants : List Instant) :
    sortNames (instants.map segmentName) =
      (instants.insertionSort fun first second ↦ first.micros ≤ second.micros).map segmentName := by
  refine (List.map_insertionSort _ _ segmentName instants fun first _ second _ ↦ ?_).symm
  rw [← Int.not_lt, ← String.not_lt, segmentName_lt_iff]

/-- The start time of a name is its instant, rounded up to the millisecond and never less than a
later name has, and names are sorted as their instants are. -/
theorem segmentNames_agree :
    (∀ instant : Instant, isSegmentFile (segmentName instant) = true ∧
      ∃ start, parseSegmentFileTime (segmentName instant) = some start ∧
        instant.micros ≤ 1000 * start ∧ 1000 * start < instant.micros + 1000) ∧
    (∀ first second : Instant, first.micros ≤ second.micros →
      ∃ start ∈ parseSegmentFileTime (segmentName first),
        ∃ later ∈ parseSegmentFileTime (segmentName second), start ≤ later) ∧
    (∀ first second : Instant,
      segmentName first < segmentName second ↔ first.micros < second.micros) ∧
    ∀ instants : List Instant, sortNames (instants.map segmentName) =
      (instants.insertionSort fun first second ↦ first.micros ≤ second.micros).map
        segmentName := by
  have hparse : ∀ instant : Instant,
      parseSegmentFileTime (segmentName instant) = some instant.ceilMs := by
    intro instant
    rw [instant.parseSegmentFileTime_segmentName, instant.toMs_segmentTime]
  refine ⟨fun instant ↦ ⟨instant.isSegmentFile_segmentName, _, hparse instant, ?_, ?_⟩, ?_,
    fun _ _ ↦ segmentName_lt_iff, sortNames_map_segmentName⟩
  · unfold Instant.ceilMs
    omega
  · unfold Instant.ceilMs
    omega
  · intro first second hle
    refine ⟨_, hparse first, _, hparse second, ?_⟩
    unfold Instant.ceilMs
    omega

end VmsLite.Recordings
