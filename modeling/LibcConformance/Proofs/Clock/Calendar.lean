import Mathlib.Algebra.BigOperators.Intervals
import Mathlib.Algebra.Order.BigOperators.Group.Finset
import Mathlib.Tactic.IntervalCases
import LibcConformance.Clock.Calendar

namespace LibcConformance

/-!
# Days of the Gregorian calendar

The calendar gives each month its length, and each date the one after it.
Counting the days before a date, year by year and month by month, numbers all
dates without a gap and in their order.
-/

namespace CivilDate

/-- Every fourth year is a leap year, of the centuries every fourth one only. -/
def IsLeapYear
    (year : Nat) : Prop :=
  4 ∣ year ∧ ¬ 100 ∣ year ∨ 400 ∣ year

instance : DecidablePred IsLeapYear :=
  fun year => inferInstanceAs (Decidable (4 ∣ year ∧ ¬ 100 ∣ year ∨ 400 ∣ year))

/-- The days of a month. -/
def monthLength
    (year : Nat) : Nat → Nat
  | 2 => if IsLeapYear year then 29 else 28
  | 4 | 6 | 9 | 11 => 30
  | _ => 31

/-- A date that the calendar has. -/
structure IsDate
    (date : CivilDate) : Prop where
  month_pos : 1 ≤ date.month
  month_le : date.month ≤ 12
  day_pos : 1 ≤ date.day
  day_le : date.day ≤ monthLength date.year date.month

/-- The date after a date. -/
def successor
    (date : CivilDate) : CivilDate :=
  if date.day < monthLength date.year date.month then
    { date with day := date.day + 1 }
  else if date.month < 12 then
    ⟨date.year, date.month + 1, 1⟩
  else
    ⟨date.year + 1, 1, 1⟩

/-- The days of a year before a month of it. -/
def daysBeforeMonth
    (year month : Nat) : Nat :=
  ∑ earlier ∈ Finset.Ico 1 month, monthLength year earlier

/-- The days from the start of the year zero to the start of a year. -/
def daysBeforeYear
    (year : Nat) : Nat :=
  ∑ earlier ∈ Finset.range year, daysBeforeMonth earlier 13

/-- The days from the start of the year zero to a date. -/
def dayNumber
    (date : CivilDate) : Nat :=
  daysBeforeYear date.year + daysBeforeMonth date.year date.month + (date.day - 1)

/-- A date comes before another one in the calendar. -/
def Before
    (first second : CivilDate) : Prop :=
  first.year < second.year ∨
    first.year = second.year ∧
      (first.month < second.month ∨
        first.month = second.month ∧ first.day < second.day)

section Numbering

variable
  {date first second : CivilDate}

theorem daysBeforeMonth_succ
    (year month : Nat)
    (positive : 1 ≤ month) :
    daysBeforeMonth year (month + 1) =
      daysBeforeMonth year month + monthLength year month :=
  Finset.sum_Ico_succ_top positive _

theorem daysBeforeMonth_mono
    (year : Nat) :
    Monotone (daysBeforeMonth year) :=
  fun _ _ order =>
    Finset.sum_le_sum_of_subset (Finset.Ico_subset_Ico_right order)

theorem daysBeforeYear_succ
    (year : Nat) :
    daysBeforeYear (year + 1) = daysBeforeYear year + daysBeforeMonth year 13 :=
  Finset.sum_range_succ _ _

theorem daysBeforeYear_mono :
    Monotone daysBeforeYear :=
  fun _ _ order =>
    Finset.sum_le_sum_of_subset (Finset.range_mono order)

/-- A year has a day more if it is a leap year. -/
theorem daysBeforeMonth_thirteen
    (year : Nat) :
    daysBeforeMonth year 13 = if IsLeapYear year then 366 else 365 := by
  simp only [daysBeforeMonth, Finset.sum_Ico_succ_top, Nat.reduceLeDiff,
    Finset.Ico_self, Finset.sum_empty, monthLength]
  split <;> rfl

/-- A year has 365 days, and each leap year up to it has brought one more. -/
theorem daysBeforeYear_succ_eq
    (year : Nat) :
    daysBeforeYear (year + 1) =
      365 * (year + 1) + (year / 4 + year / 400 + 1) - year / 100 := by
  induction year with
  | zero =>
      decide
  | succ year inductionHypothesis =>
      -- A quotient of the year goes up where the divisor divides the next year.
      rw [daysBeforeYear_succ, inductionHypothesis, daysBeforeMonth_thirteen,
        Nat.succ_div, Nat.succ_div, Nat.succ_div]
      by_cases leap : IsLeapYear (year + 1)
      · rw [if_pos leap]
        rw [IsLeapYear] at leap
        split_ifs <;> omega
      · rw [if_neg leap]
        rw [IsLeapYear] at leap
        split_ifs <;> omega

/-- The first day of a year is numbered by the days before the year. -/
theorem dayNumber_newYear
    (year : Nat) :
    dayNumber ⟨year, 1, 1⟩ = daysBeforeYear year := by
  simp [dayNumber, daysBeforeMonth]

theorem monthLength_pos
    (year month : Nat) :
    0 < monthLength year month := by
  rw [monthLength.eq_def]
  split
  · split <;> decide
  all_goals decide

theorem monthLength_le
    (year month : Nat) :
    monthLength year month ≤ 31 := by
  rw [monthLength.eq_def]
  split
  · split <;> decide
  all_goals decide

/-- The calendar has a date after each date. -/
theorem isDate_successor
    (isDate : date.IsDate) :
    date.successor.IsDate := by
  obtain ⟨monthPositive, monthAtMost, dayPositive, dayAtMost⟩ := isDate
  rw [successor]
  split
  · rename_i inMonth
    exact ⟨monthPositive, monthAtMost, by simp, inMonth⟩
  · split
    · rename_i inYear
      exact ⟨by simp, inYear, le_rfl, monthLength_pos _ _⟩
    · exact ⟨le_rfl, by simp, le_rfl, monthLength_pos _ _⟩

/-- The date after a date has the next number. -/
theorem dayNumber_successor
    (isDate : date.IsDate) :
    date.successor.dayNumber = date.dayNumber + 1 := by
  obtain ⟨monthPositive, monthAtMost, dayPositive, dayAtMost⟩ := isDate
  rw [successor]
  split
  · simp only [dayNumber]
    omega
  · have lastDay : date.day = monthLength date.year date.month := by
      omega
    have wholeMonth := daysBeforeMonth_succ date.year date.month monthPositive
    split
    · simp only [dayNumber, wholeMonth]
      omega
    · have december : date.month = 12 := by
        omega
      rw [december] at wholeMonth lastDay
      simp only [dayNumber, daysBeforeYear_succ, wholeMonth, december]
      simp [daysBeforeMonth]
      omega

/-- A date is numbered below the month after it. -/
theorem dayNumber_lt_nextMonth
    (isDate : date.IsDate) :
    date.dayNumber <
      daysBeforeYear date.year + daysBeforeMonth date.year (date.month + 1) := by
  have dayAtMost := isDate.day_le
  have dayPositive := isDate.day_pos
  rw [daysBeforeMonth_succ date.year date.month isDate.month_pos, dayNumber]
  omega

/-- The numbers of dates are in the order of the dates. -/
theorem Before.dayNumber_lt
    (before : first.Before second)
    (isDate : first.IsDate) :
    first.dayNumber < second.dayNumber := by
  have inMonth := dayNumber_lt_nextMonth isDate
  rcases before with earlierYear | ⟨sameYear, earlierMonth | ⟨sameMonth, earlierDay⟩⟩
  · have inYear :
        daysBeforeMonth first.year (first.month + 1) ≤
          daysBeforeMonth first.year 13 :=
      daysBeforeMonth_mono first.year (Nat.succ_le_succ isDate.month_le)
    have yearAhead :
        daysBeforeYear (first.year + 1) ≤ daysBeforeYear second.year :=
      daysBeforeYear_mono earlierYear
    rw [daysBeforeYear_succ] at yearAhead
    rw [dayNumber.eq_1 second]
    omega
  · have monthAhead :
        daysBeforeMonth first.year (first.month + 1) ≤
          daysBeforeMonth first.year second.month :=
      daysBeforeMonth_mono first.year earlierMonth
    rw [dayNumber.eq_1 second, ← sameYear]
    omega
  · have dayPositive := isDate.day_pos
    rw [dayNumber, dayNumber, sameYear, sameMonth]
    omega

theorem eq_or_before
    (first second : CivilDate) :
    first = second ∨ first.Before second ∨ second.Before first := by
  obtain ⟨firstYear, firstMonth, firstDay⟩ := first
  obtain ⟨secondYear, secondMonth, secondDay⟩ := second
  simp only [Before, mk.injEq]
  omega

/-- The order of two dates by year, month and day. -/
def order
    (first second : CivilDate) : Ordering :=
  (compare first.year second.year).then
    ((compare first.month second.month).then (compare first.day second.day))

theorem Before.order_eq
    (before : first.Before second) :
    order first second = .lt := by
  rw [order]
  rcases before with earlierYear | ⟨sameYear, earlierMonth | ⟨sameMonth, earlierDay⟩⟩
  · rw [Nat.compare_eq_lt.mpr earlierYear]
    rfl
  · rw [Nat.compare_eq_eq.mpr sameYear, Nat.compare_eq_lt.mpr earlierMonth]
    rfl
  · rw [Nat.compare_eq_eq.mpr sameYear, Nat.compare_eq_eq.mpr sameMonth,
      Nat.compare_eq_lt.mpr earlierDay]
    rfl

theorem order_swap
    (first second : CivilDate) :
    (order first second).swap = order second first := by
  simp only [order, Ordering.swap_then, Nat.compare_swap]

/-- Dates are in the order of their numbers. -/
theorem order_eq_compare
    (firstIsDate : first.IsDate)
    (secondIsDate : second.IsDate) :
    order first second = compare first.dayNumber second.dayNumber := by
  rcases eq_or_before first second with rfl | before | behind
  · simp [order]
  · rw [before.order_eq, Nat.compare_eq_lt.mpr (before.dayNumber_lt firstIsDate)]
  · rw [← order_swap, behind.order_eq,
      Nat.compare_eq_gt.mpr (behind.dayNumber_lt secondIsDate)]
    rfl

/-- No two dates have the same number. -/
theorem eq_of_dayNumber_eq
    (firstIsDate : first.IsDate)
    (secondIsDate : second.IsDate)
    (sameNumber : first.dayNumber = second.dayNumber) :
    first = second := by
  rcases eq_or_before first second with same | before | behind
  · exact same
  · exact absurd sameNumber (before.dayNumber_lt firstIsDate).ne
  · exact absurd sameNumber (behind.dayNumber_lt secondIsDate).ne'

end Numbering

end CivilDate

end LibcConformance
