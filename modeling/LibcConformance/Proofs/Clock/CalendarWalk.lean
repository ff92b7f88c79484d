import LibcConformance.Clock.Timestamp
import LibcConformance.Proofs.Clock.Calendar

namespace LibcConformance

/-!
# The dates of days

The date of a day is found by dividing in years that begin in March.  In such
a cycle the years of each century, of each four years and the days of each
month have their places, so the divisions find the place of a day, and with it
the date whose number the day has.  Day by day, the dates go through the
calendar.
-/

namespace CivilDate

/--
A place in a cycle of four hundred years that begin in March: a leap day is the
last day of every fourth year, but not of a century other than the last.
-/
structure CyclePlace where
  century : Nat
  fourYears : Nat
  year : Nat
  day : Nat
  century_lt : century < 4
  fourYears_lt : fourYears < 25
  year_lt : year < 4
  inYear : day < 365 ∨ day = 365 ∧ year = 3 ∧ (fourYears < 24 ∨ century = 3)

namespace CyclePlace

/-- The years of the cycle before a place. -/
def yearOfCycle
    (place : CyclePlace) : Nat :=
  100 * place.century + 4 * place.fourYears + place.year

/-- The days of the cycle before a place. -/
def dayOfCycle
    (place : CyclePlace) : Nat :=
  36524 * place.century + 1461 * place.fourYears + 365 * place.year + place.day

/-- What bounds the parts of a place. -/
theorem bounds
    (place : CyclePlace) :
    place.century < 4 ∧ place.fourYears < 25 ∧ place.year < 4 ∧
      (place.day < 365 ∨
        place.day = 365 ∧ place.year = 3 ∧ (place.fourYears < 24 ∨ place.century = 3)) :=
  ⟨place.century_lt, place.fourYears_lt, place.year_lt, place.inYear⟩

end CyclePlace

/-- Each day of a cycle has a place. -/
theorem exists_place
    {day : Nat}
    (inCycle : day < cycleDays) :
    ∃ place : CyclePlace, place.dayOfCycle = day := by
  rw [cycleDays] at inCycle
  -- The last day of the cycle is a fourth century by division, and the last of
  -- four years a fourth year.
  let century := min (day / 36524) 3
  let dayOfCentury := day - 36524 * century
  let fourYears := dayOfCentury / 1461
  let dayOfFourYears := dayOfCentury - 1461 * fourYears
  let year := min (dayOfFourYears / 365) 3
  refine
    ⟨{ century, fourYears, year
       day := dayOfFourYears - 365 * year
       century_lt := by omega
       fourYears_lt := by omega
       year_lt := by omega
       inYear := by omega }, ?_⟩
  simp only [CyclePlace.dayOfCycle]
  omega

section Places

variable
  (place : CyclePlace)

theorem dayOfCycle_lt :
    place.dayOfCycle < 146097 := by
  have bounds := place.bounds
  rw [CyclePlace.dayOfCycle]
  omega

theorem yearOfCycle_lt :
    place.yearOfCycle < 400 := by
  have bounds := place.bounds
  rw [CyclePlace.yearOfCycle]
  omega

theorem yearStart_le :
    365 * place.yearOfCycle + place.yearOfCycle / 4 - place.yearOfCycle / 100 ≤
      place.dayOfCycle := by
  have bounds := place.bounds
  rw [CyclePlace.dayOfCycle, CyclePlace.yearOfCycle]
  omega

/-- A day off for each four years, and the day that those of the last years make together. -/
theorem dayOfCycle_div_fourYears :
    place.dayOfCycle / 1460 =
      25 * place.century + place.fourYears +
        (24 * place.century + place.fourYears + 365 * place.year + place.day) / 1460 := by
  rw [CyclePlace.dayOfCycle]
  omega

/-- Each century gives a day back, and the last day of the cycle does not count. -/
theorem dayOfCycle_div_century :
    place.dayOfCycle / 36524 = place.century + place.dayOfCycle / 146096 := by
  have bounds := place.bounds
  rw [CyclePlace.dayOfCycle]
  by_cases isLast :
      place.century = 3 ∧ 1461 * place.fourYears + 365 * place.year + place.day = 36524
  · have wholeCycle :
        36524 * place.century + 1461 * place.fourYears + 365 * place.year + place.day =
          146096 := by
      omega
    rw [wholeCycle, isLast.1]
  · have inCentury :
        1461 * place.fourYears + 365 * place.year + place.day < 36524 := by
      omega
    have notLast :
        (36524 * place.century + 1461 * place.fourYears + 365 * place.year + place.day) /
            146096 =
          0 := by
      omega
    rw [notLast]
    omega

/-- The divisions that find a year take a day off for each leap day before it. -/
theorem yearOfCycle_dayOfCycle :
    (place.dayOfCycle - place.dayOfCycle / 1460 + place.dayOfCycle / 36524 -
        place.dayOfCycle / 146096) / 365 =
      place.yearOfCycle := by
  rw [dayOfCycle_div_fourYears, dayOfCycle_div_century]
  have bounds := place.bounds
  rw [CyclePlace.dayOfCycle, CyclePlace.yearOfCycle]
  omega

theorem dayOfCycle_sub_yearStart :
    place.dayOfCycle -
        (365 * place.yearOfCycle + place.yearOfCycle / 4 - place.yearOfCycle / 100) =
      place.day := by
  have bounds := place.bounds
  rw [CyclePlace.dayOfCycle, CyclePlace.yearOfCycle]
  omega

/-- A year with 366 days from March on ends with the leap day of the year after it. -/
theorem isLeapYear_of_day
    (cycle : Nat)
    (longYear : place.day = 365) :
    IsLeapYear (400 * cycle + place.yearOfCycle + 1) := by
  have bounds := place.bounds
  rw [IsLeapYear, CyclePlace.yearOfCycle]
  omega

/-- The days before January in a year from March on and the days of the cycle before it. -/
theorem daysBeforeYear_place
    (cycle : Nat) :
    daysBeforeYear (400 * cycle + place.yearOfCycle + 1) + place.day =
      cycle * cycleDays + place.dayOfCycle + 366 := by
  have bounds := place.bounds
  rw [daysBeforeYear_succ_eq, CyclePlace.yearOfCycle, CyclePlace.dayOfCycle, cycleDays]
  omega

end Places

section Months

/-- The days from the start of March to the start of a month, which is counted from March. -/
def marchStart
    (month : Nat) : Nat :=
  (153 * month + 2) / 5

/-- The date of a day in a month, if years begin in March and months are counted from there. -/
def fromMarch
    (year month day : Nat) : CivilDate :=
  if month < 10 then
    ⟨year, month + 3, day⟩
  else
    ⟨year + 1, month - 9, day⟩

/-- The month found by division has started by the day, and ends after it. -/
theorem marchStart_le
    (day : Nat) :
    marchStart ((5 * day + 2) / 153) ≤ day := by
  rw [marchStart]
  omega

theorem lt_marchStart
    (day : Nat) :
    day < marchStart ((5 * day + 2) / 153 + 1) := by
  rw [marchStart]
  omega

variable
  {year month day : Nat}

/-- From March on, a year has 306 days. -/
theorem daysBeforeMonth_three
    (year : Nat) :
    daysBeforeMonth year 3 + 306 = daysBeforeMonth year 13 := by
  have twoMonths : daysBeforeMonth year 3 = 31 + monthLength year 2 := by
    simp [daysBeforeMonth, Finset.sum_Ico_succ_top, monthLength]
  rw [twoMonths, daysBeforeMonth_thirteen, monthLength]
  split <;> rfl

/-- The days from the start of the year zero to the start of the month of a date. -/
def daysBeforeMonthOf
    (date : CivilDate) : Nat :=
  daysBeforeYear date.year + daysBeforeMonth date.year date.month

theorem daysBeforeMonthOf_fromMarch_succ
    (inYear : month + 1 < 12) :
    daysBeforeMonthOf (fromMarch year (month + 1) day) =
      daysBeforeMonthOf (fromMarch year month day) +
        monthLength (fromMarch year month day).year (fromMarch year month day).month := by
  have place : month < 9 ∨ month = 9 ∨ month = 10 := by
    omega
  rcases place with sameYear | rfl | rfl
  · have next := daysBeforeMonth_succ year (month + 3) (by omega)
    rw [fromMarch, if_pos (by omega), fromMarch, if_pos (by omega)]
    show daysBeforeYear year + daysBeforeMonth year (month + 3 + 1) =
      daysBeforeYear year + daysBeforeMonth year (month + 3) + monthLength year (month + 3)
    rw [next, Nat.add_assoc]
  · show daysBeforeYear (year + 1) + 0 =
      daysBeforeYear year + daysBeforeMonth year 12 + monthLength year 12
    rw [daysBeforeYear_succ, daysBeforeMonth_succ year 12 (by decide), Nat.add_zero, Nat.add_assoc]
  · show daysBeforeYear (year + 1) + daysBeforeMonth (year + 1) (1 + 1) =
      daysBeforeYear (year + 1) + daysBeforeMonth (year + 1) 1 + monthLength (year + 1) 1
    rw [daysBeforeMonth_succ (year + 1) 1 le_rfl, Nat.add_assoc]

/-- A month other than February ends where the next one starts. -/
theorem monthLength_fromMarch
    (year day : Nat)
    (beforeFebruary : month < 11) :
    marchStart month +
        monthLength (fromMarch year month day).year (fromMarch year month day).month =
      marchStart (month + 1) := by
  interval_cases month <;> rfl

/-- The days before a month, counted from January and from March. -/
theorem daysBeforeMonthOf_fromMarch
    (year day : Nat)
    (inYear : month < 12) :
    daysBeforeMonthOf (fromMarch year month day) + 306 =
      daysBeforeYear (year + 1) + marchStart month := by
  induction month with
  | zero =>
      rw [daysBeforeYear_succ, ← daysBeforeMonth_three]
      exact Nat.add_assoc _ _ _
  | succ month inductionHypothesis =>
      have earlier := inductionHypothesis (by omega)
      have ends := monthLength_fromMarch year day (by omega : month < 11)
      rw [daysBeforeMonthOf_fromMarch_succ inYear]
      omega

theorem monthLength_february :
    monthLength (fromMarch year 11 day).year (fromMarch year 11 day).month =
      if IsLeapYear (year + 1) then 29 else 28 :=
  rfl

@[simp] theorem day_fromMarch :
    (fromMarch year month day).day = day := by
  rw [fromMarch]
  split <;> rfl

/-- A day that a month has is a day of the calendar. -/
theorem isDate_fromMarch
    (inYear : month < 12)
    (dayPositive : 1 ≤ day)
    (inMonth :
      day ≤
        monthLength (fromMarch year month day).year (fromMarch year month day).month) :
    (fromMarch year month day).IsDate where
  month_pos := by
    rw [fromMarch]
    split <;> simp only <;> omega
  month_le := by
    rw [fromMarch]
    split <;> simp only <;> omega
  day_pos := by
    rwa [day_fromMarch]
  day_le := by
    rwa [day_fromMarch]

end Months

section Days

/-- A day of a year that begins in March is in one of its twelve months. -/
theorem month_lt_twelve
    (place : CyclePlace) :
    (5 * place.day + 2) / 153 < 12 := by
  have inYear := place.inYear
  omega

/-- The date of a day, by the place of the day in its cycle. -/
theorem ofDay_eq_fromMarch
    (days : Nat) :
    ∃ (cycle : Nat) (place : CyclePlace),
      days + epochOffset = cycle * cycleDays + place.dayOfCycle ∧
        ofDay days =
          fromMarch (400 * cycle + place.yearOfCycle) ((5 * place.day + 2) / 153)
            (place.day - marchStart ((5 * place.day + 2) / 153) + 1) := by
  obtain ⟨place, found⟩ :=
    exists_place (Nat.mod_lt (days + epochOffset) (by decide : 0 < cycleDays))
  refine ⟨(days + epochOffset) / cycleDays, place, ?_, ?_⟩
  · rw [found, Nat.mul_comm, Nat.div_add_mod]
  · simp only [ofDay, ← found, yearOfCycle_dayOfCycle, dayOfCycle_sub_yearStart]
    rw [fromMarch, marchStart]
    split
    · rw [if_neg (by omega)]
      congr 1
      omega
    · have januaryOrFebruary : (5 * place.day + 2) / 153 - 9 ≤ 2 := by
        have := place.inYear
        omega
      rw [if_pos januaryOrFebruary]
      congr 1
      omega

/-- The date of a day is one that the calendar has. -/
theorem isDate_ofDay
    (days : Nat) :
    (ofDay days).IsDate := by
  obtain ⟨cycle, place, -, found⟩ := ofDay_eq_fromMarch days
  have inYear := month_lt_twelve place
  have starts := marchStart_le place.day
  have ends := lt_marchStart place.day
  rw [found]
  refine isDate_fromMarch inYear (Nat.le_add_left 1 _) ?_
  by_cases february : (5 * place.day + 2) / 153 = 11
  · rw [february] at starts ⊢
    rw [monthLength_february]
    have start : marchStart 11 = 337 := rfl
    by_cases leapDay : place.day = 365
    · rw [if_pos (isLeapYear_of_day place cycle leapDay), leapDay]
      decide
    · have place := place.inYear
      split <;> omega
  · have beforeFebruary : (5 * place.day + 2) / 153 < 11 := by
      omega
    have lengthens :=
      monthLength_fromMarch (400 * cycle + place.yearOfCycle)
        (place.day - marchStart ((5 * place.day + 2) / 153) + 1) beforeFebruary
    omega

/-- The first day that is counted. -/
def epoch : CivilDate :=
  ⟨1970, 1, 1⟩

theorem dayNumber_epoch :
    epoch.dayNumber = 719528 := by
  rw [epoch, dayNumber_newYear, daysBeforeYear_succ_eq 1969]

/-- The date of a day has the number of the day. -/
theorem dayNumber_ofDay
    (days : Nat) :
    (ofDay days).dayNumber = days + epoch.dayNumber := by
  obtain ⟨cycle, place, counted, found⟩ := ofDay_eq_fromMarch days
  have starts := marchStart_le place.day
  have beforeYear := daysBeforeYear_place place cycle
  have beforeMonth :=
    daysBeforeMonthOf_fromMarch (400 * cycle + place.yearOfCycle)
      (place.day - marchStart ((5 * place.day + 2) / 153) + 1) (month_lt_twelve place)
  rw [epochOffset] at counted
  rw [dayNumber_epoch, found, dayNumber, ← daysBeforeMonthOf, day_fromMarch]
  omega

/-- The dates of two days in a row follow each other in the calendar. -/
theorem ofDay_succ
    (days : Nat) :
    ofDay (days + 1) = (ofDay days).successor := by
  have isDate := isDate_ofDay days
  apply eq_of_dayNumber_eq (isDate_ofDay (days + 1)) (isDate_successor isDate)
  rw [dayNumber_successor isDate, dayNumber_ofDay, dayNumber_ofDay]
  omega

theorem ofDay_injective :
    Function.Injective ofDay := by
  intro first second same
  have sameNumber := congrArg dayNumber same
  rw [dayNumber_ofDay, dayNumber_ofDay] at sameNumber
  exact Nat.add_right_cancel sameNumber

/-- From day to day, dates go through the calendar date by date. -/
theorem iterate_successor_ofDay
    (days span : Nat) :
    successor^[span] (ofDay days) = ofDay (days + span) := by
  induction span with
  | zero =>
      rfl
  | succ span inductionHypothesis =>
      rw [Function.iterate_succ_apply', inductionHypothesis, ← ofDay_succ, Nat.add_assoc]

end Days

end CivilDate

end LibcConformance
