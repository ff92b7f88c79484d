import LibcConformance.Proofs.Clock.CalendarWalk

namespace LibcConformance

/-!
# Dates on signed words

The divisions that find a date can be carried out on signed 64-bit words: for
all days that 64 bits of seconds reach, no step leaves the range of the words.
-/

/-- What is computed on signed 64-bit words; a result out of their range is none. -/
abbrev SignedWord :=
  Option Int

namespace SignedWord

/-- A number, if it is in the range of the words. -/
def held
    (number : Int) : SignedWord :=
  if -(2 ^ 63) ≤ number ∧ number < 2 ^ 63 then some number else none

def plus
    (first second : Int) : SignedWord :=
  held (first + second)

def minus
    (first second : Int) : SignedWord :=
  held (first - second)

def times
    (factor : Nat)
    (number : Int) : SignedWord :=
  held (factor * number)

/-- The quotient, cut towards zero. -/
def dividedBy
    (number : Int)
    (divisor : Nat) : SignedWord :=
  held (number.tdiv divisor)

end SignedWord

namespace CivilDate

open SignedWord

/-- The years of a cycle before a day of it. -/
def yearOfCycleOnWords
    (dayOfCycle : Int) : SignedWord := do
  let withoutFourYears ← minus dayOfCycle (← dividedBy dayOfCycle 1460)
  let withCenturies ← plus withoutFourYears (← dividedBy dayOfCycle 36524)
  let evenDays ← minus withCenturies (← dividedBy dayOfCycle 146096)
  dividedBy evenDays 365

/-- The day of a year that begins in March. -/
def dayOfYearOnWords
    (dayOfCycle yearOfCycle : Int) : SignedWord := do
  let withFourYears ← plus (← times 365 yearOfCycle) (← dividedBy yearOfCycle 4)
  let yearStart ← minus withFourYears (← dividedBy yearOfCycle 100)
  minus dayOfCycle yearStart

/-- The month of a day, counted from March. -/
def monthFromMarchOnWords
    (dayOfYear : Int) : SignedWord := do
  dividedBy (← plus (← times 5 dayOfYear) (2 : Nat)) 153

/-- The day of a month. -/
def dayOfMonthOnWords
    (dayOfYear monthFromMarch : Int) : SignedWord := do
  let monthStart ← dividedBy (← plus (← times 153 monthFromMarch) (2 : Nat)) 5
  plus (← minus dayOfYear monthStart) (1 : Nat)

/-- A month that was counted from March. -/
def monthOnWords
    (monthFromMarch : Int) : SignedWord :=
  if monthFromMarch < 10 then
    plus monthFromMarch (3 : Nat)
  else
    minus monthFromMarch (9 : Nat)

/-- The year of a month. -/
def yearOnWords
    (cycle yearOfCycle month : Int) : SignedWord := do
  let yearFromMarch ← plus yearOfCycle (← times 400 cycle)
  plus yearFromMarch (if month ≤ 2 then 1 else 0 : Nat)

/-- The year, the month and the day of a date as the divisions find them on signed words. -/
def ofDayOnWords
    (days : Int) : Option (Int × Int × Int) := do
  let shifted ← plus days epochOffset
  let cycle ← held (shifted / cycleDays)
  let dayOfCycle ← held (shifted % cycleDays)
  let yearOfCycle ← yearOfCycleOnWords dayOfCycle
  let dayOfYear ← dayOfYearOnWords dayOfCycle yearOfCycle
  let monthFromMarch ← monthFromMarchOnWords dayOfYear
  let day ← dayOfMonthOnWords dayOfYear monthFromMarch
  let month ← monthOnWords monthFromMarch
  let year ← yearOnWords cycle yearOfCycle month
  return (year, month, day)

end CivilDate

namespace SignedWord

variable
  {first second factor number divisor : Nat}

theorem held_natCast
    (inRange : number < 2 ^ 63) :
    held number = some (number : Int) :=
  if_pos (by omega)

theorem plus_natCast
    (inRange : first + second < 2 ^ 63) :
    plus first second = some ((first + second : Nat) : Int) :=
  held_natCast inRange

theorem minus_natCast
    (notMore : second ≤ first)
    (inRange : first < 2 ^ 63) :
    minus first second = some ((first - second : Nat) : Int) := by
  rw [minus, ← Int.ofNat_sub notMore]
  exact held_natCast (by omega)

theorem times_natCast
    (inRange : factor * number < 2 ^ 63) :
    times factor number = some ((factor * number : Nat) : Int) :=
  held_natCast inRange

theorem dividedBy_natCast
    (inRange : number < 2 ^ 63) :
    dividedBy number divisor = some ((number / divisor : Nat) : Int) :=
  held_natCast (Nat.lt_of_le_of_lt (Nat.div_le_self number divisor) inRange)

end SignedWord

namespace CivilDate

/-- The last day that 64 bits of seconds reach. -/
def lastDay : Nat :=
  (wordSize - 1) / Instant.daySeconds

open SignedWord

section Steps

variable
  (place : CyclePlace)

theorem yearOfCycleOnWords_place :
    yearOfCycleOnWords place.dayOfCycle = some (place.yearOfCycle : Int) := by
  have inCycle := dayOfCycle_lt place
  rw [← yearOfCycle_dayOfCycle place, yearOfCycleOnWords]
  simp only [Option.bind_eq_bind]
  rw [dividedBy_natCast (by omega), Option.bind_some,
    minus_natCast (by omega) (by omega), Option.bind_some,
    dividedBy_natCast (by omega), Option.bind_some,
    plus_natCast (by omega), Option.bind_some,
    dividedBy_natCast (by omega), Option.bind_some,
    minus_natCast (by omega) (by omega), Option.bind_some]
  exact dividedBy_natCast (by omega)

theorem dayOfYearOnWords_place :
    dayOfYearOnWords place.dayOfCycle place.yearOfCycle = some (place.day : Int) := by
  have inCycle := dayOfCycle_lt place
  have inFour := yearOfCycle_lt place
  have started := yearStart_le place
  rw [← dayOfCycle_sub_yearStart place, dayOfYearOnWords]
  simp only [Option.bind_eq_bind]
  rw [times_natCast (by omega), Option.bind_some,
    dividedBy_natCast (by omega), Option.bind_some,
    plus_natCast (by omega), Option.bind_some,
    dividedBy_natCast (by omega), Option.bind_some,
    minus_natCast (by omega) (by omega), Option.bind_some]
  exact minus_natCast started (by omega)

variable
  {dayOfYear monthFromMarch : Nat}

theorem monthFromMarchOnWords_natCast
    (inYear : dayOfYear < 366) :
    monthFromMarchOnWords dayOfYear =
      some (((5 * dayOfYear + 2) / 153 : Nat) : Int) := by
  rw [monthFromMarchOnWords]
  simp only [Option.bind_eq_bind]
  rw [times_natCast (by omega), Option.bind_some,
    plus_natCast (by omega), Option.bind_some]
  exact dividedBy_natCast (by omega)

theorem dayOfMonthOnWords_natCast
    (inYear : dayOfYear < 366)
    (started : (153 * monthFromMarch + 2) / 5 ≤ dayOfYear) :
    dayOfMonthOnWords dayOfYear monthFromMarch =
      some ((dayOfYear - (153 * monthFromMarch + 2) / 5 + 1 : Nat) : Int) := by
  rw [dayOfMonthOnWords]
  simp only [Option.bind_eq_bind]
  rw [times_natCast (by omega), Option.bind_some,
    plus_natCast (by omega), Option.bind_some,
    dividedBy_natCast (by omega), Option.bind_some,
    minus_natCast started (by omega), Option.bind_some]
  exact plus_natCast (by omega)

theorem monthOnWords_natCast
    (inYear : monthFromMarch < 12) :
    monthOnWords monthFromMarch =
      some
        ((if monthFromMarch < 10 then monthFromMarch + 3 else monthFromMarch - 9 : Nat) :
          Int) := by
  rw [monthOnWords]
  by_cases sameYear : monthFromMarch < 10
  · rw [if_pos sameYear, if_pos (by omega)]
    exact plus_natCast (by omega)
  · rw [if_neg sameYear, if_neg (by omega)]
    exact minus_natCast (by omega) (by omega)

theorem yearOnWords_natCast
    {cycle yearOfCycle month : Nat}
    (inCycle : yearOfCycle < 400)
    (cycleBound : cycle < 2 ^ 32) :
    yearOnWords cycle yearOfCycle month =
      some ((yearOfCycle + 400 * cycle + if month ≤ 2 then 1 else 0 : Nat) : Int) := by
  rw [yearOnWords]
  simp only [Option.bind_eq_bind]
  rw [times_natCast (by omega), Option.bind_some,
    plus_natCast (by omega), Option.bind_some]
  by_cases nextYear : month ≤ 2
  · rw [if_pos nextYear, if_pos (by omega)]
    exact plus_natCast (by omega)
  · rw [if_neg nextYear, if_neg (by omega)]
    exact plus_natCast (by omega)

end Steps

/-- No step of the divisions leaves the range of the words. -/
theorem ofDayOnWords_eq
    {days : Nat}
    (reached : days ≤ lastDay) :
    ofDayOnWords days =
      some (((ofDay days).year : Int), ((ofDay days).month : Int), ((ofDay days).day : Int)) := by
  have lastDayEq : lastDay = 213503982334601 := by
    decide
  obtain ⟨place, found⟩ :=
    exists_place (Nat.mod_lt (days + epochOffset) (by decide : 0 < cycleDays))
  have inCycle := dayOfCycle_lt place
  have inYear := month_lt_twelve place
  have starts := marchStart_le place.day
  have dayBound : place.day < 366 := by
    have := place.inYear
    omega
  have shiftedBound : days + epochOffset < 2 ^ 48 := by
    rw [epochOffset]
    omega
  have cycleBound : (days + epochOffset) / cycleDays < 2 ^ 32 := by
    rw [cycleDays]
    omega
  rw [ofDayOnWords]
  simp only [Option.bind_eq_bind]
  rw [plus_natCast (by omega), Option.bind_some, ← Int.natCast_ediv,
    held_natCast (by omega), Option.bind_some, ← Int.natCast_emod, ← found,
    held_natCast (by omega), Option.bind_some,
    yearOfCycleOnWords_place, Option.bind_some,
    dayOfYearOnWords_place, Option.bind_some,
    monthFromMarchOnWords_natCast (by omega), Option.bind_some,
    dayOfMonthOnWords_natCast (by omega) starts, Option.bind_some,
    monthOnWords_natCast inYear, Option.bind_some,
    yearOnWords_natCast (yearOfCycle_lt place) cycleBound, Option.bind_some]
  simp only [ofDay, ← found, yearOfCycle_dayOfCycle, dayOfCycle_sub_yearStart,
    Nat.mul_comm _ 400]
  rfl

/--
The dates of days go through the Gregorian calendar from 1 January 1970 on, one
after the other, so that they differ and count the days between them; and the
words hold every step for all days that 64 bits of seconds reach.
-/
theorem ofDay_walksCalendar :
    (∀ days ≤ lastDay,
      ofDayOnWords days =
        some (((ofDay days).year : Int), ((ofDay days).month : Int), ((ofDay days).day : Int))) ∧
      (∀ days, (ofDay days).IsDate) ∧
        ofDay 0 = ⟨1970, 1, 1⟩ ∧
          (∀ days, ofDay (days + 1) = (ofDay days).successor) ∧
            Function.Injective ofDay ∧
              ∀ days span,
                successor^[span] (ofDay days) = ofDay (days + span) ∧
                  (ofDay (days + span)).dayNumber = (ofDay days).dayNumber + span := by
  refine
    ⟨fun days => ofDayOnWords_eq, isDate_ofDay, rfl, ofDay_succ, ofDay_injective,
      fun days span => ⟨iterate_successor_ofDay days span, ?_⟩⟩
  rw [dayNumber_ofDay, dayNumber_ofDay]
  omega

/-- The last day that 64 bits of seconds reach is in the year 584554051223. -/
theorem ofDay_walksCalendar_lastDay :
    lastDay ≤ lastDay ∧ ofDayOnWords lastDay = some (584554051223, 11, 9) :=
  ⟨le_rfl, ofDay_walksCalendar.1 lastDay le_rfl⟩

end CivilDate

end LibcConformance
