namespace LibcConformance

/-!
# Gregorian dates

A day is counted from 1 January 1970.  Its date is found in years that begin in
March, so that a leap day is the last day of its year, within cycles of four
hundred years.
-/

/-- A date of the Gregorian calendar. -/
structure CivilDate where
  year : Nat
  month : Nat
  day : Nat
  deriving Repr, DecidableEq

namespace CivilDate

/-- The days of a four-hundred-year cycle. -/
def cycleDays : Nat :=
  146097

/-- The days from the start of the first cycle, in March of the year zero, to 1 January 1970. -/
def epochOffset : Nat :=
  719468

/-- The date of a day. -/
def ofDay (days : Nat) : CivilDate :=
  let shifted := days + epochOffset
  let cycle := shifted / cycleDays
  let dayOfCycle := shifted % cycleDays
  let yearOfCycle :=
    (dayOfCycle - dayOfCycle / 1460 + dayOfCycle / 36524 - dayOfCycle / 146096) / 365
  let dayOfYear := dayOfCycle - (365 * yearOfCycle + yearOfCycle / 4 - yearOfCycle / 100)
  let monthFromMarch := (5 * dayOfYear + 2) / 153
  let month := if monthFromMarch < 10 then monthFromMarch + 3 else monthFromMarch - 9
  { year := yearOfCycle + cycle * 400 + if month ≤ 2 then 1 else 0
    month
    day := dayOfYear - (153 * monthFromMarch + 2) / 5 + 1 }

end CivilDate

end LibcConformance
