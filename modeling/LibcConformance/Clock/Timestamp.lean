import LibcConformance.Clock.Calendar
import LibcConformance.Numeral

namespace LibcConformance

/-!
# Timestamps

An instant is a number of whole seconds since 1970 and the milliseconds after
them.  It is written as an RFC 3339 date and time in UTC.
-/

/-- An instant at or after the start of 1970. -/
structure Instant where
  seconds : Nat
  milliseconds : Nat
  deriving Repr, DecidableEq

namespace Instant

/-- The instant that a clock shows, cut to milliseconds; one before 1970 counts as its start. -/
def ofClock (seconds : Int) (nanoseconds : Nat) : Instant :=
  if seconds < 0 then
    ⟨0, 0⟩
  else
    ⟨seconds.toNat, nanoseconds / 1000000⟩

/-- The seconds of a day. -/
def daySeconds : Nat :=
  86400

/-- The text of an instant. -/
def timestamp (instant : Instant) : String :=
  let date := CivilDate.ofDay (instant.seconds / daySeconds)
  let year := Numeral.padded 4 date.year
  let month := Numeral.padded 2 date.month
  let day := Numeral.padded 2 date.day
  let hour := Numeral.padded 2 (instant.seconds % daySeconds / 3600)
  let minute := Numeral.padded 2 (instant.seconds % 3600 / 60)
  let second := Numeral.padded 2 (instant.seconds % 60)
  let millisecond := Numeral.padded 3 instant.milliseconds
  s!"{year}-{month}-{day}T{hour}:{minute}:{second}.{millisecond}Z"

end Instant

end LibcConformance
