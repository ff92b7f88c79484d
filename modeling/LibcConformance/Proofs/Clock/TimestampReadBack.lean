import LibcConformance.Proofs.Clock.CalendarWalk
import LibcConformance.Proofs.Clock.DecimalField
import LibcConformance.Proofs.LeadingRun

namespace LibcConformance

/-!
# Timestamps, read back and sorted

A timestamp is read field by field, each up to its separator, and its date
counts the days of the calendar.  This gives back the instant, in whatever year.
Before the year 10000 all fields have their widths, so timestamps are in the
order of the instants byte by byte.
-/

namespace Instant

/-- The number in front of a separator, and the text behind it. -/
def readField?
    (separator : Char)
    (text : List Char) : Option (Nat × List Char) :=
  match text.takeWhile Char.isDigit, text.dropWhile Char.isDigit with
  | digit :: digits, first :: rest =>
      if first = separator then
        some (Nat.ofDigitChars 10 (digit :: digits) 0, rest)
      else
        none
  | _, _ => none

/-- The instant of a date and a time of its day. -/
def ofFields
    (date : CivilDate)
    (hour minute second milliseconds : Nat) : Instant :=
  let days := date.dayNumber - CivilDate.epoch.dayNumber
  ⟨((days * 24 + hour) * 60 + minute) * 60 + second, milliseconds⟩

/-- Reads a timestamp. -/
def ofTimestamp?
    (text : String) : Option Instant := do
  let (year, afterYear) ← readField? '-' text.toList
  let (month, afterMonth) ← readField? '-' afterYear
  let (day, afterDay) ← readField? 'T' afterMonth
  let (hour, afterHour) ← readField? ':' afterDay
  let (minute, afterMinute) ← readField? ':' afterHour
  let (second, afterSecond) ← readField? '.' afterMinute
  let (milliseconds, rest) ← readField? 'Z' afterSecond
  if rest.isEmpty then
    some (ofFields ⟨year, month, day⟩ hour minute second milliseconds)
  else
    none

section Reading

theorem readField?_padded
    (width value : Nat)
    {separator : Char}
    (noDigit : separator.isDigit = false)
    (rest : List Char) :
    readField? separator ((Numeral.padded width value).toList ++ separator :: rest) =
      some (value, rest) := by
  have digits := Numeral.isDigit_of_mem_padded width value
  have ends :
      ∀ character ∈ (separator :: rest).head?, character.isDigit = false := by
    rintro character ⟨⟩
    exact noDigit
  rw [readField?, takeWhile_run_append digits ends, dropWhile_run_append digits ends]
  cases shape : (Numeral.padded width value).toList with
  | nil =>
      exact absurd shape (Numeral.padded_ne_nil width value)
  | cons first later =>
      have denoted := Numeral.ofDigitChars_padded width value
      rw [shape] at denoted
      show (if separator = separator then
        some (Nat.ofDigitChars 10 (first :: later) 0, rest) else none) = some (value, rest)
      rw [if_pos rfl, denoted]

/-- Fields with their separators, as one list of characters. -/
theorem toList_layout
    (year month day hour minute second millisecond : String) :
    (s!"{year}-{month}-{day}T{hour}:{minute}:{second}.{millisecond}Z").toList =
      year.toList ++ '-' ::
        (month.toList ++ '-' ::
          (day.toList ++ 'T' ::
            (hour.toList ++ ':' ::
              (minute.toList ++ ':' ::
                (second.toList ++ '.' :: (millisecond.toList ++ ['Z'])))))) := by
  simp only [String.toList_append, List.append_assoc]
  rfl

variable
  (instant : Instant)

/-- The date of an instant. -/
def date : CivilDate :=
  CivilDate.ofDay (instant.seconds / daySeconds)

theorem toList_timestamp :
    instant.timestamp.toList =
      (Numeral.padded 4 instant.date.year).toList ++ '-' ::
        ((Numeral.padded 2 instant.date.month).toList ++ '-' ::
          ((Numeral.padded 2 instant.date.day).toList ++ 'T' ::
            ((Numeral.padded 2 (instant.seconds % daySeconds / 3600)).toList ++ ':' ::
              ((Numeral.padded 2 (instant.seconds % 3600 / 60)).toList ++ ':' ::
                ((Numeral.padded 2 (instant.seconds % 60)).toList ++ '.' ::
                  ((Numeral.padded 3 instant.milliseconds).toList ++ ['Z'])))))) := by
  rw [timestamp]
  exact toList_layout _ _ _ _ _ _ _

/-- The fields of an instant make it up. -/
theorem ofFields_date :
    ofFields instant.date (instant.seconds % daySeconds / 3600)
        (instant.seconds % 3600 / 60) (instant.seconds % 60) instant.milliseconds =
      instant := by
  obtain ⟨seconds, milliseconds⟩ := instant
  simp only [ofFields, date, CivilDate.dayNumber_ofDay, Nat.add_sub_cancel, daySeconds,
    mk.injEq, and_true]
  omega

/-- A timestamp is read as the instant it was written for. -/
theorem ofTimestamp?_timestamp :
    ofTimestamp? instant.timestamp = some instant := by
  rw [ofTimestamp?, toList_timestamp]
  simp only [Option.bind_eq_bind]
  rw [readField?_padded 4 _ rfl, Option.bind_some,
    readField?_padded 2 _ rfl, Option.bind_some,
    readField?_padded 2 _ rfl, Option.bind_some,
    readField?_padded 2 _ rfl, Option.bind_some,
    readField?_padded 2 _ rfl, Option.bind_some,
    readField?_padded 2 _ rfl, Option.bind_some,
    readField?_padded 3 _ rfl, Option.bind_some]
  exact congrArg some instant.ofFields_date

theorem timestamp_injective :
    Function.Injective timestamp := by
  intro first second same
  have sameInstant := congrArg ofTimestamp? same
  rw [ofTimestamp?_timestamp, ofTimestamp?_timestamp] at sameInstant
  exact Option.some.inj sameInstant

end Reading

/-- An instant before the year 10000. -/
structure IsFourDigit
    (instant : Instant) : Prop where
  seconds_lt : instant.seconds < 253402300800
  milliseconds_lt : instant.milliseconds < 1000

/-- A text with fields of fixed widths, each in the range of the calendar. -/
structure IsLaidOut
    (text : String)
    (date : CivilDate)
    (hour minute second milliseconds : Nat) : Prop where
  text_eq :
    text.toList =
      Numeral.fieldDigits 4 date.year ++ '-' ::
        (Numeral.fieldDigits 2 date.month ++ '-' ::
          (Numeral.fieldDigits 2 date.day ++ 'T' ::
            (Numeral.fieldDigits 2 hour ++ ':' ::
              (Numeral.fieldDigits 2 minute ++ ':' ::
                (Numeral.fieldDigits 2 second ++ '.' ::
                  (Numeral.fieldDigits 3 milliseconds ++ ['Z']))))))
  isDate : date.IsDate
  year_lt : date.year < 10000
  hour_lt : hour < 24
  minute_lt : minute < 60
  second_lt : second < 60
  milliseconds_lt : milliseconds < 1000

section Sorting

variable
  {text firstText secondText : String}
  {date firstDate secondDate : CivilDate}
  {hour minute second milliseconds : Nat}
  {firstHour firstMinute firstSecond firstMilliseconds : Nat}
  {secondHour secondMinute secondSecond secondMilliseconds : Nat}

theorem IsLaidOut.length_eq
    (laidOut : IsLaidOut text date hour minute second milliseconds) :
    text.length = 24 := by
  rw [← String.length_toList, laidOut.text_eq]
  simp only [List.length_append, List.length_cons, Numeral.length_fieldDigits, List.length_nil]

theorem month_lt_hundred
    (isDate : date.IsDate) :
    date.month < 10 ^ 2 :=
  Nat.lt_of_le_of_lt isDate.month_le (by decide)

theorem day_lt_hundred
    (isDate : date.IsDate) :
    date.day < 10 ^ 2 :=
  Nat.lt_of_le_of_lt
    (isDate.day_le.trans (CivilDate.monthLength_le date.year date.month)) (by decide)

/-- Texts of fixed widths are in the order of their fields, the first one first. -/
theorem IsLaidOut.order_eq
    (first :
      IsLaidOut firstText firstDate firstHour firstMinute firstSecond firstMilliseconds)
    (second :
      IsLaidOut secondText secondDate secondHour secondMinute secondSecond
        secondMilliseconds) :
    Bytes.order (Bytes.ofText firstText) (Bytes.ofText secondText) =
      (CivilDate.order firstDate secondDate).then
        ((compare firstHour secondHour).then
          ((compare firstMinute secondMinute).then
            ((compare firstSecond secondSecond).then
              (compare firstMilliseconds secondMilliseconds)))) := by
  have firstHourFits : firstHour < 10 ^ 2 := Nat.lt_trans first.hour_lt (by decide)
  have secondHourFits : secondHour < 10 ^ 2 := Nat.lt_trans second.hour_lt (by decide)
  have firstMinuteFits : firstMinute < 10 ^ 2 := Nat.lt_trans first.minute_lt (by decide)
  have secondMinuteFits : secondMinute < 10 ^ 2 := Nat.lt_trans second.minute_lt (by decide)
  have firstSecondFits : firstSecond < 10 ^ 2 := Nat.lt_trans first.second_lt (by decide)
  have secondSecondFits : secondSecond < 10 ^ 2 := Nat.lt_trans second.second_lt (by decide)
  rw [Bytes.ofText, Bytes.ofText, first.text_eq, second.text_eq,
    ← Bytes.ofCharacters, ← Bytes.ofCharacters,
    Bytes.order_field first.year_lt second.year_lt,
    Bytes.order_field (month_lt_hundred first.isDate) (month_lt_hundred second.isDate),
    Bytes.order_field (day_lt_hundred first.isDate) (day_lt_hundred second.isDate),
    Bytes.order_field firstHourFits secondHourFits,
    Bytes.order_field firstMinuteFits secondMinuteFits,
    Bytes.order_field firstSecondFits secondSecondFits,
    Bytes.order_field first.milliseconds_lt second.milliseconds_lt,
    (Bytes.order_eq_iff _ _).mpr rfl, CivilDate.order]
  simp only [Ordering.then_assoc, Ordering.then_eq]

variable
  {instant first second : Instant}

/-- The last day before the year 10000 is its last date. -/
theorem IsFourDigit.year_lt
    (fourDigit : instant.IsFourDigit) :
    instant.date.year < 10000 := by
  have inSeconds := fourDigit.seconds_lt
  have lastDate : CivilDate.ofDay 2932896 = ⟨9999, 12, 31⟩ := rfl
  refine Nat.lt_of_not_le fun later => ?_
  have before :
      (CivilDate.ofDay 2932896).Before instant.date := by
    rw [lastDate]
    exact Or.inl later
  have numbers := before.dayNumber_lt (CivilDate.isDate_ofDay 2932896)
  rw [date, CivilDate.dayNumber_ofDay, CivilDate.dayNumber_ofDay, daySeconds] at numbers
  omega

/-- Timestamps before the year 10000 have the widths of their layout. -/
theorem IsFourDigit.isLaidOut
    (fourDigit : instant.IsFourDigit) :
    IsLaidOut instant.timestamp instant.date (instant.seconds % daySeconds / 3600)
      (instant.seconds % 3600 / 60) (instant.seconds % 60) instant.milliseconds := by
  have isDate : instant.date.IsDate := CivilDate.isDate_ofDay _
  have hour_lt : instant.seconds % daySeconds / 3600 < 24 := by
    rw [daySeconds]
    omega
  have minute_lt : instant.seconds % 3600 / 60 < 60 := by
    omega
  have second_lt : instant.seconds % 60 < 60 := by
    omega
  refine
    { isDate, hour_lt, minute_lt, second_lt
      year_lt := fourDigit.year_lt
      milliseconds_lt := fourDigit.milliseconds_lt
      text_eq := ?_ }
  rw [toList_timestamp,
    Numeral.toList_padded_eq_fieldDigits (by decide) fourDigit.year_lt,
    Numeral.toList_padded_eq_fieldDigits (by decide) (month_lt_hundred isDate),
    Numeral.toList_padded_eq_fieldDigits (by decide) (day_lt_hundred isDate),
    Numeral.toList_padded_eq_fieldDigits (by decide) (hour_lt.trans (by decide)),
    Numeral.toList_padded_eq_fieldDigits (by decide) (minute_lt.trans (by decide)),
    Numeral.toList_padded_eq_fieldDigits (by decide) (second_lt.trans (by decide)),
    Numeral.toList_padded_eq_fieldDigits (by decide) fourDigit.milliseconds_lt]

/-- The order of instants in time. -/
def order
    (first second : Instant) : Ordering :=
  (compare first.seconds second.seconds).then
    (compare first.milliseconds second.milliseconds)

/-- Seconds are in the order of their dates and the times of their days. -/
theorem compare_seconds
    (first second : Instant) :
    compare first.seconds second.seconds =
      (CivilDate.order first.date second.date).then
        ((compare (first.seconds % daySeconds / 3600) (second.seconds % daySeconds / 3600)).then
          ((compare (first.seconds % 3600 / 60) (second.seconds % 3600 / 60)).then
            (compare (first.seconds % 60) (second.seconds % 60)))) := by
  have byDate :
      CivilDate.order first.date second.date =
        compare (first.seconds / daySeconds) (second.seconds / daySeconds) := by
    rw [date, date,
      CivilDate.order_eq_compare (CivilDate.isDate_ofDay _) (CivilDate.isDate_ofDay _),
      CivilDate.dayNumber_ofDay, CivilDate.dayNumber_ofDay]
    simp only [Nat.compare_eq_ite_lt, Nat.add_lt_add_iff_right]
  have hours : 3600 ∣ daySeconds := by
    decide
  have minutes : 60 ∣ 3600 := by
    decide
  rw [compare_div_mod (by decide : 0 < daySeconds), byDate,
    compare_div_mod (by decide : 0 < 3600) (first.seconds % daySeconds),
    Nat.mod_mod_of_dvd _ hours, Nat.mod_mod_of_dvd _ hours,
    compare_div_mod (by decide : 0 < 60) (first.seconds % 3600),
    Nat.mod_mod_of_dvd _ minutes, Nat.mod_mod_of_dvd _ minutes]

/-- Timestamps before the year 10000 are in the order of their instants, byte by byte. -/
theorem IsFourDigit.order_timestamp
    (firstFourDigit : first.IsFourDigit)
    (secondFourDigit : second.IsFourDigit) :
    Bytes.order (Bytes.ofText first.timestamp) (Bytes.ofText second.timestamp) =
      order first second := by
  rw [firstFourDigit.isLaidOut.order_eq secondFourDigit.isLaidOut, order, compare_seconds]
  simp only [Ordering.then_assoc]

end Sorting

/--
Timestamps are read as their instants, so that no two instants share one; and
before the year 10000 they have 24 characters in one layout, whose bytes are in
the order of the instants.
-/
theorem timestamps_readBack_sorted :
    (∀ instant, ofTimestamp? (timestamp instant) = some instant) ∧
      Function.Injective timestamp ∧
        (∀ instant : Instant, instant.IsFourDigit →
          instant.timestamp.length = 24 ∧
            ∃ date hour minute second,
              IsLaidOut instant.timestamp date hour minute second instant.milliseconds) ∧
          ∀ first second : Instant, first.IsFourDigit → second.IsFourDigit →
            Bytes.order (Bytes.ofText first.timestamp) (Bytes.ofText second.timestamp) =
              order first second := by
  refine
    ⟨ofTimestamp?_timestamp, timestamp_injective, fun instant fourDigit => ?_,
      fun first second firstFourDigit secondFourDigit =>
        firstFourDigit.order_timestamp secondFourDigit⟩
  have laidOut := fourDigit.isLaidOut
  exact ⟨laidOut.length_eq, _, _, _, _, laidOut⟩

/-- The last millisecond before the year 10000 comes after a leap day. -/
theorem timestamps_readBack_sorted_lastYear :
    IsFourDigit ⟨951827696, 7⟩ ∧ IsFourDigit ⟨253402300799, 999⟩ ∧
      Bytes.order (Bytes.ofText (timestamp ⟨951827696, 7⟩))
          (Bytes.ofText (timestamp ⟨253402300799, 999⟩)) =
        .lt := by
  have leapDay : IsFourDigit ⟨951827696, 7⟩ := ⟨by decide, by decide⟩
  have lastYear : IsFourDigit ⟨253402300799, 999⟩ := ⟨by decide, by decide⟩
  exact ⟨leapDay, lastYear, timestamps_readBack_sorted.2.2.2 _ _ leapDay lastYear⟩

end Instant

end LibcConformance
