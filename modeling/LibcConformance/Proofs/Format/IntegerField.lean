import Mathlib.Data.Int.ModEq
import LibcConformance.Format.Field
import LibcConformance.Proofs.Numeral

namespace LibcConformance

/-!
# Fields of integers

An integer directive looks at the low bits of its argument and reads them with
or without a sign.  It writes spaces, a lead, zeros, the shortest numeral of the
number and spaces again; the precision, the width and the flags say how many of
each.
-/

namespace Format

/-- How many bits of its argument a conversion looks at. -/
def LengthModifier.bits : LengthModifier → Nat
  | .hh => 8
  | .h => 16
  | .absent => 32
  | .l | .ll | .z | .t | .j => 64

/-- The number that an amount asks for, zero if it asks for none. -/
def Amount.number : Amount → Nat
  | .fixed value => value.toNat
  | _ => 0

/-- The number that an argument is, if it is one. -/
def Argument.integer? : Argument → Option Int
  | .signed value => some value.toInt
  | .unsigned value => some value.toNat
  | _ => none

namespace Conversion

def isSigned : Conversion → Bool
  | .decimal | .integer => true
  | _ => false

def isUnsigned : Conversion → Bool
  | .unsigned | .hexadecimal | .upperHexadecimal | .octal => true
  | _ => false

/-- The base of the numerals of an integer conversion. -/
def base : Conversion → Nat
  | .octal => 8
  | .hexadecimal | .upperHexadecimal => 16
  | _ => 10

/-- Only one conversion writes its digits in upper case. -/
def uppercase (conversion : Conversion) : Bool :=
  conversion = .upperHexadecimal

end Conversion

namespace Directive

/-- A value stands for a number modulo the bits that a directive looks at. -/
structure Reads (directive : Directive) (number value : Int) : Prop where
  congruent : value ≡ number [ZMOD 2 ^ directive.length.bits]
  signed :
    directive.conversion.isSigned = true →
      -2 ^ (directive.length.bits - 1) ≤ value ∧
        value < 2 ^ (directive.length.bits - 1)
  unsigned :
    directive.conversion.isUnsigned = true →
      0 ≤ value ∧ value < 2 ^ directive.length.bits

/-- What stands in front of the zeros and the digits of a value. -/
def lead (directive : Directive) (value : Int) : Bytes :=
  if value < 0 then
    Bytes.ofText "-"
  else if directive.conversion.isSigned then
    if directive.flags.forceSign then
      Bytes.ofText "+"
    else if directive.flags.spaceSign then
      Bytes.ofText " "
    else
      []
  else if directive.flags.alternate ∧ value ≠ 0 then
    match directive.conversion with
    | .hexadecimal => Bytes.ofText "0x"
    | .upperHexadecimal => Bytes.ofText "0X"
    | _ => []
  else
    []

/-- The field is filled with zeros, not with spaces. -/
structure ZeroFills (directive : Directive) : Prop where
  flagged : directive.flags.zeroPad = true
  notLeft : directive.flags.leftJustify = false
  noPrecision : directive.precision = .absent

/-- Zero is written without digits at precision zero. -/
structure Suppresses (directive : Directive) (value : Int) : Prop where
  isZero : value = 0
  precisionZero : directive.precision = .fixed 0

end Directive

/-- The parts of an integer in its field. -/
structure IntegerField where
  spacesBefore : Nat
  lead : Bytes
  zeros : Nat
  digits : Bytes
  spacesAfter : Nat
  deriving Repr, DecidableEq

namespace IntegerField

def bytes (field : IntegerField) : Bytes :=
  List.replicate field.spacesBefore (ascii ' ') ++ field.lead ++
    List.replicate field.zeros (ascii '0') ++ field.digits ++
      List.replicate field.spacesAfter (ascii ' ')

/-- A field shows a value as a directive asks for it. -/
structure Shows
    (field : IntegerField)
    (directive : Directive)
    (value : Int) : Prop where
  lead : field.lead = directive.lead value
  suppressed : directive.Suppresses value → field.digits = []
  shortest :
    ¬ directive.Suppresses value →
      Numeral.IsShortest directive.conversion.base
        directive.conversion.uppercase field.digits value.natAbs
  denotes :
    Numeral.Denotes directive.conversion.base directive.conversion.uppercase
      (List.replicate field.zeros (ascii '0') ++ field.digits) value.natAbs
  precision :
    ¬ directive.ZeroFills →
      field.zeros + field.digits.length =
        max directive.precision.number field.digits.length
  width :
    field.bytes.length =
      max directive.width.number
        (field.lead.length + max directive.precision.number field.digits.length)
  leftJustified :
    directive.flags.leftJustify = true → field.spacesBefore = 0
  zeroFilled :
    directive.ZeroFills → field.spacesBefore = 0
  rightJustified :
    directive.flags.leftJustify = false → field.spacesAfter = 0

/-- No run of padding in a field is longer than a number. -/
structure PaddedAtMost (field : IntegerField) (limit : Nat) : Prop where
  spacesBefore : field.spacesBefore ≤ limit
  zeros : field.zeros ≤ limit
  spacesAfter : field.spacesAfter ≤ limit

end IntegerField

theorem LengthModifier.range_eq
    (length : LengthModifier) :
    length.range = 2 ^ length.bits := by
  cases length <;> rfl

theorem padding_of_le
    {byte : UInt8}
    {count : Nat}
    (short : count ≤ 4096) :
    padding byte count = List.replicate count byte := by
  rw [padding, maxPadding, Nat.min_eq_left short]

namespace Directive

theorem fieldWidth_eq
    (directive : Directive) :
    directive.fieldWidth = directive.width.number := by
  unfold fieldWidth Amount.number
  cases directive.width <;> rfl

theorem precisionZeros_eq
    (directive : Directive)
    (digits : Bytes) :
    directive.precisionZeros digits =
      directive.precision.number - digits.length := by
  unfold precisionZeros Amount.number
  cases directive.precision with
  | fixed value => rfl
  | absent => exact (Nat.zero_sub _).symm
  | fromArgument => exact (Nat.zero_sub _).symm

/-- A size that fits a word is the sum of its parts. -/
theorem integerSize_of_lt
    {directive : Directive}
    {lead digits : Bytes}
    (fits :
      lead.length + (directive.precision.number - digits.length) +
        digits.length < wordSize) :
    directive.integerSize lead digits =
      lead.length + (directive.precision.number - digits.length) +
        digits.length := by
  rw [integerSize, precisionZeros_eq]
  cases asked : directive.precision with
  | fixed value =>
      rw [asked] at fits
      exact Nat.mod_eq_of_lt fits
  | absent | fromArgument => simp [Amount.number]

/-- The value that a directive takes from a number. -/
def taken (directive : Directive) (number : Int) : Int :=
  if directive.conversion.isSigned then
    directive.narrowSigned number
  else
    directive.narrowUnsigned number

/-- The numeral of a value without its sign. -/
def numeral (directive : Directive) (value : Int) : Bytes :=
  Numeral.bytes directive.conversion.base directive.conversion.uppercase
    value.natAbs

theorem not_isUnsigned_of_isSigned
    {conversion : Conversion}
    (signed : conversion.isSigned = true) :
    conversion.isUnsigned = false := by
  cases conversion with
  | decimal => rfl
  | integer => rfl
  | _ => cases signed

/-- The value that is taken is the one that is read off the low bits. -/
theorem reads_taken
    (directive : Directive)
    (number : Int) :
    directive.Reads number (directive.taken number) := by
  have range : (directive.length.range : Int) = 2 ^ directive.length.bits := by
    rw [LengthModifier.range_eq]
    push_cast
    rfl
  have rangePositive : 0 < directive.length.range := by
    cases directive.length <;> decide
  cases signed : directive.conversion.isSigned with
  | true =>
      have same :
          directive.taken number = number.bmod directive.length.range := by
        rw [taken, if_pos signed, narrowSigned]
      have lower := Int.le_bmod (x := number) rangePositive
      have upper := Int.bmod_lt (x := number) rangePositive
      refine ⟨?_, ?_, ?_⟩
      · rw [same, Int.ModEq, ← range]
        exact Int.bmod_emod
      · intro _
        rw [same]
        generalize number.bmod directive.length.range = value at lower upper
        cases given : directive.length <;>
          simp only [given, LengthModifier.range, LengthModifier.bits,
            wordSize] at lower upper ⊢ <;>
          omega
      · intro unsigned
        rw [not_isUnsigned_of_isSigned signed] at unsigned
        cases unsigned
  | false =>
      have nonnegative : 0 ≤ number % directive.length.range :=
        Int.emod_nonneg number (by omega)
      have same : directive.taken number = number % directive.length.range := by
        rw [taken, if_neg (by simp [signed]), narrowUnsigned,
          Int.toNat_of_nonneg nonnegative]
      refine ⟨?_, ?_, ?_⟩
      · rw [same, Int.ModEq, ← range, Int.emod_emod_of_dvd _ (Int.dvd_refl _)]
      · intro impossible
        rw [signed] at impossible
        cases impossible
      · intro _
        rw [same, ← range]
        exact ⟨nonnegative, Int.emod_lt_of_pos number (by omega)⟩

/-- The value that is taken fits a word, whatever its sign. -/
theorem natAbs_taken_lt
    {directive : Directive}
    (isInteger :
      directive.conversion.isSigned = true ∨
        directive.conversion.isUnsigned = true)
    (number : Int) :
    (directive.taken number).natAbs < wordSize := by
  have reads := directive.reads_taken number
  have bits : directive.length.bits ≤ 64 := by
    cases directive.length <;> decide
  rw [wordSize]
  rcases isInteger with signed | unsigned
  · obtain ⟨lower, upper⟩ := reads.signed signed
    have half : (2 : Int) ^ (directive.length.bits - 1) ≤ 2 ^ 63 :=
      pow_le_pow_right₀ (by decide) (by omega)
    omega
  · obtain ⟨lower, upper⟩ := reads.unsigned unsigned
    have whole : (2 : Int) ^ directive.length.bits ≤ 2 ^ 64 :=
      pow_le_pow_right₀ (by decide) bits
    omega

theorem length_lead_le
    (directive : Directive)
    (value : Int) :
    (directive.lead value).length ≤ 2 := by
  unfold lead
  repeat' split
  all_goals decide

theorem write?_signed
    {directive : Directive}
    {argument : Argument}
    {number : Int}
    (signed : directive.conversion.isSigned = true)
    (isNumber : argument.integer? = some number) :
    directive.write? argument =
      some (directive.writeSigned (directive.narrowSigned number)) := by
  rcases directive with ⟨flags, width, precision, length, conversion⟩
  cases argument with
  | signed value =>
      cases isNumber
      cases conversion with
      | decimal => rfl
      | integer => rfl
      | _ => cases signed
  | unsigned value =>
      cases isNumber
      cases conversion with
      | decimal => rfl
      | integer => rfl
      | _ => cases signed
  | character byte => cases isNumber
  | text bytes => cases isNumber
  | pointer address => cases isNumber

theorem write?_unsigned
    {directive : Directive}
    {argument : Argument}
    {number : Int}
    (unsigned : directive.conversion.isUnsigned = true)
    (isNumber : argument.integer? = some number) :
    directive.write? argument =
      some (directive.writeUnsigned (directive.narrowUnsigned number)) := by
  rcases directive with ⟨flags, width, precision, length, conversion⟩
  cases argument with
  | signed value =>
      cases isNumber
      cases conversion with
      | unsigned => rfl
      | hexadecimal => rfl
      | upperHexadecimal => rfl
      | octal => rfl
      | _ => cases unsigned
  | unsigned value =>
      cases isNumber
      cases conversion with
      | unsigned => rfl
      | hexadecimal => rfl
      | upperHexadecimal => rfl
      | octal => rfl
      | _ => cases unsigned
  | character byte => cases isNumber
  | text bytes => cases isNumber
  | pointer address => cases isNumber

theorem lead_of_isSigned
    {directive : Directive}
    (signed : directive.conversion.isSigned = true)
    (value : Int) :
    directive.lead value = directive.signLead value := by
  rw [lead, signLead, if_pos signed]
  rfl

/-- In front of an unsigned value stands the mark of its radix, if asked for. -/
theorem lead_of_isUnsigned
    {directive : Directive}
    (unsigned : directive.conversion.isUnsigned = true)
    (plainOctal :
      directive.conversion = .octal → directive.flags.alternate = false)
    (value : Nat) :
    directive.lead value =
      if directive.flags.alternate ∧ value ≠ 0 then
        directive.conversion.alternateLead
      else
        [] := by
  have notNegative : ¬ (value : Int) < 0 := by
    omega
  rcases directive with ⟨flags, width, precision, length, conversion⟩
  rw [lead, if_neg notNegative]
  cases conversion with
  | unsigned => simp [Conversion.isSigned, Conversion.alternateLead]
  | hexadecimal => simp [Conversion.isSigned, Conversion.alternateLead]
  | upperHexadecimal => simp [Conversion.isSigned, Conversion.alternateLead]
  | octal =>
      have plain : flags.alternate = false := plainOctal rfl
      simp [Conversion.isSigned, plain]
  | _ => cases unsigned

/-- An integer directive lays out the value that it takes. -/
theorem write?_eq_layoutInteger
    {directive : Directive}
    {argument : Argument}
    {number : Int}
    (isInteger :
      directive.conversion.isSigned = true ∨
        directive.conversion.isUnsigned = true)
    (plainOctal :
      directive.conversion = .octal → directive.flags.alternate = false)
    (isNumber : argument.integer? = some number) :
    directive.write? argument =
      some (directive.layoutInteger (directive.lead (directive.taken number))
        (directive.numeral (directive.taken number))) := by
  rcases isInteger with signed | unsigned
  · have decimalDigits :
        directive.conversion.base = 10 ∧
          directive.conversion.uppercase = false := by
      revert signed
      cases directive.conversion <;> decide
    rw [write?_signed signed isNumber, taken, if_pos signed,
      lead_of_isSigned signed, numeral, decimalDigits.1, decimalDigits.2]
    rfl
  · have notSigned : ¬ directive.conversion.isSigned = true := by
      intro signed
      rw [not_isUnsigned_of_isSigned signed] at unsigned
      cases unsigned
    have sameRadix :
        directive.conversion.base = directive.conversion.radix := by
      cases directive.conversion <;> rfl
    rw [write?_unsigned unsigned isNumber, taken, if_neg notSigned,
      lead_of_isUnsigned unsigned plainOctal, numeral, Int.natAbs_natCast,
      sameRadix]
    rfl

end Directive

namespace IntegerField

theorem length_bytes
    (field : IntegerField) :
    field.bytes.length =
      field.spacesBefore + field.lead.length + field.zeros +
        field.digits.length + field.spacesAfter := by
  simp only [bytes, List.length_append, List.length_replicate]

theorem base_range
    (conversion : Conversion) :
    1 < conversion.base ∧ conversion.base ≤ 16 := by
  cases conversion <;> decide

theorem isShortest_numeral
    (directive : Directive)
    (value : Int) :
    Numeral.IsShortest directive.conversion.base
      directive.conversion.uppercase (directive.numeral value) value.natAbs := by
  obtain ⟨baseRange, baseTable⟩ := base_range directive.conversion
  exact Numeral.isShortest_bytes baseRange baseTable value.natAbs

theorem numeral_eq_zero_iff
    (directive : Directive)
    (value : Int) :
    directive.numeral value = [ascii '0'] ↔ value = 0 := by
  obtain ⟨baseRange, baseTable⟩ := base_range directive.conversion
  rw [Directive.numeral, Numeral.bytes_eq_zero_iff baseRange baseTable,
    Int.natAbs_eq_zero]

/-- The digits of a field that shows a value are those that are laid out. -/
theorem digits_eq
    {field : IntegerField}
    {directive : Directive}
    {value : Int}
    (shows : field.Shows directive value) :
    (if directive.numeral value = [ascii '0'] ∧
          directive.precision = .fixed 0 then
        []
      else
        directive.numeral value) =
      field.digits := by
  have isZero := numeral_eq_zero_iff directive value
  by_cases suppressed : directive.Suppresses value
  · rw [if_pos ⟨isZero.mpr suppressed.isZero, suppressed.precisionZero⟩,
      shows.suppressed suppressed]
  · rw [if_neg fun both => suppressed ⟨isZero.mp both.1, both.2⟩]
    exact
      (isShortest_numeral directive value).unique
        (base_range directive.conversion).1 (shows.shortest suppressed)

/-- A numeral of a word has no more digits than the word has bits. -/
theorem length_digits_le
    {field : IntegerField}
    {directive : Directive}
    {value : Int}
    (shows : field.Shows directive value)
    (isWord : value.natAbs < wordSize) :
    field.digits.length ≤ 64 := by
  have baseRange := (base_range directive.conversion).1
  have few : value.natAbs < directive.conversion.base ^ 64 :=
    isWord.trans_le (Nat.pow_le_pow_left baseRange 64)
  rw [← digits_eq shows]
  split
  · exact Nat.zero_le 64
  · exact (Numeral.length_bytes_le_iff baseRange (by decide)).mpr few

/-- Parts of a word whose padding is not cut fit a word. -/
theorem integerSize_eq
    {field : IntegerField}
    {directive : Directive}
    {value : Int}
    (shows : field.Shows directive value)
    (padded : field.PaddedAtMost 4096)
    (isWord : value.natAbs < wordSize) :
    directive.integerSize field.lead field.digits =
      field.lead.length + (directive.precision.number - field.digits.length) +
        field.digits.length := by
  have shortLead : field.lead.length ≤ 2 := by
    rw [shows.lead]
    exact directive.length_lead_le value
  have fewDigits := length_digits_le shows isWord
  have fewZeros : directive.precision.number - field.digits.length ≤ 4096 := by
    by_cases zeroFills : directive.ZeroFills
    · simp [zeroFills.noPrecision, Amount.number]
    · have zeros := shows.precision zeroFills
      have notCut := padded.zeros
      omega
  apply Directive.integerSize_of_lt
  rw [wordSize]
  omega

/-- A field that shows a word is laid out for it, unless its padding is cut. -/
theorem layoutInteger_eq_bytes
    {field : IntegerField}
    {directive : Directive}
    {value : Int}
    (shows : field.Shows directive value)
    (padded : field.PaddedAtMost 4096)
    (isWord : value.natAbs < wordSize) :
    directive.layoutInteger (directive.lead value) (directive.numeral value) =
      field.bytes := by
  have total := shows.width
  rw [length_bytes] at total
  rw [Directive.layoutInteger, digits_eq shows, ← shows.lead]
  simp only [Directive.precisionZeros_eq, Directive.fieldWidth_eq,
    integerSize_eq shows padded isWord]
  cases left : directive.flags.leftJustify with
  | true =>
      have noZeroFill : ¬ directive.ZeroFills := by
        intro zeroFills
        rw [zeroFills.notLeft] at left
        cases left
      have noneBefore := shows.leftJustified left
      have zeros := shows.precision noZeroFill
      have sameZeros :
          directive.precision.number - field.digits.length = field.zeros := by
        omega
      have sameFill :
          directive.width.number -
              (field.lead.length + field.zeros + field.digits.length) =
            field.spacesAfter := by
        omega
      rw [if_pos rfl, sameZeros, sameFill, padding_of_le padded.zeros,
        padding_of_le padded.spacesAfter, bytes, noneBefore]
      simp
  | false =>
      have noneAfter := shows.rightJustified left
      rw [if_neg (by simp)]
      by_cases flagged :
          directive.flags.zeroPad = true ∧ directive.precision = .absent
      · have zeroFills : directive.ZeroFills := ⟨flagged.1, left, flagged.2⟩
        have noneBefore := shows.zeroFilled zeroFills
        have noPrecision : directive.precision.number = 0 := by
          rw [flagged.2]
          rfl
        have sameFill :
            directive.width.number -
                (field.lead.length + 0 + field.digits.length) =
              field.zeros := by
          omega
        rw [if_pos flagged, noPrecision, Nat.zero_sub, sameFill,
          padding_of_le padded.zeros, padding_of_le (Nat.zero_le _), bytes,
          noneBefore, noneAfter]
        simp
      · have noZeroFill : ¬ directive.ZeroFills := by
          intro zeroFills
          exact flagged ⟨zeroFills.flagged, zeroFills.noPrecision⟩
        have zeros := shows.precision noZeroFill
        have sameZeros :
            directive.precision.number - field.digits.length = field.zeros := by
          omega
        have sameFill :
            directive.width.number -
                (field.lead.length + field.zeros + field.digits.length) =
              field.spacesBefore := by
          omega
        rw [if_neg flagged, sameZeros, sameFill, padding_of_le padded.zeros,
          padding_of_le padded.spacesBefore, bytes, noneAfter]
        simp

theorem exists_digits
    (directive : Directive)
    (value : Int) :
    ∃ digits,
      (directive.Suppresses value → digits = []) ∧
        (¬ directive.Suppresses value →
          Numeral.IsShortest directive.conversion.base
            directive.conversion.uppercase digits value.natAbs) ∧
          Numeral.Denotes directive.conversion.base
            directive.conversion.uppercase digits value.natAbs := by
  by_cases suppressed : directive.Suppresses value
  · refine ⟨[], fun _ => rfl, fun shown => absurd suppressed shown, ?_⟩
    rw [suppressed.isZero]
    exact Numeral.denotes_nil
  · have shortest := isShortest_numeral directive value
    refine ⟨directive.numeral value, ?_, fun _ => shortest, shortest.denotes⟩
    exact fun zero => absurd zero suppressed

/-- Every value can be shown in a field. -/
theorem exists_shows
    (directive : Directive)
    (value : Int) :
    ∃ field : IntegerField, field.Shows directive value := by
  obtain ⟨digits, suppressed, shortest, denotes⟩ :=
    exists_digits directive value
  have basePositive : 0 < directive.conversion.base :=
    Nat.lt_of_succ_lt (base_range directive.conversion).1
  let zeros := directive.precision.number - digits.length
  let fill :=
    directive.width.number -
      ((directive.lead value).length +
        max directive.precision.number digits.length)
  cases left : directive.flags.leftJustify with
  | true =>
      refine ⟨⟨0, directive.lead value, zeros, digits, fill⟩, ?_⟩
      constructor
      case lead => rfl
      case suppressed => exact suppressed
      case shortest => exact shortest
      case denotes => exact denotes.zeros basePositive zeros
      case precision =>
        intro _
        dsimp only [zeros]
        omega
      case width =>
        rw [length_bytes]
        dsimp only [zeros, fill]
        omega
      case leftJustified => exact fun _ => rfl
      case zeroFilled => exact fun _ => rfl
      case rightJustified =>
        intro right
        rw [left] at right
        cases right
  | false =>
      by_cases flagged :
          directive.flags.zeroPad = true ∧ directive.precision = .absent
      · have zeroFills : directive.ZeroFills := ⟨flagged.1, left, flagged.2⟩
        have noPrecision : directive.precision.number = 0 := by
          rw [flagged.2]
          rfl
        refine ⟨⟨0, directive.lead value, fill, digits, 0⟩, ?_⟩
        constructor
        case lead => rfl
        case suppressed => exact suppressed
        case shortest => exact shortest
        case denotes => exact denotes.zeros basePositive fill
        case precision => exact fun noZeroFill => absurd zeroFills noZeroFill
        case width =>
          rw [length_bytes]
          dsimp only [fill]
          omega
        case leftJustified => exact fun _ => rfl
        case zeroFilled => exact fun _ => rfl
        case rightJustified => exact fun _ => rfl
      · refine ⟨⟨fill, directive.lead value, zeros, digits, 0⟩, ?_⟩
        constructor
        case lead => rfl
        case suppressed => exact suppressed
        case shortest => exact shortest
        case denotes => exact denotes.zeros basePositive zeros
        case precision =>
          intro _
          dsimp only [zeros]
          omega
        case width =>
          rw [length_bytes]
          dsimp only [zeros, fill]
          omega
        case leftJustified =>
          intro isLeft
          rw [left] at isLeft
          cases isLeft
        case zeroFilled =>
          intro zeroFills
          exact absurd ⟨zeroFills.flagged, zeroFills.noPrecision⟩ flagged
        case rightJustified => exact fun _ => rfl

end IntegerField

namespace Directive

/--
An integer directive reads the low bits of its argument as one value, and
writes the field that shows that value as the directive asks for it, as long as
no run of its padding is cut.
-/
theorem write?_integer
    {directive : Directive}
    {argument : Argument}
    {number : Int}
    (isInteger :
      directive.conversion.isSigned = true ∨
        directive.conversion.isUnsigned = true)
    (plainOctal :
      directive.conversion = .octal → directive.flags.alternate = false)
    (isNumber : argument.integer? = some number) :
    ∃ value,
      directive.Reads number value ∧
        (∃ field : IntegerField, field.Shows directive value) ∧
          ∀ field : IntegerField,
            field.Shows directive value →
            field.PaddedAtMost 4096 →
            directive.write? argument = some field.bytes := by
  refine
    ⟨directive.taken number, directive.reads_taken number,
      IntegerField.exists_shows directive _, ?_⟩
  intro field shows padded
  rw [write?_eq_layoutInteger isInteger plainOctal isNumber,
    IntegerField.layoutInteger_eq_bytes shows padded
      (natAbs_taken_lt isInteger number)]

/-- The byte 200 is shown as a negative number in a field filled with zeros. -/
theorem write?_negativeByte :
    let directive : Directive := {
      flags := { Flags.none with forceSign := true, zeroPad := true }
      width := .fixed 8
      precision := .absent
      length := .hh
      conversion := .decimal
    }
    let field : IntegerField := ⟨0, Bytes.ofText "-", 5, Bytes.ofText "56", 0⟩
    field.Shows directive (-56) ∧
      field.PaddedAtMost 4096 ∧
        directive.write? (.unsigned 200) = some field.bytes := by
  intro directive field
  have shortest : Numeral.IsShortest 10 false (Bytes.ofText "56") 56 :=
    Numeral.isShortest_bytes (by decide) (by decide) 56
  have zeroFills : directive.ZeroFills := ⟨rfl, rfl, rfl⟩
  have shows : field.Shows directive (-56) := by
    constructor
    case lead => rfl
    case suppressed =>
      exact fun suppressed => absurd suppressed.isZero (by decide)
    case shortest => exact fun _ => shortest
    case denotes => exact shortest.denotes.zeros (by decide) 5
    case precision => exact fun noZeroFill => absurd zeroFills noZeroFill
    case width => decide
    case leftJustified => exact fun _ => rfl
    case zeroFilled => exact fun _ => rfl
    case rightJustified => exact fun _ => rfl
  have padded : field.PaddedAtMost 4096 := ⟨by decide, by decide, by decide⟩
  have isInteger :
      directive.conversion.isSigned = true ∨
        directive.conversion.isUnsigned = true :=
    .inl rfl
  have plainOctal :
      directive.conversion = .octal → directive.flags.alternate = false := by
    decide
  have isNumber : (Argument.unsigned 200).integer? = some 200 := rfl
  obtain ⟨value, reads, _, written⟩ :=
    write?_integer isInteger plainOctal isNumber
  have sameValue : value = -56 := by
    have congruent : value % 256 = 200 := reads.congruent
    obtain ⟨lower, upper⟩ : -128 ≤ value ∧ value < 128 := reads.signed rfl
    omega
  subst sameValue
  exact ⟨shows, padded, written field shows padded⟩

end Directive

end Format

end LibcConformance
