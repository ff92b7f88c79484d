import LibcConformance.Json.Document
import LibcConformance.Numeral

namespace LibcConformance.Json

/-!
# Binary floating-point numbers

A number that is no integer is a 64-bit binary float, held by its bits.
Reading one takes as many digits as fit a word, converts that word and scales
it by powers of ten in float arithmetic; so a numeral with many digits may come
out a last place away from the nearest float, always in the same way.  Writing
one takes the coarsest decimal grid that has a point between the two midpoints
to the neighbouring floats, and the point of it nearest to the value.
-/

namespace Binary64

/-- The digits of a numeral that fit a word, and the power of ten that scales them. -/
structure Scaled where
  significand : Nat
  exponent : Int
  deriving Repr, DecidableEq

/-- Takes in digits while the significand stays a word, and answers the digits that are left. -/
def absorb (significand : Nat) : List Char → Nat × List Char
  | [] => (significand, [])
  | digit :: rest =>
      let next := significand * 10 + (digit.toNat - '0'.toNat)
      if next < wordSize then absorb next rest else (significand, digit :: rest)

/-- The exponent that a number is written with, zero if it has none. -/
def writtenExponent (text : NumberText) : Int :=
  match text.exponent with
  | none => 0
  | some exponent =>
      let size := exponent.digits.foldl (fun value digit => value * 10 + (digit.toNat - '0'.toNat)) 0
      if exponent.negative then -(size : Int) else size

/--
The significand and the exponent of a numeral.  Digits of the whole part that
do not fit still count as places; digits of the fraction that do not fit are
dropped.
-/
def scale (text : NumberText) : Scaled :=
  let (whole, leftWhole) := absorb 0 text.whole
  let fraction := text.fraction.getD []
  let (significand, leftFraction) := absorb whole fraction
  { significand
    exponent :=
      leftWhole.length - (fraction.length - leftFraction.length : Nat) + writtenExponent text }

/-- A power of ten as a float. -/
def powerOfTen (exponent : Nat) : Float :=
  Float.ofScientific 1 false exponent

/--
Scales a float by a power of ten.  Beyond the range of floats a value other
than zero has none; far below it the value is divided down to zero.
-/
def scaleBy? (value : Float) (exponent : Int) : Option Float :=
  if exponent.natAbs ≤ 308 then
    if exponent < 0 then
      some (value / powerOfTen exponent.natAbs)
    else
      let scaled := value * powerOfTen exponent.natAbs
      if scaled.isInf then none else some scaled
  else if value == 0 then
    some value
  else if exponent > 0 then
    none
  else
    scaleBy? (value / powerOfTen 308) (exponent + 308)
termination_by exponent.natAbs

/-- The bits of the float that a numeral is read as, if it is in range. -/
def ofText? (text : NumberText) : Option UInt64 :=
  let scaled := scale text
  (scaleBy? (UInt64.ofNat scaled.significand).toFloat scaled.exponent).map fun value =>
    (if text.negative then -value else value).toBits

/-- A finite positive float as a natural number times a power of two. -/
structure Binary where
  significand : Nat
  exponent : Int
  /-- Whether the float below is half as far away as the one above. -/
  lowest : Bool
  deriving Repr, DecidableEq

/-- The bit that a float leaves out in front of the bits of its fraction. -/
def leadingBit : Nat :=
  0x10000000000000

/-- The bit that holds the sign. -/
def signBit : Nat :=
  0x8000000000000000

/-- Takes the sign off a float and splits the rest. -/
def split (bits : UInt64) : Binary :=
  let biased := bits.toNat / leadingBit % 0x800
  let fraction := bits.toNat % leadingBit
  if biased = 0 then
    { significand := fraction, exponent := -1074, lowest := false }
  else
    { significand := leadingBit + fraction
      exponent := (biased : Int) - 1075
      lowest := fraction = 0 ∧ biased > 1 }

/-- A decimal number: digits times a power of ten. -/
structure Decimal where
  digits : Nat
  exponent : Int
  deriving Repr, DecidableEq

/--
The point of the grid of multiples of a power of ten that is nearest to a float
among those that read back as it; of two equally near ones the even.
-/
def nearestOn? (binary : Binary) (exponent : Int) : Option Decimal :=
  let shift := binary.exponent - 2
  let factor := Nat.pow 2 shift.toNat * Nat.pow 10 (-exponent).toNat
  let unit := Nat.pow 2 (-shift).toNat * Nat.pow 10 exponent.toNat
  let value := 4 * binary.significand * factor
  let low := (4 * binary.significand - if binary.lowest then 1 else 2) * factor
  let high := (4 * binary.significand + 2) * factor
  let closed : Bool := binary.significand % 2 = 0
  let readsBack (digits : Nat) : Bool :=
    (low < digits * unit && digits * unit < high) ||
      (closed && (digits * unit = low || digits * unit = high))
  let below := value / unit
  let above := below + 1
  let toBelow := value - below * unit
  let toAbove := above * unit - value
  let preferred :=
    if toBelow < toAbove ∨ (toBelow = toAbove ∧ below % 2 = 0) then
      [below, above]
    else
      [above, below]
  (preferred.find? readsBack).map fun digits => { digits, exponent }

/-- The decimal number with the fewest digits that reads back as a float, its sign apart. -/
def shortest (bits : UInt64) : Decimal :=
  let binary := split bits
  if binary.significand = 0 then
    { digits := 0, exponent := 0 }
  else
    ((List.range 660).findSome? fun step => nearestOn? binary (310 - (step : Nat))).getD
      { digits := 0, exponent := 0 }

/-- Writes a decimal number with a point, from `0.00001` up to seventeen places, else with an exponent. -/
def layout (decimal : Decimal) : String :=
  let digits := Numeral.digits 10 decimal.digits
  let lead := decimal.exponent + digits.length - 1
  if decimal.exponent ≥ 0 ∧ lead < 16 then
    String.ofList (digits ++ List.replicate decimal.exponent.toNat '0' ++ ['.', '0'])
  else if lead ≥ 0 ∧ lead < 16 then
    String.ofList (digits.take (lead.toNat + 1) ++ '.' :: digits.drop (lead.toNat + 1))
  else if lead < 0 ∧ lead ≥ -5 then
    String.ofList (['0', '.'] ++ List.replicate (-lead - 1).toNat '0' ++ digits)
  else
    let fraction := if digits.length > 1 then '.' :: digits.drop 1 else []
    let sign := if lead < 0 then "-" else "+"
    String.ofList (digits.take 1 ++ fraction) ++ "e" ++ sign ++ toString lead.natAbs

/-- The text of a finite float: the fewest digits that read back, at least one after a point. -/
def text (bits : UInt64) : String :=
  let sign := if bits.toNat ≥ signBit then "-" else ""
  sign ++ layout (shortest bits)

end Binary64

end LibcConformance.Json
