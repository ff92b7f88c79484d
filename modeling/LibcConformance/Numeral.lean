import LibcConformance.Bytes

namespace LibcConformance

/-!
# Numerals

Numbers are written most significant digit first, without leading zeros, in a
radix of at most sixteen; the value of a digit is read in either letter case.
-/

/-- The number of 64-bit words. -/
def wordSize : Nat :=
  0x10000000000000000

namespace Numeral

/-- The digits of a number in lowercase; zero is the single digit `0`. -/
def digits (radix value : Nat) : List Char :=
  Nat.toDigits radix value

/-- The numeral of a number in lowercase. -/
def text (radix value : Nat) : String :=
  String.ofList (digits radix value)

/-- The bytes of a numeral, with letters in upper case if asked for. -/
def bytes (radix : Nat) (uppercase : Bool) (value : Nat) : Bytes :=
  (digits radix value).map fun digit =>
    ascii (if uppercase then digit.toUpper else digit)

/-- The decimal numeral with zeros in front up to the given number of digits. -/
def padded (width value : Nat) : String :=
  let numeral := digits 10 value
  String.ofList (List.replicate (width - numeral.length) '0' ++ numeral)

/-- The value of a digit, `a` to `f` and `A` to `F` counting on from nine. -/
def hexDigitValue? (digit : Char) : Option Nat :=
  if '0' ≤ digit ∧ digit ≤ '9' then
    some (digit.toNat - '0'.toNat)
  else if 'a' ≤ digit ∧ digit ≤ 'f' then
    some (digit.toNat - 'a'.toNat + 10)
  else if 'A' ≤ digit ∧ digit ≤ 'F' then
    some (digit.toNat - 'A'.toNat + 10)
  else
    none

/-- The value of a digit of the given radix; no other character has one. -/
def digitValue? (radix : Nat) (digit : Char) : Option Nat :=
  (hexDigitValue? digit).filter (· < radix)

end Numeral

end LibcConformance
