import LibcConformance.Numeral
import LibcConformance.Text.WhiteSpace

namespace LibcConformance

/-!
# Seeds

A seed is a 64-bit word.  It is written in decimal, or in hexadecimal behind
`0x` or `0X`, with white space around it and underscores anywhere after the
mark.  Digits are read from left to right, and the first trouble decides.
-/

namespace Seed

/-- The seed that is taken when none is given. -/
def default : UInt64 :=
  0xdeadbeef

/-- Why a text is no seed. -/
inductive ParseError where
  | empty
  | invalidDigit
  | overflow
  deriving Repr, DecidableEq

/-- The report of a text that is no seed. -/
def ParseError.message : ParseError → String
  | .empty => "cannot parse integer from empty string"
  | .invalidDigit => "invalid digit found in string"
  | .overflow => "number too large to fit in target type"

/-- Reads digits onto the value of those before them. -/
def readDigits (radix value : Nat) : List Char → Except ParseError Nat
  | [] => .ok value
  | digit :: rest =>
      match Numeral.digitValue? radix digit with
      | none => .error .invalidDigit
      | some amount =>
          let next := value * radix + amount
          if next < wordSize then readDigits radix next rest else .error .overflow

/-- Reads a number, which may have one plus sign; a sign alone is no number. -/
def readNumber (radix : Nat) : List Char → Except ParseError Nat
  | [] => .error .empty
  | ['+'] => .error .invalidDigit
  | '+' :: digits => readDigits radix 0 digits
  | digits => readDigits radix 0 digits

/-- The radix of a seed and the text that its digits stand in. -/
def splitRadix : List Char → Nat × List Char
  | '0' :: 'x' :: body => (16, body)
  | '0' :: 'X' :: body => (16, body)
  | body => (10, body)

/-- Reads a seed. -/
def parse (text : String) : Except ParseError UInt64 :=
  let (radix, body) := splitRadix (WhiteSpace.trim text.toList)
  (readNumber radix (body.filter (· != '_'))).map UInt64.ofNat

/-- The name of the run that a seed starts. -/
def runId (seed : UInt64) : String :=
  "klibc-fixtures-" ++ Numeral.text 16 seed.toNat

end Seed

end LibcConformance
