import LibcConformance.Case.Initializer
import LibcConformance.Format.Argument

namespace LibcConformance

/-!
# Probes

A probe says how a case exercises its routine: the arrays, offsets and counts
that its block of C uses.
-/

/-- An argument of a formatting call in a test program. -/
inductive CallArgument where
  | signed (value : Int64)
  | unsigned (value : UInt64)
  | character (byte : UInt8)
  | text (text : String)
  deriving Repr, DecidableEq

namespace CallArgument

/-- The argument in C. -/
def expression : CallArgument → String
  | .signed number => toString number.toInt
  | .unsigned number => toString number.toNat ++ "u"
  | .character byte => CText.characterLiteral byte
  | .text content => CText.stringLiteral (Bytes.ofText content)

/-- The value that the call receives. -/
def value : CallArgument → Format.Argument
  | .signed number => .signed number
  | .unsigned number => .unsigned number
  | .character byte => .character byte
  | .text content => .text (Bytes.ofText content)

end CallArgument

/-- Where a formatting call writes. -/
inductive Sink where
  /-- The console, of which only the returned count can be seen. -/
  | console
  /-- An array that must hold the whole output. -/
  | buffer (capacity : Nat)
  /-- An array of which at most `bound` bytes are written. -/
  | bounded (capacity bound : Nat)
  deriving Repr, DecidableEq

/-- How a case exercises its routine. -/
inductive Probe where
  /-- Sets `size` bytes of an array one byte longer. -/
  | fill (size : Nat) (byte : UInt8)
  /-- Copies a payload to an array one byte longer. -/
  | copy (payload : String)
  /-- Moves a string and its terminator to another array. -/
  | moveBetween (source : String) (capacity : Nat)
  /-- Moves bytes inside an array that starts with a string. -/
  | moveWithin (initial : String) (capacity target source count : Nat)
  /-- Compares the first bytes of two arrays. -/
  | compare (left right : Operand) (count : Nat)
  /-- Measures a string. -/
  | length (text : String)
  /-- Appends a string to one in an array. -/
  | append (front back : String) (capacity : Nat)
  /-- Copies a string. -/
  | copyString (text : String) (capacity : Nat)
  /-- Copies at most `count` bytes of a string to an array of zeros. -/
  | copyBounded (source : String) (count capacity : Nat)
  /-- Compares two strings, or as much of them as a bound allows. -/
  | compareStrings (left right : String) (bound : Option Nat)
  /-- Formats a template. -/
  | format (template : String) (arguments : List CallArgument) (sink : Sink)
  deriving Repr, DecidableEq

end LibcConformance
