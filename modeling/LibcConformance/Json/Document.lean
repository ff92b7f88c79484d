namespace LibcConformance.Json

/-!
# JSON as it is written

A document keeps what a JSON text says before any of it is given a meaning:
strings still hold their numeric escapes, numbers their digits, and objects
every member in order, repeated names included.  Reading a document checks
the grammar alone, at any depth of nesting.
-/

/-- One unit of a string: a character, or the 16-bit number of a `\u` escape. -/
inductive StringUnit where
  | character (character : Char)
  | escaped (number : Nat)
  deriving Repr, DecidableEq

/-- The exponent of a number: its sign and its digits. -/
structure Exponent where
  negative : Bool
  digits : List Char
  deriving Repr, DecidableEq

/-- A number by its parts; the fraction and the exponent may be missing. -/
structure NumberText where
  negative : Bool
  whole : List Char
  fraction : Option (List Char)
  exponent : Option Exponent
  deriving Repr, DecidableEq

/-- A JSON text by its structure. -/
inductive Document where
  | null
  | bool (value : Bool)
  | number (text : NumberText)
  | string (units : List StringUnit)
  | array (items : List Document)
  | object (members : List (List StringUnit × Document))
  deriving Repr

namespace StringUnit

/-- Whether a number is the first half of a surrogate pair. -/
def isHighSurrogate (number : Nat) : Bool :=
  0xd800 ≤ number && number < 0xdc00

/-- Whether a number is the second half of a surrogate pair. -/
def isLowSurrogate (number : Nat) : Bool :=
  0xdc00 ≤ number && number < 0xe000

/-- The number of the character that a surrogate pair stands for. -/
def pairNumber (high low : Nat) : Nat :=
  0x10000 + (high - 0xd800) * 0x400 + (low - 0xdc00)

/-- The characters of a string; half of a surrogate pair on its own has none. -/
def characters? : List StringUnit → Option (List Char)
  | [] => some []
  | .character plain :: rest => (characters? rest).map (plain :: ·)
  | .escaped high :: .escaped low :: rest =>
      if isHighSurrogate high && isLowSurrogate low then
        (characters? rest).map (Char.ofNat (pairNumber high low) :: ·)
      else if isHighSurrogate high || isLowSurrogate high then
        none
      else
        (characters? (.escaped low :: rest)).map (Char.ofNat high :: ·)
  | .escaped number :: rest =>
      if isHighSurrogate number || isLowSurrogate number then
        none
      else
        (characters? rest).map (Char.ofNat number :: ·)

/-- The text of a string, if its surrogates come in pairs. -/
def text? (units : List StringUnit) : Option String :=
  (characters? units).map String.ofList

end StringUnit

end LibcConformance.Json
