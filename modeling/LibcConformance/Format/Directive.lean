import LibcConformance.Numeral

namespace LibcConformance

/-!
# Format directives

A directive asks for one argument to be written in a field.  It has flags, a
width and a precision that are absent, a number or left to an argument, a
length modifier, and one of nine conversion letters.
-/

namespace Format

/-- The characters that may stand between the percent sign and the width. -/
inductive Flag where
  | leftJustify
  | forceSign
  | spaceSign
  | alternate
  | zeroPad
  deriving Repr, DecidableEq

namespace Flag

/-- All flags, in the order in which a directive is written out. -/
def all : List Flag :=
  [.leftJustify, .forceSign, .spaceSign, .alternate, .zeroPad]

/-- The character of a flag. -/
def character : Flag → Char
  | .leftJustify => '-'
  | .forceSign => '+'
  | .spaceSign => ' '
  | .alternate => '#'
  | .zeroPad => '0'

/-- The flag with the given character. -/
def ofByte? (byte : UInt8) : Option Flag :=
  all.find? fun flag => ascii flag.character = byte

end Flag

/-- Which flags a directive has. -/
structure Flags where
  leftJustify : Bool
  forceSign : Bool
  spaceSign : Bool
  alternate : Bool
  zeroPad : Bool
  deriving Repr, DecidableEq

namespace Flags

/-- No flag at all. -/
def none : Flags :=
  ⟨false, false, false, false, false⟩

/-- Whether a flag is among them. -/
def has (flags : Flags) : Flag → Bool
  | .leftJustify => flags.leftJustify
  | .forceSign => flags.forceSign
  | .spaceSign => flags.spaceSign
  | .alternate => flags.alternate
  | .zeroPad => flags.zeroPad

/-- The flags that are set, in the order of `Flag.all`. -/
def toList (flags : Flags) : List Flag :=
  Flag.all.filter flags.has

/-- The flags in a list, exactly as they stand there. -/
def ofList (run : List Flag) : Flags where
  leftJustify := .leftJustify ∈ run
  forceSign := .forceSign ∈ run
  spaceSign := .spaceSign ∈ run
  alternate := .alternate ∈ run
  zeroPad := .zeroPad ∈ run

/-- A plus sign overrides a space, and a minus sign overrides a zero. -/
def normalized (flags : Flags) : Flags :=
  { flags with
    spaceSign := flags.spaceSign && !flags.forceSign
    zeroPad := flags.zeroPad && !flags.leftJustify }

end Flags

/-- A width or a precision. -/
inductive Amount where
  | absent
  | fixed (value : UInt64)
  | fromArgument
  deriving Repr, DecidableEq

/-- How wide the argument of an integer conversion is. -/
inductive LengthModifier where
  | absent
  | hh
  | h
  | l
  | ll
  | z
  | t
  | j
  deriving Repr, DecidableEq

namespace LengthModifier

/-- The letters of a modifier. -/
def text : LengthModifier → String
  | .absent => ""
  | .hh => "hh"
  | .h => "h"
  | .l => "l"
  | .ll => "ll"
  | .z => "z"
  | .t => "t"
  | .j => "j"

/-- How many values there are of the width that a conversion looks at: 8, 16, 32 or 64 bits. -/
def range : LengthModifier → Nat
  | .hh => 0x100
  | .h => 0x10000
  | .absent => 0x100000000
  | _ => wordSize

end LengthModifier

/-- What a directive does with its argument. -/
inductive Conversion where
  | decimal
  | integer
  | unsigned
  | hexadecimal
  | upperHexadecimal
  | octal
  | string
  | character
  | pointer
  deriving Repr, DecidableEq

namespace Conversion

/-- All conversions. -/
def all : List Conversion :=
  [.decimal, .integer, .unsigned, .hexadecimal, .upperHexadecimal, .octal,
    .string, .character, .pointer]

/-- The letter of a conversion. -/
def letter : Conversion → Char
  | .decimal => 'd'
  | .integer => 'i'
  | .unsigned => 'u'
  | .hexadecimal => 'x'
  | .upperHexadecimal => 'X'
  | .octal => 'o'
  | .string => 's'
  | .character => 'c'
  | .pointer => 'p'

/-- The conversion with the given letter. -/
def ofByte? (byte : UInt8) : Option Conversion :=
  all.find? fun conversion => ascii conversion.letter = byte

/-- The radix in which an unsigned number is written. -/
def radix : Conversion → Nat
  | .octal => 8
  | .hexadecimal => 16
  | .upperHexadecimal => 16
  | _ => 10

/-- What the alternate form puts in front of an unsigned number other than zero. -/
def alternateLead : Conversion → Bytes
  | .octal => Bytes.ofText "0"
  | .hexadecimal => Bytes.ofText "0x"
  | .upperHexadecimal => Bytes.ofText "0X"
  | _ => []

end Conversion

/-- A directive: everything between a percent sign and the end of its conversion letter. -/
structure Directive where
  flags : Flags
  width : Amount
  precision : Amount
  length : LengthModifier
  conversion : Conversion
  deriving Repr, DecidableEq

namespace Directive

/-- A conversion letter alone. -/
def plain (conversion : Conversion) : Directive where
  flags := .none
  width := .absent
  precision := .absent
  length := .absent
  conversion := conversion

end Directive

end Format

end LibcConformance
