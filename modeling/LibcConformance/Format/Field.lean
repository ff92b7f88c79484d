import LibcConformance.Format.Argument

namespace LibcConformance

/-!
# Writing one argument in its field

An integer is a lead (a sign or a radix mark), zeros up to the precision and
digits; any other value is a body that only the width pads.  Each run of
padding is cut at 4096 bytes.  A directive whose width or precision is still
left to an argument is written without it.
-/

namespace Format

/-- The longest run of padding. -/
def maxPadding : Nat :=
  4096

/-- A run of padding. -/
def padding (byte : UInt8) (count : Nat) : Bytes :=
  List.replicate (min count maxPadding) byte

namespace Directive

/-- The width that is asked for, zero if none is. -/
def fieldWidth (directive : Directive) : Nat :=
  match directive.width with
  | .fixed value => value.toNat
  | _ => 0

/-- The zeros that a precision puts in front of digits. -/
def precisionZeros (directive : Directive) (digits : Bytes) : Nat :=
  match directive.precision with
  | .fixed value => value.toNat - digits.length
  | _ => 0

/--
The size of an integer before it is filled up to its width.  It is a 64-bit
word: a lead and digits alone always fit one, but the zeros that a precision
asks for can take the sum past the last word, and then it starts over.
-/
def integerSize (directive : Directive) (lead digits : Bytes) : Nat :=
  match directive.precision with
  | .fixed _ =>
      (lead.length + directive.precisionZeros digits + digits.length) % wordSize
  | _ => lead.length + digits.length

/--
Lays out an integer.  Zero has no digits at precision zero.  Zeros fill the
field only if the directive asks for them, is not left-justified and has no
precision.
-/
def layoutInteger (directive : Directive) (lead numeral : Bytes) : Bytes :=
  let digits :=
    if numeral = [ascii '0'] ∧ directive.precision = .fixed 0 then [] else numeral
  let zeros := directive.precisionZeros digits
  let fill := directive.fieldWidth - directive.integerSize lead digits
  let number := padding (ascii '0') zeros ++ digits
  if directive.flags.leftJustify then
    lead ++ number ++ padding (ascii ' ') fill
  else if directive.flags.zeroPad ∧ directive.precision = .absent then
    lead ++ padding (ascii '0') fill ++ number
  else
    padding (ascii ' ') fill ++ lead ++ number

/-- Lays out a body that is not an integer: spaces in front of it, or behind it if left-justified. -/
def layoutBody (directive : Directive) (body : Bytes) : Bytes :=
  let fill := padding (ascii ' ') (directive.fieldWidth - body.length)
  if directive.flags.leftJustify then body ++ fill else fill ++ body

/-- The sign in front of a signed number. -/
def signLead (directive : Directive) (value : Int) : Bytes :=
  if value < 0 then
    [ascii '-']
  else if directive.flags.forceSign then
    [ascii '+']
  else if directive.flags.spaceSign then
    [ascii ' ']
  else
    []

/-- Writes a signed number in decimal. -/
def writeSigned (directive : Directive) (value : Int) : Bytes :=
  directive.layoutInteger (directive.signLead value) (Numeral.bytes 10 false value.natAbs)

/-- Writes a number without a sign, in the radix of the conversion. -/
def writeUnsigned (directive : Directive) (value : Nat) : Bytes :=
  let conversion := directive.conversion
  let lead :=
    if directive.flags.alternate ∧ value ≠ 0 then conversion.alternateLead else []
  directive.layoutInteger lead
    (Numeral.bytes conversion.radix (conversion = .upperHexadecimal) value)

/-- Writes a string; a precision limits how many of its bytes are shown. -/
def writeString (directive : Directive) (bytes : Bytes) : Bytes :=
  directive.layoutBody <|
    match directive.precision with
    | .fixed limit => bytes.take limit.toNat
    | _ => bytes

/-- Writes one byte. -/
def writeCharacter (directive : Directive) (byte : UInt8) : Bytes :=
  directive.layoutBody [byte]

/-- Writes an address in hexadecimal; the null address has a name of its own. -/
def writePointer (directive : Directive) (address : UInt64) : Bytes :=
  directive.layoutBody <|
    if address = 0 then
      Bytes.ofText "(nil)"
    else
      Bytes.ofText "0x" ++ Numeral.bytes 16 false address.toNat

/-- The signed number that the low bits of an argument stand for. -/
def narrowSigned (directive : Directive) (value : Int) : Int :=
  value.bmod directive.length.range

/-- The number without a sign that the low bits of an argument stand for. -/
def narrowUnsigned (directive : Directive) (value : Int) : Nat :=
  (value % directive.length.range).toNat

/-- Writes an argument, if it is of a kind that the conversion takes. -/
def write? (directive : Directive) (argument : Argument) : Option Bytes :=
  match directive.conversion, argument with
  | .decimal, .signed value | .integer, .signed value =>
      some (directive.writeSigned (directive.narrowSigned value.toInt))
  | .decimal, .unsigned value | .integer, .unsigned value =>
      some (directive.writeSigned (directive.narrowSigned value.toNat))
  | .decimal, .character byte | .integer, .character byte =>
      some (directive.writeSigned byte.toNat)
  | .unsigned, .signed value | .hexadecimal, .signed value
  | .upperHexadecimal, .signed value | .octal, .signed value =>
      some (directive.writeUnsigned (directive.narrowUnsigned value.toInt))
  | .unsigned, .unsigned value | .hexadecimal, .unsigned value
  | .upperHexadecimal, .unsigned value | .octal, .unsigned value =>
      some (directive.writeUnsigned (directive.narrowUnsigned value.toNat))
  | .character, .character byte => some (directive.writeCharacter byte)
  | .character, .signed value =>
      some (directive.writeCharacter (UInt8.ofNat (value.toInt % 256).toNat))
  | .string, .text bytes => some (directive.writeString bytes)
  | .pointer, .pointer address => some (directive.writePointer address)
  | _, _ => none

end Directive

end Format

end LibcConformance
