namespace LibcConformance

/-!
# Byte sequences

Array contents, format strings and file contents are lists of bytes.  This
module holds the three views the rest of the library takes of them: the UTF-8
bytes of a text, the C string at the front of an array, and lowercase
hexadecimal.
-/

/-- A sequence of bytes, such as the contents of a C array. -/
abbrev Bytes := List UInt8

/-- The byte that an ASCII character stands for. -/
def ascii (character : Char) : UInt8 :=
  character.toUInt8

/-- The character whose code point is the value of a byte. -/
def byteCharacter (byte : UInt8) : Char :=
  Char.ofUInt8 byte

namespace Bytes

/-- The UTF-8 encoding of a text. -/
def ofText (text : String) : Bytes :=
  text.toList.flatMap String.utf8EncodeChar

/--
The C string at the front of an array: the bytes before the first NUL, or all
of them when there is none.
-/
def cString (bytes : Bytes) : Bytes :=
  bytes.takeWhile (· != 0)

/-- A byte sequence followed by one NUL. -/
def terminated (bytes : Bytes) : Bytes :=
  bytes ++ [0]

/-- The contents of an array of the given size that starts with `bytes` and holds NULs after it. -/
def zeroPadded (bytes : Bytes) (size : Nat) : Bytes :=
  bytes ++ List.replicate (size - bytes.length) 0

/-- An array with bytes put over its own from an offset on. -/
def overlay (array bytes : Bytes) (offset : Nat) : Bytes :=
  array.take offset ++ bytes ++ array.drop (offset + bytes.length)

/-- The two lowercase hexadecimal digits of a byte. -/
def hexDigits (byte : UInt8) : List Char :=
  [Nat.digitChar (byte.toNat / 16), Nat.digitChar (byte.toNat % 16)]

/-- Lowercase hexadecimal, two digits for each byte. -/
def toHex (bytes : Bytes) : String :=
  String.ofList (bytes.flatMap hexDigits)

/-- The text that a byte sequence encodes, if it is valid UTF-8. -/
def toText? (bytes : Bytes) : Option String :=
  String.fromUTF8? bytes.toByteArray

/-- The encoding of two texts in a row is that of the first and that of the second. -/
theorem ofText_append (front back : String) :
    ofText (front ++ back) = ofText front ++ ofText back := by
  simp [ofText]

/-- A text is read from its encoding. -/
theorem toText?_ofText (text : String) : toText? (ofText text) = some text := by
  have encoded : (ofText text).toByteArray = text.toByteArray := by
    rw [ofText, ← List.utf8Encode, ← String.toByteArray_ofList, String.ofList_toList]
  rw [toText?, encoded, String.fromUTF8?, dif_pos text.isValidUTF8]
  rfl

end Bytes

end LibcConformance
