import LibcConformance.Bytes

namespace LibcConformance

/-!
# Literals of C

A byte stands in a literal as itself or behind a backslash.  Bytes outside
printable ASCII are written with three octal digits, which cannot take in a
digit that follows, and a question mark is escaped so that no two of them can
start a trigraph.
-/

namespace CText

/-- The three octal digits of a byte. -/
def octalDigits (byte : UInt8) : List Char :=
  [Nat.digitChar (byte.toNat / 64), Nat.digitChar (byte.toNat / 8 % 8),
    Nat.digitChar (byte.toNat % 8)]

/-- How a byte stands in a literal between the given quotes. -/
def escaped (quote : Char) (byte : UInt8) : List Char :=
  if byte = ascii '\\' then
    ['\\', '\\']
  else if byte = ascii '\n' then
    ['\\', 'n']
  else if byte = ascii '\t' then
    ['\\', 't']
  else if byte = ascii '\r' then
    ['\\', 'r']
  else if byte = ascii '?' then
    ['\\', '?']
  else if byte = ascii quote then
    ['\\', quote]
  else if 0x20 ≤ byte ∧ byte ≤ 0x7e then
    [byteCharacter byte]
  else
    '\\' :: octalDigits byte

/-- The text between the quotes of a string literal. -/
def stringBody (bytes : Bytes) : List Char :=
  bytes.flatMap (escaped '"')

/-- The string literal whose characters are the given bytes. -/
def stringLiteral (bytes : Bytes) : String :=
  String.ofList ('"' :: stringBody bytes ++ ['"'])

/-- The character constant of a byte. -/
def characterLiteral (byte : UInt8) : String :=
  String.ofList ('\'' :: escaped '\'' byte ++ ['\''])

/-- A byte as a hexadecimal constant. -/
def hexConstant (byte : UInt8) : String :=
  "0x" ++ String.ofList (Bytes.hexDigits byte)

/-- Bytes as a list of constants in braces. -/
def byteInitializer (bytes : Bytes) : String :=
  "\x7b" ++ ", ".intercalate (bytes.map hexConstant) ++ "\x7d"

/-- The body of a literal is written byte by byte. -/
theorem stringBody_append (front back : Bytes) :
    stringBody (front ++ back) = stringBody front ++ stringBody back := by
  simp [stringBody]

end CText

end LibcConformance
