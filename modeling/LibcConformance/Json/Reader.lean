import LibcConformance.Json.Document
import LibcConformance.Numeral

namespace LibcConformance.Json

/-!
# Reading JSON

Each function reads one construct from the front of a text and answers it with
the characters that follow, or nothing when the text does not start with that
construct.  Only spaces, tabs and line breaks may stand around values, and
nothing else may follow the document.  The readers of values, items and
members call each other, so they carry a bound on the nesting of these calls;
twice the length of the text is enough for any document in it.
-/

/-- Whether a character may stand between tokens. -/
def isBlank (character : Char) : Bool :=
  character = ' ' || character = '\t' || character = '\n' || character = '\r'

/-- The text from its first character that is not blank. -/
def skipBlank (text : List Char) : List Char :=
  text.dropWhile isBlank

/-- What follows a word at the front of a text. -/
def after? : List Char → List Char → Option (List Char)
  | [], text => some text
  | _ :: _, [] => none
  | expected :: word, character :: text =>
      if expected = character then after? word text else none

/-- The character that a one-letter escape stands for. -/
def escapedCharacter? : Char → Option Char
  | '"' => some '"'
  | '\\' => some '\\'
  | '/' => some '/'
  | 'b' => some '\x08'
  | 'f' => some '\x0c'
  | 'n' => some '\n'
  | 'r' => some '\r'
  | 't' => some '\t'
  | _ => none

/-- The number that four hexadecimal digits stand for. -/
def unitNumber? (first second third fourth : Char) : Option Nat := do
  let digits ← [first, second, third, fourth].mapM Numeral.hexDigitValue?
  pure (digits.foldl (fun value digit => value * 16 + digit) 0)

/-- Reads the units of a string and its closing quote; control characters must be escaped. -/
def readString? : List Char → Option (List StringUnit × List Char)
  | [] => none
  | '"' :: rest => some ([], rest)
  | '\\' :: 'u' :: first :: second :: third :: fourth :: rest => do
      let number ← unitNumber? first second third fourth
      let (units, last) ← readString? rest
      pure (.escaped number :: units, last)
  | '\\' :: letter :: rest => do
      let character ← escapedCharacter? letter
      let (units, last) ← readString? rest
      pure (.character character :: units, last)
  | character :: rest =>
      if character = '\\' ∨ character.toNat < 0x20 then
        none
      else do
        let (units, last) ← readString? rest
        pure (.character character :: units, last)

/-- Reads a run of digits that must not be empty. -/
def readDigits? (text : List Char) : Option (List Char × List Char) :=
  let run := text.takeWhile Char.isDigit
  if run.isEmpty then none else some (run, text.dropWhile Char.isDigit)

/-- Reads the whole part of a number, which has no zero in front of other digits. -/
def readWhole? (text : List Char) : Option (List Char × List Char) :=
  (readDigits? text).filter fun (run, _) => run.head? ≠ some '0' || run.length = 1

/-- Reads a point and the digits after it, if there is a point. -/
def readFraction? : List Char → Option (Option (List Char) × List Char)
  | '.' :: rest => (readDigits? rest).map fun (run, after) => (some run, after)
  | text => some (none, text)

/-- Reads the sign of an exponent. -/
def readExponentSign : List Char → Bool × List Char
  | '-' :: rest => (true, rest)
  | '+' :: rest => (false, rest)
  | text => (false, text)

/-- Reads an exponent, if there is one. -/
def readExponent? : List Char → Option (Option Exponent × List Char)
  | [] => some (none, [])
  | mark :: rest =>
      if mark = 'e' ∨ mark = 'E' then do
        let (negative, unsigned) := readExponentSign rest
        let (digits, after) ← readDigits? unsigned
        pure (some { negative, digits }, after)
      else
        some (none, mark :: rest)

/-- Reads a number behind its sign. -/
def readUnsigned? (negative : Bool) (text : List Char) : Option (NumberText × List Char) := do
  let (whole, afterWhole) ← readWhole? text
  let (fraction, afterFraction) ← readFraction? afterWhole
  let (exponent, rest) ← readExponent? afterFraction
  pure ({ negative, whole, fraction, exponent }, rest)

/-- Reads a number. -/
def readNumber? : List Char → Option (NumberText × List Char)
  | '-' :: rest => readUnsigned? true rest
  | text => readUnsigned? false text

/-- Reads a name and the colon behind it. -/
def readName? (text : List Char) : Option (List StringUnit × List Char) :=
  match skipBlank text with
  | '"' :: rest => do
      let (name, afterName) ← readString? rest
      match skipBlank afterName with
      | ':' :: value => some (name, value)
      | _ => none
  | _ => none

mutual

/-- Reads a value; blanks may stand in front of it. -/
def readValue? : Nat → List Char → Option (Document × List Char)
  | 0, _ => none
  | depth + 1, text =>
      match skipBlank text with
      | [] => none
      | first :: rest =>
          if first = 'n' then
            (after? ['u', 'l', 'l'] rest).map (.null, ·)
          else if first = 't' then
            (after? ['r', 'u', 'e'] rest).map (.bool true, ·)
          else if first = 'f' then
            (after? ['a', 'l', 's', 'e'] rest).map (.bool false, ·)
          else if first = '"' then
            (readString? rest).map fun (units, after) => (.string units, after)
          else if first = '[' then
            match after? [']'] (skipBlank rest) with
            | some after => some (.array [], after)
            | none => (readItems? depth rest).map fun (items, after) => (.array items, after)
          else if first = '\x7b' then
            match after? ['\x7d'] (skipBlank rest) with
            | some after => some (.object [], after)
            | none =>
                (readMembers? depth rest).map fun (members, after) => (.object members, after)
          else
            (readNumber? (first :: rest)).map fun (number, after) => (.number number, after)

/-- Reads the items of an array that has some, and its closing bracket. -/
def readItems? : Nat → List Char → Option (List Document × List Char)
  | 0, _ => none
  | depth + 1, text => do
      let (item, after) ← readValue? depth text
      match skipBlank after with
      | ',' :: rest =>
          let (items, last) ← readItems? depth rest
          pure (item :: items, last)
      | ']' :: rest => pure ([item], rest)
      | _ => none

/-- Reads the members of an object that has some, and its closing brace. -/
def readMembers? : Nat → List Char → Option (List (List StringUnit × Document) × List Char)
  | 0, _ => none
  | depth + 1, text => do
      let (name, afterName) ← readName? text
      let (value, after) ← readValue? depth afterName
      match skipBlank after with
      | ',' :: rest =>
          let (members, last) ← readMembers? depth rest
          pure ((name, value) :: members, last)
      | '\x7d' :: rest => pure ([(name, value)], rest)
      | _ => none

end

/-- The document that a text holds, if it holds exactly one. -/
def Document.ofText? (text : String) : Option Document :=
  match readValue? (2 * text.length + 2) text.toList with
  | some (document, rest) => if (skipBlank rest).isEmpty then some document else none
  | none => none

end LibcConformance.Json
