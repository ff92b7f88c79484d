import LibcConformance.Json.Value
import LibcConformance.Json.Reader

namespace LibcConformance.Json

/-!
# Writing JSON

The compact form has no blanks and fits one line; the pretty form puts each
item and member on a line of its own, two spaces deeper than what holds it.
Members are written in the order in which the value lists them.
-/

/-- The text of a character inside a string: quotes, backslashes and controls are escaped. -/
def escaped (character : Char) : List Char :=
  if character = '"' then
    ['\\', '"']
  else if character = '\\' then
    ['\\', '\\']
  else if character = '\x08' then
    ['\\', 'b']
  else if character = '\t' then
    ['\\', 't']
  else if character = '\n' then
    ['\\', 'n']
  else if character = '\x0c' then
    ['\\', 'f']
  else if character = '\r' then
    ['\\', 'r']
  else if character.toNat < 0x20 then
    ['\\', 'u', '0', '0'] ++ Bytes.hexDigits (UInt8.ofNat character.toNat)
  else
    [character]

/-- A text between quotes. -/
def quoted (text : String) : List Char :=
  '"' :: text.toList.flatMap escaped ++ ['"']

/-- A line break and the indentation of a level. -/
def lineBreak (level : Nat) : List Char :=
  '\n' :: List.replicate (2 * level) ' '

mutual

/-- The compact form of a value. -/
def Value.compactCharacters : Value → List Char
  | .null => ['n', 'u', 'l', 'l']
  | .bool value => if value then ['t', 'r', 'u', 'e'] else ['f', 'a', 'l', 's', 'e']
  | .integer value => (toString value).toList
  | .float bits => (Binary64.text bits).toList
  | .string text => quoted text
  | .array items => '[' :: compactItems items ++ [']']
  | .object members => '\x7b' :: compactMembers members ++ ['\x7d']

/-- Items with commas between them. -/
def compactItems : List Value → List Char
  | [] => []
  | [item] => item.compactCharacters
  | item :: rest => item.compactCharacters ++ ',' :: compactItems rest

/-- Members with commas between them. -/
def compactMembers : List (String × Value) → List Char
  | [] => []
  | [(name, value)] => quoted name ++ ':' :: value.compactCharacters
  | (name, value) :: rest =>
      quoted name ++ ':' :: value.compactCharacters ++ ',' :: compactMembers rest

end

mutual

/-- The pretty form of a value that stands at a level. -/
def Value.prettyCharacters (level : Nat) : Value → List Char
  | .array (item :: rest) =>
      '[' :: prettyItems (level + 1) (item :: rest) ++ lineBreak level ++ [']']
  | .object (member :: rest) =>
      '\x7b' :: prettyMembers (level + 1) (member :: rest) ++ lineBreak level ++ ['\x7d']
  | value => value.compactCharacters

/-- Items on lines of their own, with commas between them. -/
def prettyItems (level : Nat) : List Value → List Char
  | [] => []
  | [item] => lineBreak level ++ item.prettyCharacters level
  | item :: rest =>
      lineBreak level ++ item.prettyCharacters level ++ ',' :: prettyItems level rest

/-- Members on lines of their own, with commas between them. -/
def prettyMembers (level : Nat) : List (String × Value) → List Char
  | [] => []
  | [(name, value)] =>
      lineBreak level ++ quoted name ++ [':', ' '] ++ value.prettyCharacters level
  | (name, value) :: rest =>
      lineBreak level ++ quoted name ++ [':', ' '] ++ value.prettyCharacters level ++
        ',' :: prettyMembers level rest

end

namespace Value

/-- The text of a value on one line, without blanks. -/
def compact (value : Value) : String :=
  String.ofList value.compactCharacters

/-- The text of a value over indented lines. -/
def pretty (value : Value) : String :=
  String.ofList (value.prettyCharacters 0)

/-- The value that a text holds, if it is a document nested no deeper than the limit. -/
def ofTextWithin? (limit : Nat) (text : String) : Option Value :=
  (Document.ofText? text).bind (Document.valueWithin? limit)

/-- The value that a text holds. -/
def ofText? (text : String) : Option Value :=
  ofTextWithin? maxNesting text

end Value

end LibcConformance.Json
