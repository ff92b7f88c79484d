import LibcConformance.Json.Binary64

namespace LibcConformance.Json

/-!
# JSON values

A value is what a document means: strings are texts, numbers are integers or
floats, and an object has each name once, in the order of the names' bytes,
with the value that was written last.  A document has no value if a string
holds half a surrogate pair, a number is out of range, or arrays and objects
are nested too deeply.
-/

/-- A JSON value. -/
inductive Value where
  | null
  | bool (value : Bool)
  | integer (value : Int)
  /-- A binary float, by its bits. -/
  | float (bits : UInt64)
  | string (text : String)
  | array (items : List Value)
  | object (members : List (String × Value))
  deriving Repr, BEq, Inhabited

/-- How many arrays and objects may be nested in a text that is read as a value. -/
def maxNesting : Nat :=
  127

/-- The value of a run of decimal digits. -/
def wholeValue (digits : List Char) : Nat :=
  digits.foldl (fun value digit => value * 10 + (digit.toNat - '0'.toNat)) 0

/--
The value of a number.  Digits alone are an integer if a 64-bit word, signed
for a negative number, can hold it; every other number, minus zero too, is a
float.
-/
def NumberText.value? (number : NumberText) : Option Value :=
  let size := wholeValue number.whole
  if number.fraction = none ∧ number.exponent = none ∧ !number.negative ∧ size < wordSize then
    some (.integer size)
  else if number.fraction = none ∧ number.exponent = none ∧ number.negative ∧
      0 < size ∧ 2 * size ≤ wordSize then
    some (.integer (-(size : Int)))
  else
    (Binary64.ofText? number).map .float

/-- Puts a member into its place among members sorted by name, over one of the same name. -/
def insertMember (name : String) (value : Value) :
    List (String × Value) → List (String × Value)
  | [] => [(name, value)]
  | (other, present) :: rest =>
      if name = other then
        (name, value) :: rest
      else if name < other then
        (name, value) :: (other, present) :: rest
      else
        (other, present) :: insertMember name value rest

/-- Sorts members by name; the last of those with one name stays. -/
def sortMembers (members : List (String × Value)) : List (String × Value) :=
  members.foldl (fun sorted (name, value) => insertMember name value sorted) []

mutual

/-- The value of a document whose nesting stays within a limit. -/
def Document.valueWithin? (limit : Nat) : Document → Option Value
  | .null => some .null
  | .bool value => some (.bool value)
  | .number number => number.value?
  | .string units => (StringUnit.text? units).map .string
  | .array items =>
      if limit = 0 then none else (itemsWithin? (limit - 1) items).map .array
  | .object members =>
      if limit = 0 then
        none
      else
        (membersWithin? (limit - 1) members).map fun list => .object (sortMembers list)

/-- The values of the items of an array. -/
def itemsWithin? (limit : Nat) : List Document → Option (List Value)
  | [] => some []
  | item :: rest => do
      let value ← item.valueWithin? limit
      let values ← itemsWithin? limit rest
      pure (value :: values)

/-- The names and values of the members of an object, as they are written. -/
def membersWithin? (limit : Nat) :
    List (List StringUnit × Document) → Option (List (String × Value))
  | [] => some []
  | (units, document) :: rest => do
      let name ← StringUnit.text? units
      let value ← document.valueWithin? limit
      let members ← membersWithin? limit rest
      pure ((name, value) :: members)

end

namespace Value

/-- The member of an object with the given name. -/
def member? (value : Value) (name : String) : Option Value :=
  match value with
  | .object members => (members.find? (·.1 = name)).map (·.2)
  | _ => none

/-- The text of a string. -/
def text? : Value → Option String
  | .string text => some text
  | _ => none

/-- The texts of an array of strings. -/
def texts? : Value → Option (List String)
  | .array items => items.mapM text?
  | _ => none

end Value

end LibcConformance.Json
