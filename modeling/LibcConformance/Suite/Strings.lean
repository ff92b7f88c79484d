import LibcConformance.CharArray.Region
import LibcConformance.Case.Program

namespace LibcConformance

/-!
# Tests of the string routines

Each program goes through a table of cases.  Expected strings and signs come
from the texts of the table: the length of a text, two texts joined, a text cut
to a limit or padded up to it, the order of two texts.
-/

namespace Suite

/-- The capacity of the arrays that strings are copied to. -/
def destinationCapacity : Nat :=
  100

/-- The label and text of the plain strings. -/
def plainStrings : List (String × String) :=
  [("empty string", ""), ("short string", "hello"),
    ("long string", "this is a much longer string that will test boundary conditions"),
    ("string with spaces", "string with spaces"), ("special chars", "!@#$%^&*()")]

/-- A text as a string literal. -/
def textLiteral (text : String) : String :=
  CText.stringLiteral (Bytes.ofText text)

/-- A test that measures a string. -/
def lengthTest (label text : String) : Test :=
  let size := (Bytes.ofText text).length
  let case : TestCase := { label, probe := .length text, expectation := .length size }
  let name := "str_" ++ case.identifier
  { case
    block :=
      (Block.titled label).statement s!"char {name}[] = {textLiteral text};"
        |>.check s!"strlen({name}) == {size}" }

/-- The test program of `strlen`. -/
def strlenProgram : Program :=
  { routine := .strlen, helpers := [], prologue := .empty
    tests := plainStrings.map fun (label, text) => lengthTest label text }

/-- The label and the two texts of each concatenation. -/
def appendCases : List (String × String × String) :=
  [("empty + empty", "", ""), ("empty + non-empty", "", "world"),
    ("non-empty + empty", "hello", ""), ("regular strings", "hello", "world"),
    ("long strings", "this is a long string", " and this is another long string")]

/-- A test that appends one string to another. -/
def appendTest (label front back : String) : Test :=
  let expected := Bytes.ofText (front ++ back)
  let case : TestCase :=
    { label, probe := .append front back destinationCapacity, expectation := .bytes expected }
  let source := "src_" ++ case.identifier
  let target := "dst_" ++ case.identifier
  { case
    block :=
      (Block.titled label).statements
          [s!"char {source}[] = {textLiteral back};",
            s!"char {target}[{destinationCapacity}] = {textLiteral front};"]
        |>.check s!"strcmp(strcat({target}, {source}), {CText.stringLiteral expected}) == 0" }

/-- The test program of `strcat`. -/
def strcatProgram : Program :=
  { routine := .strcat, helpers := [], prologue := .empty
    tests := appendCases.map fun (label, front, back) => appendTest label front back }

/-- The declaration of the array that the tests of a program share. -/
def sharedDestination : Block :=
  Block.empty.statement s!"char dst[{destinationCapacity}];"

/-- A test that copies a string. -/
def copyStringTest (label text : String) : Test :=
  let case : TestCase :=
    { label, probe := .copyString text destinationCapacity
      expectation := .bytes (Bytes.ofText text) }
  let source := "src_" ++ case.identifier
  let literal := textLiteral text
  { case
    block :=
      (Block.titled label).statement s!"char {source}[] = {literal};"
        |>.check s!"strcmp(strcpy(dst, {source}), {literal}) == 0" }

/-- The test program of `strcpy`. -/
def strcpyProgram : Program :=
  { routine := .strcpy, helpers := [], prologue := sharedDestination
    tests := plainStrings.map fun (label, text) => copyStringTest label text }

/-- The label, text and limit of each bounded copy. -/
def boundedCopies : List (String × String × Nat) :=
  [("full copy", "hello world", 11), ("partial copy", "hello world", 5),
    ("zero copy", "hello world", 0), ("copy more than length", "hello", 10),
    ("empty string", "", 5)]

/-- Bytes cut to a limit, or padded with NULs up to it. -/
def boundedCopy (source : Bytes) (limit : Nat) : Bytes :=
  if limit ≤ source.length then source.take limit else Bytes.zeroPadded source limit

/-- A test that copies a string up to a limit. -/
def boundedCopyTest (label text : String) (limit : Nat) : Test :=
  let expected := boundedCopy (Bytes.ofText text) limit
  let case : TestCase :=
    { label, probe := .copyBounded text limit destinationCapacity
      expectation := .bytes expected }
  let source := "src_" ++ case.identifier
  { case
    block :=
      (Block.titled label).statements
          [s!"char {source}[] = {textLiteral text};",
            "memset(dst, '\\0', sizeof(dst));",
            s!"strncpy(dst, {source}, {limit});"]
        |>.check s!"memcmp(dst, {CText.stringLiteral expected}, {limit}) == 0" }

/-- The test program of `strncpy`. -/
def strncpyProgram : Program :=
  { routine := .strncpy, helpers := [], prologue := sharedDestination
    tests := boundedCopies.map fun (label, text, limit) => boundedCopyTest label text limit }

/-- The order of two texts, or of as many bytes of them as a bound allows. -/
def textOrder (left right : String) (bound : Option Nat) : Ordering :=
  let cut (text : String) : Bytes :=
    match bound with
    | some limit => (Bytes.ofText text).take limit
    | none => Bytes.ofText text
  Bytes.order (cut left) (cut right)

/-- A test that compares two strings. -/
def compareStringsTest (label left right : String) (bound : Option Nat) : Test :=
  let order := textOrder left right bound
  let case : TestCase :=
    { label, probe := .compareStrings left right bound, expectation := .sign order }
  let first := "s1_" ++ case.identifier
  let second := "s2_" ++ case.identifier
  let call :=
    match bound with
    | some limit => s!"strncmp({first}, {second}, {limit})"
    | none => s!"strcmp({first}, {second})"
  { case
    block :=
      (Block.titled label).statements
          [s!"char {first}[] = {textLiteral left};", s!"char {second}[] = {textLiteral right};"]
        |>.check s!"{call} {signOperator order}" }

/-- The label and the two texts of each comparison. -/
def comparePairs : List (String × String × String) :=
  [("equal strings", "hello", "hello"), ("different case", "hello", "Hello"),
    ("different strings", "hello", "world"), ("empty strings", "", ""),
    ("one empty", "hello", ""), ("different lengths", "hello", "hello world")]

/-- The test program of `strcmp`. -/
def strcmpProgram : Program :=
  { routine := .strcmp, helpers := [], prologue := .empty
    tests :=
      comparePairs.map fun (label, left, right) => compareStringsTest label left right none }

/-- The label, the two texts and the bound of each bounded comparison. -/
def boundedCompares : List (String × String × String × Nat) :=
  [("equal strings", "hello", "hello", 5), ("partial equal", "hello world", "hello there", 5),
    ("different", "apple", "apricot", 3), ("different case", "Hello", "hello", 5),
    ("zero length", "hello", "world", 0), ("compare beyond length", "short", "shorter", 10)]

/-- The test program of `strncmp`. -/
def strncmpProgram : Program :=
  { routine := .strncmp, helpers := [], prologue := .empty
    tests :=
      boundedCompares.map fun (label, left, right, bound) =>
        compareStringsTest label left right (some bound) }

end Suite

end LibcConformance
