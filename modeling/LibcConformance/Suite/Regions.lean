import LibcConformance.CharArray.Terminated
import LibcConformance.Case.Program
import LibcConformance.Seed.SplitMix

namespace LibcConformance

/-!
# Tests of the region routines

Each program goes through a table of cases.  What a case expects is worked out
from the table alone, not by calling the routine under test.
-/

namespace Suite

/-- The label, size and byte of each filled array. -/
def fillCases : List (String × Nat × Char) :=
  [("small buffer", 10, 'A'), ("medium buffer", 100, 'B'), ("large buffer", 1000, 'C'),
    ("zero buffer", 0, 'D'), ("single byte", 1, 'E')]

/-- A test that fills an array. -/
def fillTest (label : String) (size : Nat) (letter : Char) : Test :=
  let expected := List.replicate size (ascii letter)
  let case : TestCase :=
    { label, probe := .fill size (ascii letter), expectation := .bytes expected }
  let buffer := "buf_" ++ case.identifier
  let block :=
    (Block.titled label).statements
        [s!"char {buffer}[{size + 1}];",
          s!"memset({buffer}, {CText.characterLiteral (ascii letter)}, {size});",
          s!"{buffer}[{size}] = '\\0';"]
      |>.check s!"memcmp({buffer}, {CText.stringLiteral expected}, {size}) == 0"
  { case, block }

/-- The test program of `memset`. -/
def memsetProgram : Program :=
  { routine := .memset, helpers := [], prologue := .empty
    tests := fillCases.map fun (label, size, letter) => fillTest label size letter }

/-- The label and size of each payload. -/
def copyCases : List (String × Nat) :=
  [("small copy", 10), ("medium copy", 100), ("large copy", 1000), ("zero copy", 0),
    ("single byte copy", 1)]

/-- A test that copies a payload. -/
def copyTest (label payload : String) (size : Nat) : Test :=
  let bytes := Bytes.ofText payload
  let literal := CText.stringLiteral bytes
  let case : TestCase := { label, probe := .copy payload, expectation := .bytes bytes }
  let source := "src_" ++ case.identifier
  let target := "dst_" ++ case.identifier
  let block :=
    (Block.titled label).statements
        [s!"char {source}[] = {literal};",
          s!"char {target}[{size + 1}];",
          s!"memcpy({target}, {source}, {size});",
          s!"{target}[{size}] = '\\0';"]
      |>.check s!"memcmp({target}, {source}, {size}) == 0"
      |>.check s!"memcmp({target}, {literal}, {size}) == 0"
  { case, block }

/-- Tests that draw their payloads from a generator, one after the other. -/
def copyTests (generator : SplitMix) : List (String × Nat) → List Test
  | [] => []
  | (label, size) :: rest =>
      let (payload, advanced) := generator.alphanumeric size
      copyTest label payload size :: copyTests advanced rest

/-- The test program of `memcpy`, whose payloads a seed decides. -/
def memcpyProgram (seed : UInt64) : Program :=
  { routine := .memcpy, helpers := [], prologue := .empty
    tests := copyTests ⟨seed⟩ copyCases }

/-- The test that moves a string to another array. -/
def moveBetweenTest : Test :=
  let label := "non-overlapping regions"
  let text := "This is a test string for memmove"
  let bytes := Bytes.ofText text
  let literal := CText.stringLiteral bytes
  let case : TestCase :=
    { label, probe := .moveBetween text 50, expectation := .bytes bytes.terminated }
  let source := "src_" ++ case.identifier
  let target := "dst_" ++ case.identifier
  let block :=
    (Block.titled label).statements
        [s!"char {source}[] = {literal};",
          s!"char {target}[50];",
          s!"memmove({target}, {source}, strlen({source}) + 1);"]
      |>.check s!"memcmp({target}, {source}, strlen({source}) + 1) == 0"
      |>.check s!"strcmp({target}, {literal}) == 0"
  { case, block }

/-- A move inside an array that starts with a string. -/
structure InnerMove where
  label : String
  initial : String
  capacity : Nat
  target : Nat
  source : Nat
  count : Nat
  deriving Repr, DecidableEq

/-- The moves inside one array. -/
def innerMoves : List InnerMove :=
  [⟨"overlapping regions (src < dst)", "Overlapping test string", 100, 10, 0, 15⟩,
    ⟨"overlapping regions (dst < src)", "Another overlapping test string", 100, 0, 5, 15⟩,
    ⟨"zero-length move", "Test", 10, 0, 0, 0⟩]

/--
What a move leaves in its array: the string as it was if nothing moves, and the
string after the move if the ranges are apart.  Of overlapping ranges only
completion is expected.
-/
def InnerMove.expectation (move : InnerMove) : Expectation :=
  let initial := Bytes.ofText move.initial
  if move.count = 0 then
    .bytes initial
  else if move.source < move.target + move.count ∧ move.target < move.source + move.count then
    .completes
  else
    let array := Bytes.zeroPadded initial move.capacity
    let moved := (array.drop move.source).take move.count
    .bytes (array.overlay moved move.target).cString

/-- An array, or the place at an offset of it. -/
def offsetExpression (array : String) (offset : Nat) : String :=
  if offset = 0 then array else s!"{array} + {offset}"

/-- A test that moves bytes inside one array. -/
def InnerMove.test (move : InnerMove) : Test :=
  let case : TestCase :=
    { label := move.label
      probe := .moveWithin move.initial move.capacity move.target move.source move.count
      expectation := move.expectation }
  let buffer := "buf_" ++ case.identifier
  let target := offsetExpression buffer move.target
  let source := offsetExpression buffer move.source
  let literal := CText.stringLiteral (Bytes.ofText move.initial)
  let block :=
    (Block.titled move.label).statements
      [s!"char {buffer}[{move.capacity}] = {literal};",
        s!"memmove({target}, {source}, {move.count});"]
  { case
    block :=
      match move.expectation with
      | .bytes contents => block.check s!"strcmp({buffer}, {CText.stringLiteral contents}) == 0"
      | _ => block.comment "Overlapping ranges: only completion is checked" }

/-- The test program of `memmove`. -/
def memmoveProgram : Program :=
  { routine := .memmove, helpers := [], prologue := .empty
    tests := moveBetweenTest :: innerMoves.map InnerMove.test }

/-- An array that holds a string. -/
def textOperand (name text : String) : Operand :=
  ⟨name, .text text⟩

/-- The arrays that are compared. -/
def compareOperands : List Operand :=
  [textOperand "str1" "ABC", textOperand "str2" "ABC", textOperand "str3" "ABD",
    textOperand "str4" "ABB", textOperand "str5" "ABCD",
    ⟨"bin1", .bytes [0, 1, 2, 3]⟩, ⟨"bin2", .bytes [0, 1, 2, 4]⟩]

/-- The label, the two operands and the count of each comparison. -/
def compareCases : List (String × Operand × Operand × Nat) :=
  let operand (index : Nat) : Operand := compareOperands.getD index (textOperand "" "")
  [("equal strings", operand 0, operand 1, 3),
    ("zero-length compare", operand 0, operand 1, 0),
    ("lower last byte", operand 0, operand 2, 3),
    ("higher last byte", operand 2, operand 0, 3),
    ("above smaller string", operand 0, operand 3, 3),
    ("below larger string", operand 3, operand 0, 3),
    ("shared prefix", operand 0, operand 4, 3),
    ("shorter string", operand 0, operand 4, 4),
    ("binary prefix", operand 5, operand 6, 3),
    ("binary with null bytes", operand 5, operand 6, 4)]

/-- The order of the first two bytes that differ among the first `count` of two arrays. -/
def byteOrder (left right : Bytes) (count : Nat) : Ordering :=
  match ((left.zip right).take count).find? fun (first, second) => first != second with
  | some (first, second) => compare first second
  | none => .eq

/-- A test that compares two arrays. -/
def compareTest (label : String) (left right : Operand) (count : Nat) : Test :=
  let order := byteOrder left.initializer.storage right.initializer.storage count
  { case := { label, probe := .compare left right count, expectation := .sign order }
    block :=
      (Block.titled label).check
        s!"memcmp({left.name}, {right.name}, {count}) {signOperator order}" }

/-- The test program of `memcmp`. -/
def memcmpProgram : Program :=
  { routine := .memcmp, helpers := []
    prologue :=
      Block.empty.statements
        (compareOperands.map fun operand => operand.initializer.declaration operand.name)
    tests :=
      compareCases.map fun (label, left, right, count) => compareTest label left right count }

end Suite

end LibcConformance
