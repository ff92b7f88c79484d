import LibcConformance.Proofs.CText.PrintableText
import LibcConformance.Proofs.Suite.EmittedCheck
import LibcConformance.Suite.Collection

namespace LibcConformance

/-!
# Test programs are printable

The block of a test is printable if its label is, whatever texts, bytes and
numbers the test is about.  A program of such tests is a text of printable
characters of ASCII and line breaks.
-/

namespace Suite

open CText

variable
  {label : String}

theorem printable_signOperator
    (order : Ordering) :
    Printable (signOperator order) := by
  cases order <;> decide

theorem printable_declaration
    {name : String}
    (printable : Printable name)
    (initializer : Initializer) :
    Printable (initializer.declaration name) := by
  cases initializer <;>
    simp +decide [Initializer.declaration, Initializer.expression, toString,
      printable]

section Regions

theorem printable_fillTest
    (printable : Printable label)
    (size : Nat)
    (letter : Char) :
    (fillTest label size letter).block.Printable := by
  simp +decide [fillTest, toString, TestCase.identifier, printable]

theorem printable_copyTest
    (printable : Printable label)
    (payload : String)
    (size : Nat) :
    (copyTest label payload size).block.Printable := by
  simp +decide [copyTest, toString, TestCase.identifier, printable]

theorem printable_moveBetweenTest :
    moveBetweenTest.block.Printable := by
  simp [moveBetweenTest, toString, TestCase.identifier]
  decide

theorem printable_offsetExpression
    {array : String}
    (named : Printable array)
    (offset : Nat) :
    Printable (offsetExpression array offset) := by
  rw [offsetExpression]
  split
  · exact named
  · simp +decide [toString, named]

theorem InnerMove.printable_test
    {move : InnerMove}
    (printable : Printable move.label) :
    move.test.block.Printable := by
  have place
      (offset : Nat) :
      Printable
        (offsetExpression ("buf_" ++ identifier move.label) offset) :=
    printable_offsetExpression (by simp +decide) offset
  simp only [InnerMove.test]
  split <;>
    simp +decide [toString, TestCase.identifier, printable, place]

theorem printable_compareTest
    (printable : Printable label)
    {left right : Operand}
    (leftPrintable : Printable left.name)
    (rightPrintable : Printable right.name)
    (count : Nat) :
    (compareTest label left right count).block.Printable := by
  simp +decide [compareTest, toString, printable, leftPrintable, rightPrintable,
    printable_signOperator]

end Regions

section Strings

theorem printable_lengthTest
    (printable : Printable label)
    (text : String) :
    (lengthTest label text).block.Printable := by
  simp +decide [lengthTest, textLiteral, toString, TestCase.identifier,
    printable]

theorem printable_appendTest
    (printable : Printable label)
    (front back : String) :
    (appendTest label front back).block.Printable := by
  simp +decide [appendTest, textLiteral, toString, TestCase.identifier,
    printable]

theorem printable_copyStringTest
    (printable : Printable label)
    (text : String) :
    (copyStringTest label text).block.Printable := by
  simp +decide [copyStringTest, textLiteral, toString, TestCase.identifier,
    printable]

theorem printable_boundedCopyTest
    (printable : Printable label)
    (text : String)
    (limit : Nat) :
    (boundedCopyTest label text limit).block.Printable := by
  simp +decide [boundedCopyTest, textLiteral, toString, TestCase.identifier,
    printable]

theorem printable_compareStringsTest
    (printable : Printable label)
    (left right : String)
    (bound : Option Nat) :
    (compareStringsTest label left right bound).block.Printable := by
  cases bound <;>
    simp +decide [compareStringsTest, textLiteral, toString,
      TestCase.identifier, printable, printable_signOperator]

end Strings

section Calls

theorem printable_boundExpression
    (sink : Sink) :
    Printable (boundExpression sink) := by
  cases sink with
  | console =>
      exact (by decide : Printable "")
  | buffer capacity =>
      exact (by decide : Printable "")
  | bounded capacity bound =>
      rw [boundExpression]
      split
      · decide
      · exact printable_natRepr bound

theorem printable_condition
    {bound : String}
    (printable : Printable bound)
    (check : FormatCheck) :
    Printable (check.condition bound) := by
  cases check <;> simp +decide [FormatCheck.condition, toString, printable]

theorem printable_expression
    (argument : CallArgument) :
    Printable argument.expression := by
  cases argument <;> simp +decide [CallArgument.expression, toString]

theorem printable_callee
    (routine : Routine) :
    Printable (callee routine) := by
  cases routine <;> decide

theorem printable_callExpression
    (routine : Routine)
    (case : FormatCase)
    (sink : Sink) :
    Printable (callExpression routine case sink) := by
  have listed
      {target : List String}
      (targetPrintable : ∀ text ∈ target, Printable text) :
      Printable
        (", ".intercalate
          (target ++
            stringLiteral (Bytes.ofText case.template) ::
              case.arguments.map CallArgument.expression)) := by
    refine printable_intercalate (by decide) fun text member => ?_
    rw [List.mem_append, List.mem_cons, List.mem_map] at member
    rcases member with inTarget | rfl | ⟨argument, -, rfl⟩
    · exact targetPrintable text inTarget
    · exact printable_stringLiteral _
    · exact printable_expression argument
  simp only [callExpression, toString, printable_append,
    printable_callee routine, true_and]
  refine ⟨⟨by decide, listed ?_⟩, by decide⟩
  cases sink with
  | console =>
      simp
  | buffer capacity =>
      simp +decide
  | bounded capacity bound =>
      simp +decide [printable_boundExpression]

theorem printable_testOfOutput
    {case : FormatCase}
    (printable : Printable case.label)
    (routine : Routine)
    (sink : Sink)
    (output : Bytes) :
    (testOfOutput routine case sink output).block.Printable := by
  have call := printable_callExpression routine case sink
  have opened :
      ((Block.titled case.label).statement
        s!"len = {callExpression routine case sink};").Printable := by
    simp +decide [toString, printable, call]
  intro line member
  rw [testOfOutput, lines_foldl_check, List.mem_append, List.mem_map] at member
  rcases member with inOpening | ⟨check, -, rfl⟩
  · exact opened line inOpening
  · have condition :=
      printable_condition (printable_boundExpression sink) check
    simp +decide [EmittedCheck.checkLine, toString, condition]

theorem printableLines_argumentListWrapper
    (routine : Routine)
    {parameters leading : List String}
    (parametersPrintable : ∀ text ∈ parameters, Printable text)
    (leadingPrintable : ∀ text ∈ leading, Printable text) :
    PrintableLines (argumentListWrapper routine parameters leading) := by
  have name := (printable_callee routine).lines
  have symbol : PrintableLines routine.symbol := by
    cases routine <;> decide
  have taken :=
    (printable_intercalate (by decide : Printable ", ") parametersPrintable).lines
  have handed :=
    (printable_intercalate (by decide : Printable ", ") leadingPrintable).lines
  unfold argumentListWrapper
  simp only [printableLines_append, and_assoc]
  exact
    ⟨by decide, name, by decide, taken, by decide, by decide, by decide,
      by decide, symbol, by decide, handed, by decide, by decide, by decide⟩

end Calls

end Suite

namespace Program

open CText

variable
  {program : Program}

theorem printableLines_joinLines
    {lines : List String}
    (printable : ∀ line ∈ lines, Printable line) :
    PrintableLines (joinLines lines) := by
  apply printableLines_join
  intro text member
  obtain ⟨line, isLine, rfl⟩ := List.mem_map.mp member
  exact
    (printableLines_append _ _).mpr ⟨(printable line isLine).lines, by decide⟩

theorem printable_headers
    (routine : Routine) :
    ∀ header ∈ routine.headers, Printable header := by
  cases routine <;> decide

/-- A program whose parts are printable has a printable text. -/
theorem printableLines_source
    (helpers : ∀ helper ∈ program.helpers, PrintableLines helper)
    (prologue : program.prologue.Printable)
    (blocks : ∀ test ∈ program.tests, test.block.Printable) :
    PrintableLines program.source := by
  have includes :
      PrintableLines
        (joinLines (program.routine.headers.map ("#include " ++ ·))) := by
    apply printableLines_joinLines
    intro line member
    obtain ⟨header, isHeader, rfl⟩ := List.mem_map.mp member
    exact
      (printable_append _ _).mpr
        ⟨by decide, printable_headers program.routine header isHeader⟩
  have definitions :
      PrintableLines (String.join (program.helpers.map (· ++ "\n\n"))) := by
    apply printableLines_join
    intro text member
    obtain ⟨helper, isHelper, rfl⟩ := List.mem_map.mp member
    exact (printableLines_append _ _).mpr ⟨helpers helper isHelper, by decide⟩
  have bodies :
      PrintableLines
        (String.join
          (program.tests.map fun test =>
            "\n" ++ joinLines test.block.lines)) := by
    apply printableLines_join
    intro text member
    obtain ⟨test, isTest, rfl⟩ := List.mem_map.mp member
    exact
      (printableLines_append _ _).mpr
        ⟨by decide, printableLines_joinLines (blocks test isTest)⟩
  have declarations := printableLines_joinLines prologue
  simp +decide [source, includes, definitions, declarations, bodies]

end Program

end LibcConformance
