import LibcConformance.Proofs.CText.Name
import LibcConformance.Proofs.Suite.DerivedExpectation
import LibcConformance.Proofs.Suite.EmittedCheck

namespace LibcConformance

/-!
# What the check of a comparison says

The block of a test that compares two strings declares an array for each of
them and checks the sign of one call.  Its lines are read back here as the
arrays that they declare and the call that they check.  Main fact: the call is
the one that the test is about, and the sign is the one that it has.
-/

namespace CText

/-- Reads the declaration of an array that a string literal fills, with its terminator. -/
def readDeclaration?
    (line : String) : Option (String × Bytes) := do
  let (name, behind) ← readName? (← after? "    char " line.toList)
  let (text, rest) ← readLiteral? '"' (← after? "[] = " behind)
  if rest = ";".toList then some (name, text.terminated) else none

theorem readDeclaration?_line
    {name : String}
    (named : IsName name)
    (bytes : Bytes) :
    readDeclaration? ("    " ++ s!"char {name}[] = {stringLiteral bytes};") =
      some (name, bytes.terminated) := by
  have shape :
      ("    " ++ s!"char {name}[] = {stringLiteral bytes};").toList =
        "    char ".toList ++
          (name.toList ++
            ("[] = ".toList ++ ((stringLiteral bytes).toList ++ ";".toList))) := by
    simp [toString]
  have nameEnds :
      NoNameFirst
        ("[] = ".toList ++ ((stringLiteral bytes).toList ++ ";".toList)) := by
    simp [NoNameFirst, isNameCharacter]
  have noQuestionMark : '?' ∉ ";".toList := by
    decide
  rw [readDeclaration?, shape]
  simp only [after?_append, readName?_append named nameEnds,
    readLiteral?_stringLiteral_append bytes noQuestionMark,
    Option.bind_eq_bind, Option.bind_some, if_true]

end CText

/-- The arrays that a block declares, by their names. -/
def Block.arrays
    (block : Block) : List (String × Bytes) :=
  block.lines.filterMap CText.readDeclaration?

namespace Suite

open CText

/-- What two arrays compare as, under a bound if there is one. -/
def compared
    (left right : Bytes) : Option Nat → Int
  | none => CharArray.strcmp left right
  | some bound => CharArray.strncmp left right bound

/-- A call that compares two arrays, and the sign that it must have. -/
structure ComparisonCheck where
  left : String
  right : String
  bound : Option Nat
  sign : Ordering
  deriving Repr, DecidableEq

namespace ComparisonCheck

/-- What the call answers on the arrays that there are. -/
def answer?
    (check : ComparisonCheck)
    (arrays : List (String × Bytes)) : Option Int := do
  let left ← arrays.lookup check.left
  let right ← arrays.lookup check.right
  pure (compared left right check.bound)

/-- Whether a number compares with zero as an operator of C says. -/
def agrees
    (answer : Int) : Ordering → Bool
  | .lt => answer < 0
  | .eq => answer = 0
  | .gt => answer > 0

/-- The call can be made, and its answer has the sign that is checked. -/
def Holds
    (check : ComparisonCheck)
    (arrays : List (String × Bytes)) : Prop :=
  ∃ answer ∈ check.answer? arrays, agrees answer check.sign = true

/-- Reads the comparison with zero, by its operator. -/
def readSign?
    (text : List Char) : Option (Ordering × List Char) :=
  ((after? " < 0" text).map (.lt, ·)) <|> ((after? " == 0" text).map (.eq, ·)) <|>
    ((after? " > 0" text).map (.gt, ·))

/-- Reads the names of the two arrays of a call. -/
def readNames?
    (text : List Char) : Option ((String × String) × List Char) := do
  let (left, behind) ← readName? text
  let (right, rest) ← readName? (← after? ", " behind)
  pure ((left, right), rest)

/-- The operands of a call: the names of two arrays, and a bound if there is one. -/
abbrev Operands :=
  (String × String) × Option Nat

def readUnbounded?
    (text : List Char) : Option (Operands × List Char) := do
  let (names, rest) ← readNames? (← after? "strcmp(" text)
  pure ((names, none), rest)

def readBounded?
    (text : List Char) : Option (Operands × List Char) := do
  let (names, behind) ← readNames? (← after? "strncmp(" text)
  let (bound, rest) ← readDecimal? (← after? ", " behind)
  pure ((names, some bound), rest)

/-- Reads a call up to its closing parenthesis. -/
def readCall?
    (text : List Char) : Option (Operands × List Char) :=
  readUnbounded? text <|> readBounded? text

/-- Reads a line that does nothing but check the sign of a comparison. -/
def read?
    (line : String) : Option ComparisonCheck := do
  let (((left, right), bound), behind) ←
    readCall? (← after? "    check(" line.toList)
  let (sign, rest) ← readSign? (← after? ")" behind)
  if rest = ");".toList then some { left, right, bound, sign } else none

/-- The call in C. -/
def call
    (check : ComparisonCheck) : String :=
  match check.bound with
  | some limit => s!"strncmp({check.left}, {check.right}, {limit})"
  | none => s!"strcmp({check.left}, {check.right})"

theorem readSign?_signOperator
    (sign : Ordering)
    (rest : List Char) :
    readSign? (" ".toList ++ ((signOperator sign).toList ++ rest)) =
      some (sign, rest) := by
  cases sign <;>
    simp [readSign?, signOperator, after?, List.dropPrefix?]

theorem readNames?_append
    {left right : String}
    (leftNamed : IsName left)
    (rightNamed : IsName right)
    {rest : List Char}
    (ends : NoNameFirst rest) :
    readNames? (left.toList ++ (", ".toList ++ (right.toList ++ rest))) =
      some ((left, right), rest) := by
  have leftEnds :
      NoNameFirst (", ".toList ++ (right.toList ++ rest)) := by
    simp [NoNameFirst, isNameCharacter]
  simp only [readNames?, readName?_append leftNamed leftEnds, after?_append,
    readName?_append rightNamed ends, Option.bind_eq_bind, Option.bind_some,
    Option.pure_def]

section Calls

variable
  {left right : String}
  {rest : List Char}

theorem readCall?_unbounded
    (leftNamed : IsName left)
    (rightNamed : IsName right)
    (ends : NoNameFirst rest) :
    readCall?
        ("strcmp(".toList ++
          (left.toList ++ (", ".toList ++ (right.toList ++ rest)))) =
      some (((left, right), none), rest) := by
  simp only [readCall?, readUnbounded?, after?_append,
    readNames?_append leftNamed rightNamed ends, Option.bind_eq_bind,
    Option.bind_some, Option.pure_def]
  rfl

theorem readCall?_bounded
    (leftNamed : IsName left)
    (rightNamed : IsName right)
    (limit : Nat)
    (ends : Numeral.NoDigitFirst rest) :
    readCall?
        ("strncmp(".toList ++
          (left.toList ++
            (", ".toList ++
              (right.toList ++
                (", ".toList ++ ((toString limit).toList ++ rest)))))) =
      some (((left, right), some limit), rest) := by
  have otherCall
      (text : List Char) :
      after? "strcmp(" ("strncmp(".toList ++ text) = none := by
    simp [after?, List.dropPrefix?]
  have operandsEnd :
      NoNameFirst (", ".toList ++ ((toString limit).toList ++ rest)) := by
    simp [NoNameFirst, isNameCharacter]
  simp only [readCall?, readUnbounded?, otherCall, readBounded?, after?_append,
    readNames?_append leftNamed rightNamed operandsEnd,
    readDecimal?_append limit ends, Option.bind_eq_bind, Option.bind_some,
    Option.bind_none, Option.pure_def]
  rfl

/-- A line is read from its call, if that is read up to the parenthesis that closes it. -/
theorem read?_of_readCall?
    {operands : Operands}
    {sign : Ordering}
    {text : List Char}
    {line : String}
    (shape : line.toList = "    check(".toList ++ text)
    (called :
      readCall? text =
        some
          (operands,
            ")".toList ++
              (" ".toList ++ ((signOperator sign).toList ++ ");".toList)))) :
    read? line =
      some
        { left := operands.1.1, right := operands.1.2, bound := operands.2
          sign } := by
  simp only [read?, shape, after?_append, called, readSign?_signOperator,
    Option.bind_eq_bind, Option.bind_some, if_true]

/-- The check of a call is read back as that call and the sign that it must have. -/
theorem read?_checkLine
    {check : ComparisonCheck}
    (leftNamed : IsName check.left)
    (rightNamed : IsName check.right) :
    read? (EmittedCheck.checkLine s!"{check.call} {signOperator check.sign}") =
      some check := by
  obtain ⟨left, right, bound, sign⟩ := check
  cases bound with
  | none =>
      refine read?_of_readCall? ?_ (readCall?_unbounded leftNamed rightNamed ?_)
      · simp [EmittedCheck.toList_checkLine, call, toString]
      · simp [NoNameFirst, isNameCharacter]
  | some limit =>
      refine
        read?_of_readCall? ?_ (readCall?_bounded leftNamed rightNamed limit ?_)
      · simp [EmittedCheck.toList_checkLine, call, toString]
      · simp [Numeral.NoDigitFirst]

end Calls

end ComparisonCheck

section Tests

/-- Adds a test that compares two strings at the end of a program. -/
def addCompareTest
    (program : Program)
    (label left right : String)
    (bound : Option Nat) : Program :=
  { program with
    tests := program.tests ++ [compareStringsTest label left right bound] }

/-- A program with comparisons added in order, each by its label, texts and bound. -/
def addCompareTests
    (program : Program)
    (rows : List (String × String × String × Option Nat)) : Program :=
  rows.foldl
    (fun extended (label, left, right, bound) =>
      addCompareTest extended label left right bound)
    program

theorem addCompareTests_eq
    (program : Program)
    (rows : List (String × String × String × Option Nat)) :
    addCompareTests program rows =
      { program with
        tests :=
          program.tests ++
            rows.map fun (label, left, right, bound) =>
              compareStringsTest label left right bound } := by
  induction rows generalizing program with
  | nil =>
      simp [addCompareTests]
  | cons row rest inductionHypothesis =>
      rw [addCompareTests, List.foldl_cons, ← addCompareTests, inductionHypothesis]
      simp [addCompareTest]

variable
  (label left right : String)
  (bound : Option Nat)

/-- The check of a test that compares two strings. -/
def comparisonCheck : ComparisonCheck :=
  { left := "s1_" ++ identifier label
    right := "s2_" ++ identifier label
    bound
    sign := textOrder left right bound }

theorem isName_left :
    IsName (comparisonCheck label left right bound).left :=
  IsName.append_identifier ⟨by simp [isNameCharacter], 's', rfl, rfl⟩ label

theorem isName_right :
    IsName (comparisonCheck label left right bound).right :=
  IsName.append_identifier ⟨by simp [isNameCharacter], 's', rfl, rfl⟩ label

theorem lines_compareStringsTest :
    let check := comparisonCheck label left right bound
    (compareStringsTest label left right bound).block.lines =
      ["    " ++ s!"// Test {label}",
        "    " ++ s!"char {check.left}[] = {stringLiteral (Bytes.ofText left)};",
        "    " ++ s!"char {check.right}[] = {stringLiteral (Bytes.ofText right)};",
        EmittedCheck.checkLine s!"{check.call} {signOperator check.sign}"] := by
  cases bound <;> rfl

/-- The two arrays hold the two texts, each with its terminator. -/
theorem arrays_compareStringsTest :
    let check := comparisonCheck label left right bound
    (compareStringsTest label left right bound).block.arrays =
      [(check.left, Simulation.stringArray left),
        (check.right, Simulation.stringArray right)] := by
  intro check
  have title :
      readDeclaration? ("    " ++ s!"// Test {label}") = none := by
    simp [readDeclaration?, toString, after?, List.dropPrefix?]
  have checked
      (condition : String) :
      readDeclaration? (EmittedCheck.checkLine condition) = none := by
    simp [readDeclaration?, EmittedCheck.checkLine, toString, after?,
      List.dropPrefix?]
  have first :=
    readDeclaration?_line (isName_left label left right bound)
      (Bytes.ofText left)
  have second :=
    readDeclaration?_line (isName_right label left right bound)
      (Bytes.ofText right)
  rw [Block.arrays, lines_compareStringsTest]
  simp only [List.filterMap_cons, title, first, second, checked,
    List.filterMap_nil]
  rfl

/-- The last line of a test is the only one that checks something. -/
theorem checkLines_compareStringsTest :
    let check := comparisonCheck label left right bound
    (compareStringsTest label left right bound).block.checkLines =
      [EmittedCheck.checkLine s!"{check.call} {signOperator check.sign}"] := by
  intro check
  have title :
      after? "    check(" ("    " ++ s!"// Test {label}").toList = none := by
    simp [toString, after?, List.dropPrefix?]
  have declared
      (name literal : String) :
      after? "    check(" ("    " ++ s!"char {name}[] = {literal};").toList =
        none := by
    simp [toString, after?, List.dropPrefix?]
  have checked
      (condition : String) :
      after? "    check(" (EmittedCheck.checkLine condition).toList =
        some (condition.toList ++ ");".toList) := by
    rw [EmittedCheck.toList_checkLine, after?_append]
  rw [Block.checkLines, lines_compareStringsTest]
  simp only [List.filter_cons, title, declared, checked, Option.isSome_none,
    Option.isSome_some, Bool.false_eq_true, if_false, if_true, List.filter_nil]
  rfl

/-- The two arrays have different names, so the check is of both. -/
theorem answer?_comparisonCheck :
    (comparisonCheck label left right bound).answer?
        (compareStringsTest label left right bound).block.arrays =
      some
        (compared (Simulation.stringArray left) (Simulation.stringArray right)
          bound) := by
  have different :
      ("s2_" ++ identifier label == "s1_" ++ identifier label) = false := by
    apply beq_false_of_ne
    intro same
    exact absurd ((String.append_left_inj _).mp same) (by decide)
  rw [arrays_compareStringsTest]
  simp [ComparisonCheck.answer?, comparisonCheck, List.lookup_cons, different]

variable
  {left right}

/-- The order of two texts without NULs is the sign of their comparison. -/
theorem textOrder_eq_compare
    (leftNoNul : 0 ∉ Bytes.ofText left)
    (rightNoNul : 0 ∉ Bytes.ofText right) :
    textOrder left right bound =
      compare
        (compared (Simulation.stringArray left) (Simulation.stringArray right)
          bound) 0 := by
  cases bound with
  | none =>
      rw [compared, CharArray.compare_strcmp, Simulation.cString_stringArray,
        Simulation.cString_stringArray, stringOf_eq leftNoNul,
        stringOf_eq rightNoNul]
      rfl
  | some limit =>
      rw [compared, CharArray.compare_strncmp, Simulation.cString_stringArray,
        Simulation.cString_stringArray, stringOf_eq leftNoNul,
        stringOf_eq rightNoNul]
      rfl

end Tests

/-- The comparison with zero that has the sign of a number holds of it. -/
theorem ComparisonCheck.agrees_compare
    (answer : Int) :
    agrees answer (compare answer 0) = true := by
  cases sign : compare answer 0 with
  | lt =>
      simpa [agrees] using Int.compare_eq_lt.mp sign
  | eq =>
      simpa [agrees] using Int.compare_eq_eq.mp sign
  | gt =>
      simpa [agrees] using Int.compare_eq_gt.mp sign

/--
The order of the first bytes that differ is that of the routine.  A comparison
of strings without NULs adds one test, which expects the sign that the routine
answers on the two strings and passes; its only check is of the same call, made
on arrays that hold the two strings, and compares its answer with zero as that
sign says.
-/
theorem addCompareTest_exact :
    (∀ left right count,
        byteOrder left right count = CharArray.memcmp left right count) ∧
      strcmpProgram =
        addCompareTests { strcmpProgram with tests := [] }
          (comparePairs.map fun (label, left, right) =>
            (label, left, right, none)) ∧
      strncmpProgram =
        addCompareTests { strncmpProgram with tests := [] }
          (boundedCompares.map fun (label, left, right, limit) =>
            (label, left, right, some limit)) ∧
      ∀ program label left right bound,
        0 ∉ Bytes.ofText left →
        0 ∉ Bytes.ofText right →
        let answer :=
          compared (Simulation.stringArray left) (Simulation.stringArray right)
            bound
        ∃ test,
          addCompareTest program label left right bound =
              { program with tests := program.tests ++ [test] } ∧
            test.case.label = label ∧
            test.case.probe = .compareStrings left right bound ∧
            test.case.expectation = .sign (compare answer 0) ∧
            (∀ routine, (test.case.verify routine).passed = true) ∧
            ∃ line check,
              test.block.checkLines = [line] ∧
                ComparisonCheck.read? line = some check ∧
                check.bound = bound ∧
                check.sign = compare answer 0 ∧
                check.answer? test.block.arrays = some answer ∧
                check.Holds test.block.arrays := by
  refine ⟨byteOrder_eq_memcmp, ?_, ?_, ?_⟩
  · rw [addCompareTests_eq, List.map_map]
    rfl
  · rw [addCompareTests_eq, List.map_map]
    rfl
  · intro program label left right bound leftNoNul rightNoNul answer
    have sign : textOrder left right bound = compare answer 0 :=
      textOrder_eq_compare bound leftNoNul rightNoNul
    have answered :
        (comparisonCheck label left right bound).answer?
            (compareStringsTest label left right bound).block.arrays =
          some answer :=
      answer?_comparisonCheck label left right bound
    refine
      ⟨compareStringsTest label left right bound, rfl, rfl, rfl,
        congrArg Expectation.sign sign,
        passes_compareStringsTest label leftNoNul rightNoNul bound, _,
        comparisonCheck label left right bound,
        checkLines_compareStringsTest label left right bound,
        ComparisonCheck.read?_checkLine (isName_left label left right bound)
          (isName_right label left right bound),
        rfl, sign, answered, answer, answered, ?_⟩
    change ComparisonCheck.agrees answer (textOrder left right bound) = true
    rw [sign]
    exact ComparisonCheck.agrees_compare answer

/--
Two letters that share their first byte are equal under a bound of one, and
differ without it.
-/
theorem addCompareTest_exact_cutLetter :
    let program : Program :=
      { routine := .strncmp, helpers := [], prologue := .empty, tests := [] }
    0 ∉ Bytes.ofText "\u00e9" ∧
      0 ∉ Bytes.ofText "\u00e8" ∧
      (∃ test line check,
        addCompareTest program "1 byte" "\u00e9" "\u00e8" (some 1) =
            { program with tests := [test] } ∧
          test.case.expectation = .sign .eq ∧
          (test.case.verify .strncmp).passed = true ∧
          test.block.checkLines = [line] ∧
          ComparisonCheck.read? line = some check ∧
          check.sign = .eq ∧
          check.Holds test.block.arrays) ∧
      ∃ test,
        addCompareTest program "letters" "\u00e9" "\u00e8" none =
            { program with tests := [test] } ∧
          test.case.expectation = .sign .gt ∧
          (test.case.verify .strcmp).passed = true := by
  intro program
  have leftNoNul : 0 ∉ Bytes.ofText "\u00e9" := by
    decide
  have rightNoNul : 0 ∉ Bytes.ofText "\u00e8" := by
    decide
  obtain ⟨-, -, -, adds⟩ := addCompareTest_exact
  obtain ⟨test, added, -, -, expected, passes, line, check, lines, read, -, sign,
      -, holds⟩ :=
    adds program "1 byte" "\u00e9" "\u00e8" (some 1) leftNoNul rightNoNul
  obtain ⟨whole, addedWhole, -, -, expectedWhole, passesWhole, -⟩ :=
    adds program "letters" "\u00e9" "\u00e8" none leftNoNul rightNoNul
  have same :
      compare
          (compared (Simulation.stringArray "\u00e9")
            (Simulation.stringArray "\u00e8") (some 1)) 0 =
        .eq := by
    decide
  have higher :
      compare
          (compared (Simulation.stringArray "\u00e9")
            (Simulation.stringArray "\u00e8") none) 0 =
        .gt := by
    decide
  rw [same] at expected sign
  rw [higher] at expectedWhole
  exact
    ⟨leftNoNul, rightNoNul,
      ⟨test, line, check, added, expected, passes .strncmp, lines, read, sign,
        holds⟩,
      whole, addedWhole, expectedWhole, passesWhole .strcmp⟩

end Suite

end LibcConformance
