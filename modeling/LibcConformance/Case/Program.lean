import LibcConformance.CText.Block
import LibcConformance.Case.Expectation
import LibcConformance.Case.Probe
import LibcConformance.Case.Routine

namespace LibcConformance

/-!
# Test programs

A case has a label, a probe and an expectation.  A test is a case with the
block of C that exercises it, and a test program is the tests of one routine
with what they share.
-/

/-- A case: what is done, and what must be seen. -/
structure TestCase where
  label : String
  probe : Probe
  expectation : Expectation
  deriving Repr, DecidableEq

/-- The part that a case adds to the names in its block. -/
def TestCase.identifier (case : TestCase) : String :=
  CText.identifier case.label

/-- A case whose expectation cannot be derived, because its formatting call fails. -/
structure CaseError where
  routine : Routine
  label : String
  failure : Format.FormatError
  deriving Repr, DecidableEq

/-- The report of a case without an expectation. -/
def CaseError.message (error : CaseError) : String :=
  s!"{error.routine.title} case '{error.label}': {error.failure.message}"

/-- A case and the block that exercises it. -/
structure Test where
  case : TestCase
  block : Block
  deriving Repr, DecidableEq

/-- The test program of a routine. -/
structure Program where
  routine : Routine
  /-- Definitions in front of `main`. -/
  helpers : List String
  /-- Declarations that all blocks share. -/
  prologue : Block
  tests : List Test
  deriving Repr, DecidableEq

namespace Program

/-- The cases, in order. -/
def cases (program : Program) : List TestCase :=
  program.tests.map Test.case

/-- The name of the file that the program is written to. -/
def fileName (program : Program) : String :=
  program.routine.fileName

/-- Lines with a line break behind each. -/
def joinLines (lines : List String) : String :=
  String.join (lines.map (· ++ "\n"))

/-- The text of the program. -/
def source (program : Program) : String :=
  joinLines (program.routine.headers.map ("#include " ++ ·)) ++ "\n" ++
    String.join (program.helpers.map (· ++ "\n\n")) ++
    "int main() \x7b\n" ++
    joinLines program.prologue.lines ++
    String.join (program.tests.map fun test => "\n" ++ joinLines test.block.lines) ++
    "\n    return 0;\n\x7d\n"

end Program

end LibcConformance
