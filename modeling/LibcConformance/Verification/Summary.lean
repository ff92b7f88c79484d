import LibcConformance.Verification.Simulation

namespace LibcConformance

/-!
# Verdicts

A case passes when simulating its probe shows exactly what it expects.  A
summary collects the verdicts on all cases of some programs.
-/

/-- The verdict on a case, with the expectation and what was seen as texts. -/
structure Verdict where
  routine : Routine
  label : String
  passed : Bool
  expected : String
  actual : String
  deriving Repr, DecidableEq

/-- Verifies a case of a routine. -/
def TestCase.verify (routine : Routine) (case : TestCase) : Verdict :=
  let observed := Simulation.observe case.expectation case.probe
  { routine
    label := case.label
    passed :=
      match observed with
      | .ok seen => seen = case.expectation
      | .error _ => false
    expected := case.expectation.describe
    actual :=
      match observed with
      | .ok seen => seen.describe
      | .error fault => s!"error: {fault.message}" }

/-- Verdicts in the order of their cases. -/
structure Summary where
  verdicts : List Verdict
  deriving Repr, DecidableEq

namespace Summary

/-- Verifies every case of every program. -/
def ofPrograms (programs : List Program) : Summary :=
  ⟨programs.flatMap fun program => program.cases.map (·.verify program.routine)⟩

/-- The number of cases. -/
def total (summary : Summary) : Nat :=
  summary.verdicts.length

/-- The number of cases that pass. -/
def passed (summary : Summary) : Nat :=
  summary.verdicts.countP Verdict.passed

/-- The number of cases that fail. -/
def failed (summary : Summary) : Nat :=
  summary.total - summary.passed

/-- Whether no case fails. -/
def allPassed (summary : Summary) : Bool :=
  summary.failed = 0

/-- The verdicts on the cases that fail. -/
def failures (summary : Summary) : List Verdict :=
  summary.verdicts.filter (!·.passed)

end Summary

end LibcConformance
