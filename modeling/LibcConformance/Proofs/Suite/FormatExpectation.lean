import LibcConformance.Proofs.Verification.ProbeMeaning
import LibcConformance.Suite.Formatting

namespace LibcConformance

/-!
# Expectations of formatting calls

What a test expects of a formatting call is cut out of its complete output,
while the simulation reads a string back from the array that the call wrote
to.  The two agree exactly when the array has room for the call and no NUL
hides a part of what the call leaves there.
-/

namespace Bytes

theorem cString_eq_self_iff
    (bytes : Bytes) :
    bytes.cString = bytes ↔ 0 ∉ bytes := by
  constructor
  · intro whole
    rw [← whole]
    exact zero_notMem_cString bytes
  · exact cString_eq_self

end Bytes

/-- What of an output a call leaves in its array is there to be seen in full. -/
def Sink.ShowsInFull
    (output : Bytes) : Sink → Prop
  | .console => True
  | .buffer capacity => output.length < capacity ∧ 0 ∉ output
  | .bounded capacity bound =>
      bound = 0 ∨
        bound ≤ capacity ∧ 0 ∉ output.take (min output.length (bound - 1))

namespace Suite

variable
  {program : Program}
  {case : FormatCase}
  {sink : Sink}
  {output : Bytes}
  {failure : Format.FormatError}

/-- What the call of a case writes. -/
def FormatCase.written
    (case : FormatCase) : Except Format.FormatError Bytes :=
  Format.format (Bytes.ofText case.template)
    (case.arguments.map CallArgument.value)

theorem addFormatTest_of_error
    (program : Program)
    (sink : Sink)
    (failed : case.written = .error failure) :
    addFormatTest program case sink =
      (.error { routine := program.routine, label := case.label, failure },
        program) := by
  rw [FormatCase.written] at failed
  rw [addFormatTest, formatTest, failed]

theorem addFormatTest_of_ok
    (program : Program)
    (sink : Sink)
    (written : case.written = .ok output) :
    addFormatTest program case sink =
      (.ok (),
        { program with
          tests :=
            program.tests ++
              [testOfOutput program.routine case sink output] }) := by
  rw [FormatCase.written] at written
  rw [addFormatTest, formatTest, written]

/-- The expectation cut out of an output is what its sink shows, if that shows in full. -/
theorem means_visibleContent_iff
    (written : case.written = .ok output) :
    sink.Means (Bytes.ofText case.template)
        (case.arguments.map CallArgument.value)
        (.formatted output.length (visibleContent sink output)) ↔
      sink.ShowsInFull output := by
  have same
      (other : Bytes) :
      Format.format (Bytes.ofText case.template)
          (case.arguments.map CallArgument.value) = .ok other ↔
        output = other := by
    rw [← FormatCase.written, written, Except.ok.injEq]
  cases sink with
  | console =>
      simp [Sink.Means, Sink.ShowsInFull, visibleContent, same]
  | buffer capacity =>
      simp [Sink.Means, Sink.ShowsInFull, visibleContent, same,
        eq_comm (a := output) (b := output.cString),
        Bytes.cString_eq_self_iff]
  | bounded capacity bound =>
      have kept :
          output.take (min output.length (bound - 1)) =
            output.take (bound - 1) := by
        rw [Nat.min_comm, ← List.take_take, List.take_length]
      by_cases zero : bound = 0
      · simp [Sink.Means, Sink.ShowsInFull, visibleContent, same, zero]
      · simp [Sink.Means, Sink.ShowsInFull, visibleContent, same, zero, kept,
          eq_comm (a := output.take (bound - 1))
            (b := Bytes.cString (output.take (bound - 1))),
          Bytes.cString_eq_self_iff]

theorem passed_verify_testOfOutput_iff
    (routine : Routine)
    (written : case.written = .ok output)
    (verified : Routine) :
    ((testOfOutput routine case sink output).case.verify verified).passed =
        true ↔
      sink.ShowsInFull output := by
  rw [Simulation.passed_verify_iff, ← means_visibleContent_iff written]
  cases sink with
  | console =>
      exact Simulation.observeFormat_console_iff _ _
  | buffer capacity =>
      exact Simulation.observeFormat_buffer_iff _ _ capacity
  | bounded capacity bound =>
      exact Simulation.observeFormat_bounded_iff _ _ capacity bound

/--
A call that fails adds nothing to its program, and its failure is reported with
the routine and the label.  Any other call adds one test, with the call as its
probe, and its case passes exactly when what the call leaves in its array shows
in full.
-/
theorem addFormatTest_iff_showsInFull
    (program : Program)
    (case : FormatCase)
    (sink : Sink) :
    ((∃ error, (addFormatTest program case sink).1 = .error error) ↔
        ∃ failure, case.written = .error failure) ∧
      (∀ failure,
        case.written = .error failure →
          addFormatTest program case sink =
            (.error
                { routine := program.routine, label := case.label, failure },
              program)) ∧
      ∀ output,
        case.written = .ok output →
          ∃ test,
            addFormatTest program case sink =
                (.ok (),
                  { program with tests := program.tests ++ [test] }) ∧
              test.case.label = case.label ∧
              test.case.probe =
                .format case.template case.arguments sink ∧
              ∀ routine,
                (test.case.verify routine).passed = true ↔
                  sink.ShowsInFull output := by
  refine ⟨?_, fun _ => addFormatTest_of_error program sink, ?_⟩
  · cases written : case.written with
    | error failure =>
        simp [addFormatTest_of_error program sink written]
    | ok output =>
        simp [addFormatTest_of_ok program sink written]
  · intro output written
    exact
      ⟨testOfOutput program.routine case sink output,
        addFormatTest_of_ok program sink written, rfl, rfl,
        passed_verify_testOfOutput_iff program.routine written⟩

/--
A NUL that is written hides itself from the simulation, unless the bound leaves
it out anyway; and a call without its argument adds nothing.
-/
theorem addFormatTest_nulByte :
    let program : Program :=
      { routine := .sprintf, helpers := [], prologue := .empty, tests := [] }
    let case : FormatCase := ⟨"nul byte", "%c", [.character 0]⟩
    let unsupplied : FormatCase := ⟨"no byte", "%c", []⟩
    case.written = .ok [0] ∧
      (∃ test,
        addFormatTest program case (.buffer 4) =
            (.ok (), { program with tests := [test] }) ∧
          (test.case.verify .sprintf).passed = false) ∧
      (∃ test,
        addFormatTest program case (.bounded 4 1) =
            (.ok (), { program with tests := [test] }) ∧
          (test.case.verify .snprintf).passed = true) ∧
      unsupplied.written = .error (.missingArgument 0) ∧
      addFormatTest program unsupplied .console =
        (.error
            { routine := .sprintf, label := "no byte"
              failure := .missingArgument 0 },
          program) := by
  intro program case unsupplied
  have written : case.written = .ok [0] := by
    cbv
  have failed : unsupplied.written = .error (.missingArgument 0) := by
    cbv
  obtain ⟨-, -, whole⟩ :=
    addFormatTest_iff_showsInFull program case (.buffer 4)
  obtain ⟨uncut, added, -, -, hides⟩ := whole _ written
  obtain ⟨-, -, cut⟩ :=
    addFormatTest_iff_showsInFull program case (.bounded 4 1)
  obtain ⟨atBound, addedCut, -, -, shows⟩ := cut _ written
  obtain ⟨-, unchanged, -⟩ :=
    addFormatTest_iff_showsInFull program unsupplied .console
  have hidden : ¬ (Sink.buffer 4).ShowsInFull [0] := by
    simp [Sink.ShowsInFull]
  have shown : (Sink.bounded 4 1).ShowsInFull [0] := by
    simp [Sink.ShowsInFull]
  exact
    ⟨written,
      ⟨uncut, added,
        Bool.eq_false_iff.mpr fun passed => hidden ((hides _).mp passed)⟩,
      ⟨atBound, addedCut, (shows _).mpr shown⟩, failed, unchanged _ failed⟩

end Suite

end LibcConformance
