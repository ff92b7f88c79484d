import LibcConformance.Proofs.Suite.DerivedExpectation
import LibcConformance.Proofs.Suite.PayloadSlices
import LibcConformance.Proofs.Suite.PrintableSource

namespace LibcConformance

/-!
# Sound programs

The program of every routine goes through tables, whose entries meet what the
tests that are made of them need: printable labels with names of their own,
texts without NULs, arrays with room.  So each routine has a program, all tests
of that program pass, and all of its lines are printable.
-/

/-- A test that passes and whose block is printable. -/
structure Test.IsSound
    (test : Test) : Prop where
  passes : test.Passes
  printable : test.block.Printable

/-- A program of sound tests with names of their own and printable surroundings. -/
structure Program.IsSound
    (program : Program) : Prop where
  tests : ∀ test ∈ program.tests, test.IsSound
  helpers : ∀ helper ∈ program.helpers, CText.PrintableLines helper
  prologue : program.prologue.Printable
  distinct :
    (program.tests.map fun test => CText.identifier test.case.label).Nodup

namespace Suite

open CText

section Regions

theorem isSound_memset :
    memsetProgram.IsSound where
  tests := by
    have labels : ∀ entry ∈ fillCases, Printable entry.1 := by
      decide
    refine List.forall_mem_map.mpr fun ⟨label, size, letter⟩ isEntry => ?_
    exact
      ⟨passes_fillTest label size letter,
        printable_fillTest (labels _ isEntry) size letter⟩
  helpers := by
    simp [memsetProgram]
  prologue := Block.printable_empty
  distinct := by
    decide

theorem isSound_of_mem_copyTests
    {generator : SplitMix}
    {cases : List (String × Nat)}
    (labels : ∀ entry ∈ cases, Printable entry.1) :
    ∀ test ∈ copyTests generator cases, test.IsSound := by
  induction cases generalizing generator with
  | nil =>
      simp [copyTests]
  | cons entry rest inductionHypothesis =>
      obtain ⟨label, size⟩ := entry
      obtain ⟨printable, later⟩ := List.forall_mem_cons.mp labels
      rw [copyTests]
      exact
        List.forall_mem_cons.mpr
          ⟨⟨passes_copyTest _ _ _, printable_copyTest printable _ _⟩,
            inductionHypothesis later⟩

theorem isSound_memcpy
    (seed : UInt64) :
    (memcpyProgram seed).IsSound where
  tests := by
    have labels : ∀ entry ∈ copyCases, Printable entry.1 := by
      decide
    exact isSound_of_mem_copyTests labels
  helpers := by
    simp [memcpyProgram]
  prologue := Block.printable_empty
  distinct := by
    have names :
        (memcpyProgram seed).tests.map
            (fun test => identifier test.case.label) =
          (copyCases.map Prod.fst).map identifier := by
      rw [← labels_copyTests ⟨seed⟩ copyCases, List.map_map]
      rfl
    rw [names]
    decide

theorem fits_innerMoves :
    ∀ move ∈ innerMoves, move.Fits := by
  have fits :
      ∀ move ∈ innerMoves,
        0 ∉ Bytes.ofText move.initial ∧
          (Bytes.ofText move.initial).length < move.capacity ∧
          move.source + move.count ≤ move.capacity ∧
          move.target + move.count ≤ move.capacity := by
    decide
  intro move member
  obtain ⟨noNul, initial, source, target⟩ := fits move member
  exact ⟨noNul, initial, source, target⟩

theorem isSound_memmove :
    memmoveProgram.IsSound where
  tests := by
    have labels : ∀ move ∈ innerMoves, Printable move.label := by
      decide
    refine
      List.forall_mem_cons.mpr
        ⟨⟨passes_moveBetweenTest, printable_moveBetweenTest⟩,
          List.forall_mem_map.mpr fun move isMove => ?_⟩
    exact
      ⟨(fits_innerMoves move isMove).passes_test,
        InnerMove.printable_test (labels move isMove)⟩
  helpers := by
    simp [memmoveProgram]
  prologue := Block.printable_empty
  distinct := by
    decide

theorem isSound_memcmp :
    memcmpProgram.IsSound where
  tests := by
    have entries :
        ∀ entry ∈ compareCases,
          Printable entry.1 ∧
            Printable entry.2.1.name ∧
            Printable entry.2.2.1.name ∧
            entry.2.2.2 ≤ entry.2.1.initializer.storage.length ∧
            entry.2.2.2 ≤ entry.2.2.1.initializer.storage.length := by
      decide
    refine List.forall_mem_map.mpr fun ⟨label, left, right, count⟩ isEntry => ?_
    obtain ⟨printable, leftName, rightName, leftReaches, rightReaches⟩ :=
      entries _ isEntry
    exact
      ⟨passes_compareTest label leftReaches rightReaches,
        printable_compareTest printable leftName rightName count⟩
  helpers := by
    simp [memcmpProgram]
  prologue := by
    have names : ∀ operand ∈ compareOperands, Printable operand.name := by
      decide
    simp only [memcmpProgram, Block.printable_statements,
      Block.printable_empty, true_and]
    exact
      List.forall_mem_map.mpr fun operand isOperand =>
        printable_declaration (names operand isOperand) operand.initializer
  distinct := by
    decide

end Regions

section Strings

theorem plain_plainStrings :
    ∀ entry ∈ plainStrings,
      Printable entry.1 ∧
        0 ∉ Bytes.ofText entry.2 ∧
        (Bytes.ofText entry.2).length < destinationCapacity := by
  decide

theorem printable_sharedDestination :
    sharedDestination.Printable := by
  simp +decide [sharedDestination, toString]

theorem isSound_strlen :
    strlenProgram.IsSound where
  tests := by
    refine List.forall_mem_map.mpr fun ⟨label, text⟩ isEntry => ?_
    obtain ⟨printable, noNul, -⟩ := plain_plainStrings _ isEntry
    exact ⟨passes_lengthTest label noNul, printable_lengthTest printable text⟩
  helpers := by
    simp [strlenProgram]
  prologue := Block.printable_empty
  distinct := by
    decide

theorem isSound_strcat :
    strcatProgram.IsSound where
  tests := by
    have entries :
        ∀ entry ∈ appendCases,
          Printable entry.1 ∧
            0 ∉ Bytes.ofText entry.2.1 ∧
            0 ∉ Bytes.ofText entry.2.2 ∧
            (Bytes.ofText entry.2.1).length + (Bytes.ofText entry.2.2).length <
              destinationCapacity := by
      decide
    refine List.forall_mem_map.mpr fun ⟨label, front, back⟩ isEntry => ?_
    obtain ⟨printable, frontNoNul, backNoNul, room⟩ := entries _ isEntry
    exact
      ⟨passes_appendTest label frontNoNul backNoNul room,
        printable_appendTest printable front back⟩
  helpers := by
    simp [strcatProgram]
  prologue := Block.printable_empty
  distinct := by
    decide

theorem isSound_strcpy :
    strcpyProgram.IsSound where
  tests := by
    refine List.forall_mem_map.mpr fun ⟨label, text⟩ isEntry => ?_
    obtain ⟨printable, noNul, room⟩ := plain_plainStrings _ isEntry
    exact
      ⟨passes_copyStringTest label noNul room,
        printable_copyStringTest printable text⟩
  helpers := by
    simp [strcpyProgram]
  prologue := printable_sharedDestination
  distinct := by
    decide

theorem isSound_strncpy :
    strncpyProgram.IsSound where
  tests := by
    have entries :
        ∀ entry ∈ boundedCopies,
          Printable entry.1 ∧
            0 ∉ Bytes.ofText entry.2.1 ∧
            entry.2.2 ≤ destinationCapacity := by
      decide
    refine List.forall_mem_map.mpr fun ⟨label, text, limit⟩ isEntry => ?_
    obtain ⟨printable, noNul, room⟩ := entries _ isEntry
    exact
      ⟨passes_boundedCopyTest label noNul room,
        printable_boundedCopyTest printable text limit⟩
  helpers := by
    simp [strncpyProgram]
  prologue := printable_sharedDestination
  distinct := by
    decide

theorem isSound_strcmp :
    strcmpProgram.IsSound where
  tests := by
    have entries :
        ∀ entry ∈ comparePairs,
          Printable entry.1 ∧
            0 ∉ Bytes.ofText entry.2.1 ∧ 0 ∉ Bytes.ofText entry.2.2 := by
      decide
    refine List.forall_mem_map.mpr fun ⟨label, left, right⟩ isEntry => ?_
    obtain ⟨printable, leftNoNul, rightNoNul⟩ := entries _ isEntry
    exact
      ⟨passes_compareStringsTest label leftNoNul rightNoNul none,
        printable_compareStringsTest printable left right none⟩
  helpers := by
    simp [strcmpProgram]
  prologue := Block.printable_empty
  distinct := by
    decide

theorem isSound_strncmp :
    strncmpProgram.IsSound where
  tests := by
    have entries :
        ∀ entry ∈ boundedCompares,
          Printable entry.1 ∧
            0 ∉ Bytes.ofText entry.2.1 ∧ 0 ∉ Bytes.ofText entry.2.2.1 := by
      decide
    refine
      List.forall_mem_map.mpr fun ⟨label, left, right, bound⟩ isEntry => ?_
    obtain ⟨printable, leftNoNul, rightNoNul⟩ := entries _ isEntry
    exact
      ⟨passes_compareStringsTest label leftNoNul rightNoNul (some bound),
        printable_compareStringsTest printable left right (some bound)⟩
  helpers := by
    simp [strncmpProgram]
  prologue := Block.printable_empty
  distinct := by
    decide

end Strings

section Calls

/-- Calls that are all shown make a sound program of one test each. -/
theorem exists_isSound_addFormatTests
    {program : Program}
    {calls : List (FormatCase × Sink)}
    (noTests : program.tests = [])
    (helpers : ∀ helper ∈ program.helpers, PrintableLines helper)
    (prologue : program.prologue.Printable)
    (shown : ∀ call ∈ calls, call.1.ShownBy call.2)
    (labels : ∀ call ∈ calls, Printable call.1.label)
    (distinct : (calls.map fun call => identifier call.1.label).Nodup) :
    ∃ extended,
      addFormatTests program calls = .ok extended ∧
        extended.routine = program.routine ∧
        extended.tests.length = calls.length ∧
        extended.IsSound := by
  obtain ⟨tests, added, sameLabels, made⟩ :=
    addFormatTests_of_shown program shown
  rw [noTests, List.nil_append] at added
  have names :
      (tests.map fun test => identifier test.case.label) =
        calls.map fun call => identifier call.1.label := by
    have mapped := congrArg (List.map identifier) sameLabels
    rwa [List.map_map, List.map_map] at mapped
  have sameLength : tests.length = calls.length := by
    simpa using congrArg List.length sameLabels
  refine ⟨{ program with tests }, added, rfl, sameLength, ?_⟩
  refine ⟨fun test member => ?_, helpers, prologue, names ▸ distinct⟩
  obtain ⟨passes, call, isCall, output, rfl⟩ := made test member
  exact
    ⟨passes, printable_testOfOutput (labels call isCall) _ call.2 output⟩

theorem printable_formatPrologue
    (capacity : Nat) :
    (formatPrologue capacity).Printable := by
  simp +decide [formatPrologue, toString]

theorem named_consoleCases :
    (∀ case ∈ consoleCases, Printable case.label) ∧
      (consoleCases.map fun case => identifier case.label).Nodup := by
  decide

theorem named_bufferCases :
    (∀ case ∈ bufferCases, Printable case.label) ∧
      (bufferCases.map fun case => identifier case.label).Nodup := by
  decide

theorem named_boundedCases :
    (∀ call ∈ boundedCases, Printable call.1.label) ∧
      (boundedCases.map fun call => identifier call.1.label).Nodup := by
  decide

theorem exists_isSound_printf :
    ∃ program,
      printfProgram = .ok program ∧
        program.routine = .printf ∧
        program.tests.length = 5 ∧
        program.IsSound := by
  apply exists_isSound_addFormatTests rfl
  · simp
  · simp +decide
  · exact List.forall_mem_map.mpr fun case isCase => shownBy_console isCase
  · exact List.forall_mem_map.mpr named_consoleCases.1
  · rw [List.map_map]
    exact named_consoleCases.2

theorem exists_isSound_sprintf :
    ∃ program,
      sprintfProgram = .ok program ∧
        program.routine = .sprintf ∧
        program.tests.length = 5 ∧
        program.IsSound := by
  apply exists_isSound_addFormatTests rfl
  · simp
  · exact printable_formatPrologue wideCapacity
  · exact List.forall_mem_map.mpr fun case isCase => shownBy_buffer isCase
  · exact List.forall_mem_map.mpr named_bufferCases.1
  · rw [List.map_map]
    exact named_bufferCases.2

theorem exists_isSound_snprintf :
    ∃ program,
      snprintfProgram = .ok program ∧
        program.routine = .snprintf ∧
        program.tests.length = 6 ∧
        program.IsSound := by
  apply exists_isSound_addFormatTests rfl
  · simp
  · exact printable_formatPrologue narrowCapacity
  · exact List.forall_mem_map.mpr fun call isCall => shownBy_bounded isCall
  · exact List.forall_mem_map.mpr named_boundedCases.1
  · rw [List.map_map]
    exact named_boundedCases.2

theorem exists_isSound_vsprintf :
    ∃ program,
      vsprintfProgram = .ok program ∧
        program.routine = .vsprintf ∧
        program.tests.length = 3 ∧
        program.IsSound := by
  have isCase {case : FormatCase} (member : case ∈ bufferCases.take 3) :
      case ∈ bufferCases :=
    List.mem_of_mem_take member
  apply exists_isSound_addFormatTests rfl
  · exact
      List.forall_mem_singleton.mpr
        (printableLines_argumentListWrapper .vsprintf (by decide) (by decide))
  · exact printable_formatPrologue wideCapacity
  · exact
      List.forall_mem_map.mpr fun case member => shownBy_buffer (isCase member)
  · exact
      List.forall_mem_map.mpr fun case member =>
        named_bufferCases.1 case (isCase member)
  · rw [List.map_map]
    exact named_bufferCases.2.sublist ((List.take_sublist 3 _).map _)

theorem exists_isSound_vsnprintf :
    ∃ program,
      vsnprintfProgram = .ok program ∧
        program.routine = .vsnprintf ∧
        program.tests.length = 5 ∧
        program.IsSound := by
  apply exists_isSound_addFormatTests rfl
  · exact
      List.forall_mem_singleton.mpr
        (printableLines_argumentListWrapper .vsnprintf (by decide) (by decide))
  · exact printable_formatPrologue narrowCapacity
  · exact
      List.forall_mem_map.mpr fun call member =>
        shownBy_bounded (List.mem_of_mem_filter member)
  · exact
      List.forall_mem_map.mpr fun call member =>
        named_boundedCases.1 call (List.mem_of_mem_filter member)
  · rw [List.map_map]
    exact named_boundedCases.2.sublist (List.filter_sublist.map _)

end Calls

/-- How many cases the program of a routine has. -/
def caseCount : Routine → Nat
  | .memmove => 4
  | .memcmp => 10
  | .strcmp => 6
  | .strncmp => 6
  | .snprintf => 6
  | .vsprintf => 3
  | _ => 5

/-- Every routine has a sound program, whatever the seed. -/
theorem exists_isSound_program
    (seed : UInt64)
    (routine : Routine) :
    ∃ program,
      Suite.program seed routine = .ok program ∧
        program.routine = routine ∧
        program.tests.length = caseCount routine ∧
        program.IsSound := by
  cases routine with
  | memset =>
      exact ⟨_, rfl, rfl, rfl, isSound_memset⟩
  | memcpy =>
      have count :
          (memcpyProgram seed).tests.length = copyCases.length := by
        simpa [memcpyProgram] using
          congrArg List.length (labels_copyTests ⟨seed⟩ copyCases)
      exact ⟨_, rfl, rfl, count, isSound_memcpy seed⟩
  | memmove =>
      exact ⟨_, rfl, rfl, rfl, isSound_memmove⟩
  | memcmp =>
      exact ⟨_, rfl, rfl, rfl, isSound_memcmp⟩
  | strlen =>
      exact ⟨_, rfl, rfl, rfl, isSound_strlen⟩
  | strcat =>
      exact ⟨_, rfl, rfl, rfl, isSound_strcat⟩
  | strcpy =>
      exact ⟨_, rfl, rfl, rfl, isSound_strcpy⟩
  | strncpy =>
      exact ⟨_, rfl, rfl, rfl, isSound_strncpy⟩
  | strcmp =>
      exact ⟨_, rfl, rfl, rfl, isSound_strcmp⟩
  | strncmp =>
      exact ⟨_, rfl, rfl, rfl, isSound_strncmp⟩
  | printf =>
      exact exists_isSound_printf
  | sprintf =>
      exact exists_isSound_sprintf
  | snprintf =>
      exact exists_isSound_snprintf
  | vsprintf =>
      exact exists_isSound_vsprintf
  | vsnprintf =>
      exact exists_isSound_vsnprintf

end Suite

end LibcConformance
