import Mathlib.Data.List.Forall2
import LibcConformance.Proofs.Suite.PayloadFrame
import LibcConformance.Proofs.Suite.Soundness
import LibcConformance.Verification.Summary

namespace LibcConformance

/-!
# The whole suite, for every seed

The suite has one program for each routine.  All of its eighty cases pass, the
cases of a program have names of their own, and every program is a printable
text.  Another seed gives the same texts, up to the payloads of `memcpy`.
-/

namespace Suite

variable
  {seed : UInt64}
  {programs : List Program}

/-- What is known of the program of a routine. -/
structure IsProgramOf
    (seed : UInt64)
    (routine : Routine)
    (program : Program) : Prop where
  made : Suite.program seed routine = .ok program
  isFor : program.routine = routine
  count : program.tests.length = caseCount routine
  sound : program.IsSound

/-- Every routine of a list has its program among those that are made of the list. -/
theorem exists_mapM_program
    (seed : UInt64)
    (routines : List Routine) :
    ∃ programs,
      routines.mapM (program seed) = .ok programs ∧
        List.Forall₂ (IsProgramOf seed) routines programs := by
  induction routines with
  | nil =>
      exact ⟨[], rfl, .nil⟩
  | cons routine rest inductionHypothesis =>
      obtain ⟨first, made, sameRoutine, count, sound⟩ :=
        exists_isSound_program seed routine
      obtain ⟨others, othersMade, theirs⟩ := inductionHypothesis
      refine
        ⟨first :: others, ?_, .cons ⟨made, sameRoutine, count, sound⟩ theirs⟩
      rw [List.mapM_cons, made, othersMade]
      rfl

section Counts

variable
  {routines : List Routine}

theorem routines_of_forall₂
    (theirs : List.Forall₂ (IsProgramOf seed) routines programs) :
    programs.map Program.routine = routines := by
  induction theirs with
  | nil =>
      rfl
  | cons first _ inductionHypothesis =>
      rw [List.map_cons, first.isFor, inductionHypothesis]

theorem sound_of_forall₂
    (theirs : List.Forall₂ (IsProgramOf seed) routines programs) :
    ∀ program ∈ programs, program.IsSound := by
  induction theirs with
  | nil =>
      simp
  | cons first _ inductionHypothesis =>
      exact List.forall_mem_cons.mpr ⟨first.sound, inductionHypothesis⟩

theorem total_of_forall₂
    (theirs : List.Forall₂ (IsProgramOf seed) routines programs) :
    (Summary.ofPrograms programs).total = (routines.map caseCount).sum := by
  induction theirs with
  | nil =>
      rfl
  | cons first _ inductionHypothesis =>
      rw [Summary.total, Summary.ofPrograms] at inductionHypothesis
      rw [Summary.total, Summary.ofPrograms, List.flatMap_cons,
        List.length_append, inductionHypothesis, List.length_map,
        Program.cases, List.length_map, first.count, List.map_cons,
        List.sum_cons]

/-- Sound programs pass all of their cases. -/
theorem passed_of_sound
    (sound : ∀ program ∈ programs, program.IsSound) :
    (Summary.ofPrograms programs).passed =
      (Summary.ofPrograms programs).total := by
  rw [Summary.passed, Summary.total, List.countP_eq_length]
  intro verdict member
  obtain ⟨program, isProgram, verified⟩ := List.mem_flatMap.mp member
  obtain ⟨case, isCase, rfl⟩ := List.mem_map.mp verified
  obtain ⟨test, isTest, rfl⟩ := List.mem_map.mp isCase
  exact ((sound program isProgram).tests test isTest).passes program.routine

end Counts

/-- Programs for the same routine under two seeds: one text, up to the payloads of `memcpy`. -/
def SameUpToPayloads
    (first second : Program) : Prop :=
  first.routine = second.routine ∧
    if first.routine = .memcpy then
      first.SameButPayloads second
    else
      first.source = second.source

/-- Only the program of `memcpy` depends on the seed. -/
theorem program_eq_of_ne
    {routine : Routine}
    (notCopy : routine ≠ .memcpy)
    (first second : UInt64) :
    program first routine = program second routine := by
  cases routine with
  | memcpy =>
      exact absurd rfl notCopy
  | _ =>
      rfl

theorem sameUpToPayloads_of_isProgramOf
    {first second : UInt64}
    {routine : Routine}
    {firstProgram secondProgram : Program}
    (isFirst : IsProgramOf first routine firstProgram)
    (isSecond : IsProgramOf second routine secondProgram) :
    SameUpToPayloads firstProgram secondProgram := by
  refine ⟨isFirst.isFor.trans isSecond.isFor.symm, ?_⟩
  rw [isFirst.isFor]
  have firstMade := isFirst.made
  have secondMade := isSecond.made
  split
  · rename_i isCopy
    subst isCopy
    cases firstMade
    cases secondMade
    exact sameButPayloads_memcpyProgram first second
  · rename_i notCopy
    rw [program_eq_of_ne notCopy first second, secondMade] at firstMade
    rw [Except.ok.inj firstMade]

theorem forall₂_of_common
    {first second : UInt64}
    {routines : List Routine}
    {firstPrograms secondPrograms : List Program}
    (ofFirst : List.Forall₂ (IsProgramOf first) routines firstPrograms)
    (ofSecond : List.Forall₂ (IsProgramOf second) routines secondPrograms) :
    List.Forall₂ SameUpToPayloads firstPrograms secondPrograms := by
  induction ofFirst generalizing secondPrograms with
  | nil =>
      cases ofSecond
      exact .nil
  | cons isFirst _ inductionHypothesis =>
      cases ofSecond with
      | cons isSecond others =>
          exact
            .cons (sameUpToPayloads_of_isProgramOf isFirst isSecond)
              (inductionHypothesis others)

/--
Every seed gives one program for each routine, and all eighty cases of these
pass.  In each program the cases have names of their own, and its text is
printable ASCII and line breaks.  Another seed gives the same texts, but that
of `memcpy` has other payloads of the same lengths in its literals.
-/
theorem programs_pass
    (seed : UInt64) :
    ∃ programs,
      Suite.programs seed = .ok programs ∧
        programs.map Program.routine = Routine.all ∧
        (Summary.ofPrograms programs).total = 80 ∧
        (Summary.ofPrograms programs).passed = 80 ∧
        (Summary.ofPrograms programs).failed = 0 ∧
        (∀ program ∈ programs,
          (program.cases.map TestCase.identifier).Nodup ∧
            CText.PrintableLines program.source) ∧
        ∀ other,
          ∃ others,
            Suite.programs other = .ok others ∧
              List.Forall₂ SameUpToPayloads programs others := by
  obtain ⟨programs, made, theirs⟩ := exists_mapM_program seed Routine.all
  have sound := sound_of_forall₂ theirs
  have total : (Summary.ofPrograms programs).total = 80 :=
    total_of_forall₂ theirs
  have passed : (Summary.ofPrograms programs).passed = 80 :=
    (passed_of_sound sound).trans total
  refine
    ⟨programs, made, routines_of_forall₂ theirs, total, passed, ?_, ?_, ?_⟩
  · rw [Summary.failed, total, passed]
  · intro program member
    have isSound := sound program member
    have identifiers :
        program.cases.map TestCase.identifier =
          program.tests.map fun test => CText.identifier test.case.label := by
      rw [Program.cases, List.map_map]
      rfl
    exact
      ⟨identifiers ▸ isSound.distinct,
        Program.printableLines_source isSound.helpers isSound.prologue
          fun test isTest => (isSound.tests test isTest).printable⟩
  · intro other
    obtain ⟨others, othersMade, otherTheirs⟩ :=
      exists_mapM_program other Routine.all
    exact ⟨others, othersMade, forall₂_of_common theirs otherTheirs⟩

end Suite

end LibcConformance
