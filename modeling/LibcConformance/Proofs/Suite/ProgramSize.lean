import LibcConformance.Proofs.Suite.WholeSuite

namespace LibcConformance

/-!
# Sizes of programs

The size of every program fits in a word.  It is measured where the text is
fixed.  That of `memcpy`, which a seed decides, is compared with the text whose
payloads are empty: no literal is more than some five hundred times as long.
-/

namespace Bytes

/-- The encoding of a text has the size of the text. -/
theorem length_ofText
    (text : String) :
    (ofText text).length = text.utf8ByteSize := by
  have encoded : (ofText text).toByteArray = text.toByteArray := by
    rw [ofText, ← List.utf8Encode, ← String.toByteArray_ofList, String.ofList_toList]
  rw [← List.size_toByteArray, encoded, String.size_toByteArray]

/-- No character takes more than four bytes. -/
theorem length_ofText_le
    (text : String) :
    (ofText text).length ≤ 4 * text.length := by
  rw [ofText, ← String.length_toList]
  induction text.toList with
  | nil =>
      exact Nat.le_refl 0
  | cons first rest inductionHypothesis =>
      have one := Char.utf8Size_le_four first
      rw [List.flatMap_cons, List.length_append, List.length_cons,
        String.length_utf8EncodeChar]
      omega

theorem length_le_length_ofText
    (text : String) :
    text.length ≤ (ofText text).length := by
  rw [ofText, ← String.length_toList]
  induction text.toList with
  | nil =>
      exact Nat.le_refl 0
  | cons first rest inductionHypothesis =>
      have one := Char.utf8Size_pos first
      rw [List.flatMap_cons, List.length_append, List.length_cons,
        String.length_utf8EncodeChar]
      omega

end Bytes

/-- Literals that are a number of times as long fill a frame to at most as many times the length. -/
theorem CText.length_fillFrame_le
    {first second : List String}
    {factor : Nat}
    (positive : 0 < factor)
    (bounded :
      ∀ index,
        (stringLiteral (Bytes.ofText (first.getD index ""))).length ≤
          factor * (stringLiteral (Bytes.ofText (second.getD index ""))).length)
    (frame : List FramePiece) :
    (fillFrame frame first).length ≤ factor * (fillFrame frame second).length := by
  induction frame with
  | nil =>
      exact Nat.zero_le _
  | cons piece rest inductionHypothesis =>
      simp only [fillFrame] at inductionHypothesis
      simp only [fillFrame, List.map_cons, String.join_cons, String.length_append,
        Nat.mul_add]
      refine Nat.add_le_add ?_ inductionHypothesis
      cases piece with
      | fixed text =>
          exact Nat.le_mul_of_pos_left _ positive
      | literal index =>
          exact bounded index

namespace Suite

/-- Whether the program that is made, if any, has a small size. -/
def isShort : Except CaseError Program → Bool
  | .ok program => program.source.utf8ByteSize < 10000
  | .error _ => true

theorem isShort_emptyCopies :
    isShort (.ok (copyProgram [])) = true := by
  decide +kernel

theorem isShort_program
    {routine : Routine}
    (notCopy : routine ≠ .memcpy)
    (seed : UInt64) :
    isShort (program seed routine) = true := by
  have table : ∀ routine ∈ Routine.all, routine ≠ .memcpy → isShort (program 0 routine) = true := by
    decide +kernel
  rw [program_eq_of_ne notCopy seed 0]
  exact table routine routine.mem_all notCopy

theorem length_source_memcpyProgram_le
    (seed : UInt64) :
    (memcpyProgram seed).source.length ≤ 501 * (copyProgram []).source.length := by
  obtain ⟨frame, filled⟩ := framed_copyProgram
  dsimp only at filled
  have bounded
      (index : Nat) :
      (CText.stringLiteral
          (Bytes.ofText ((memcpyProgram seed).payloads.getD index ""))).length ≤
        501 * (CText.stringLiteral (Bytes.ofText (([] : List String).getD index ""))).length := by
    have longest : (copyCases.map Prod.snd).getD index 0 ≤ 1000 := by
      rw [List.getD_eq_getElem?_getD]
      cases present : (copyCases.map Prod.snd)[index]? with
      | none =>
          exact Nat.zero_le 1000
      | some size =>
          have sizes : ∀ size ∈ copyCases.map Prod.snd, size ≤ 1000 := by
            decide
          exact sizes size (List.mem_of_getElem? present)
    have noPayload :
        (CText.stringLiteral (Bytes.ofText (([] : List String).getD index ""))).length = 2 := by
      rw [List.getD_nil, CText.stringLiteral_of_alphanumeric (by simp)]
      rfl
    rw [length_literal_payloads, noPayload]
    omega
  have compared := CText.length_fillFrame_le (by decide) bounded frame
  rwa [← filled, ← filled, ← memcpyProgram_eq_copyProgram] at compared

/-- The size of every program fits in a word. -/
theorem length_source_lt_wordSize
    {seed : UInt64}
    {routine : Routine}
    {made : Program}
    (isMade : program seed routine = .ok made) :
    (Bytes.ofText made.source).length < wordSize := by
  rw [wordSize]
  by_cases isCopy : routine = .memcpy
  · subst isCopy
    cases isMade
    have inBytes := Bytes.length_ofText_le (memcpyProgram seed).source
    have compared := length_source_memcpyProgram_le seed
    have inCharacters := Bytes.length_le_length_ofText (copyProgram []).source
    have short := isShort_emptyCopies
    rw [isShort, decide_eq_true_iff] at short
    rw [Bytes.length_ofText] at inCharacters
    omega
  · have short := isShort_program isCopy seed
    rw [isMade, isShort, decide_eq_true_iff] at short
    rw [Bytes.length_ofText]
    omega

section Whole

variable
  {seed : UInt64}
  {routines : List Routine}
  {programs : List Program}

theorem isProgramOf_of_mem
    (theirs : List.Forall₂ (IsProgramOf seed) routines programs) :
    ∀ program ∈ programs, IsProgramOf seed program.routine program := by
  induction theirs with
  | nil =>
      simp
  | cons first _ inductionHypothesis =>
      exact List.forall_mem_cons.mpr ⟨first.isFor.symm ▸ first, inductionHypothesis⟩

/-- The cases of all programs add up to those of their routines. -/
theorem length_tests_of_forall₂
    (theirs : List.Forall₂ (IsProgramOf seed) routines programs) :
    (programs.flatMap Program.tests).length = (routines.map caseCount).sum := by
  induction theirs with
  | nil =>
      rfl
  | cons first _ inductionHypothesis =>
      rw [List.flatMap_cons, List.length_append, inductionHypothesis, first.count,
        List.map_cons, List.sum_cons]

end Whole

theorem caseCount_lt_wordSize
    (routine : Routine) :
    caseCount routine < wordSize := by
  cases routine <;> decide

end Suite

end LibcConformance
