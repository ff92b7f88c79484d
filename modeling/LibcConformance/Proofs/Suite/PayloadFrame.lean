import Mathlib.Data.List.GetD
import LibcConformance.Proofs.CText.PrintableText
import LibcConformance.Proofs.Suite.PayloadSlices

namespace LibcConformance

/-!
# The frame around payloads

The text of the tests of `memcpy` is one frame for all seeds, with the literals
of the payloads that a seed draws in its places.  A payload has letters and
digits only, which stand for themselves in a literal, and as many of them as
the table asks for; so the texts of two seeds are equally long.
-/

namespace CText

/-- A piece of a text: fixed text, or the place of a payload's literal. -/
inductive FramePiece where
  | fixed (text : String)
  | literal (index : Nat)
  deriving Repr, DecidableEq

/-- The text of a piece with the literal of its payload. -/
def FramePiece.fill
    (payloads : List String) : FramePiece → String
  | .fixed text => text
  | .literal index => stringLiteral (Bytes.ofText (payloads.getD index ""))

/-- The text of a frame with the literals of payloads in its places. -/
def fillFrame
    (frame : List FramePiece)
    (payloads : List String) : String :=
  String.join (frame.map (·.fill payloads))

/-- A text with payloads in it that is one frame, whatever the payloads are. -/
def Framed
    (text : List String → String) : Prop :=
  ∃ frame, ∀ payloads, text payloads = fillFrame frame payloads

theorem framed_fixed
    (text : String) :
    Framed fun _ => text :=
  ⟨[.fixed text], fun payloads => by simp [fillFrame, FramePiece.fill]⟩

theorem framed_literal
    (index : Nat) :
    Framed fun payloads =>
      stringLiteral (Bytes.ofText (payloads.getD index "")) :=
  ⟨[.literal index], fun payloads => by simp [fillFrame, FramePiece.fill]⟩

theorem Framed.append
    {front back : List String → String}
    (frontFramed : Framed front)
    (backFramed : Framed back) :
    Framed fun payloads => front payloads ++ back payloads := by
  obtain ⟨frontFrame, frontText⟩ := frontFramed
  obtain ⟨backFrame, backText⟩ := backFramed
  refine ⟨frontFrame ++ backFrame, fun payloads => ?_⟩
  simp only [frontText, backText, fillFrame, List.map_append,
    String.join_append]

theorem framed_join
    {texts : List (List String → String)}
    (framed : ∀ text ∈ texts, Framed text) :
    Framed fun payloads => String.join (texts.map (· payloads)) := by
  induction texts with
  | nil =>
      simpa using framed_fixed ""
  | cons first rest inductionHypothesis =>
      obtain ⟨firstFramed, restFramed⟩ := List.forall_mem_cons.mp framed
      simpa using firstFramed.append (inductionHypothesis restFramed)

/-- Literals of the same lengths fill a frame to the same length. -/
theorem length_fillFrame
    {first second : List String}
    (sameLengths :
      ∀ index,
        (stringLiteral (Bytes.ofText (first.getD index ""))).length =
          (stringLiteral (Bytes.ofText (second.getD index ""))).length)
    (frame : List FramePiece) :
    (fillFrame frame first).length = (fillFrame frame second).length := by
  induction frame with
  | nil =>
      simp only [fillFrame, List.map_nil]
  | cons piece rest inductionHypothesis =>
      simp only [fillFrame] at inductionHypothesis
      simp only [fillFrame, List.map_cons, String.join_cons,
        String.length_append, inductionHypothesis]
      cases piece with
      | fixed text =>
          rw [FramePiece.fill, FramePiece.fill]
      | literal index =>
          rw [FramePiece.fill, FramePiece.fill, sameLengths index]

/-- Letters and digits stand for themselves in a literal. -/
theorem flatMap_escaped_of_isAlphanum
    {character : Char}
    (alphanumeric : character.isAlphanum = true) :
    (String.utf8EncodeChar character).flatMap (escaped '"') =
      [character] :=
  forall_of_isAlphanum
    (fun character =>
      (String.utf8EncodeChar character).flatMap (escaped '"') = [character])
    (by decide) alphanumeric

/-- The literal of a text of letters and digits is the text between quotes. -/
theorem stringLiteral_of_alphanumeric
    {text : String}
    (alphanumeric : ∀ character ∈ text.toList, character.isAlphanum = true) :
    stringLiteral (Bytes.ofText text) = "\"" ++ text ++ "\"" := by
  have body : stringBody (Bytes.ofText text) = text.toList := by
    rw [stringBody, Bytes.ofText]
    generalize text.toList = characters at alphanumeric
    induction characters with
    | nil =>
        rfl
    | cons first rest inductionHypothesis =>
        obtain ⟨isAlphanum, later⟩ := List.forall_mem_cons.mp alphanumeric
        rw [List.flatMap_cons, List.flatMap_append,
          flatMap_escaped_of_isAlphanum isAlphanum, inductionHypothesis later,
          List.singleton_append]
  rw [stringLiteral, body, ← String.toList_inj]
  simp

end CText

/-- Programs whose texts are one frame, with literals of the same lengths in its places. -/
structure Program.SameButPayloads
    (first second : Program) : Prop where
  framed :
    ∃ frame,
      first.source = CText.fillFrame frame first.payloads ∧
        second.source = CText.fillFrame frame second.payloads
  payloads :
    first.payloads.map String.length = second.payloads.map String.length
  length : first.source.length = second.source.length

namespace Block

/-- A block with payloads in it whose text is one frame. -/
def Framed
    (block : List String → Block) : Prop :=
  CText.Framed fun payloads => Program.joinLines (block payloads).lines

theorem framed_fixed
    (block : Block) :
    Framed fun _ => block :=
  CText.framed_fixed _

theorem Framed.statement
    {block : List String → Block}
    {text : List String → String}
    (blockFramed : Framed block)
    (textFramed : CText.Framed text) :
    Framed fun payloads => (block payloads).statement (text payloads) := by
  have added :=
    CText.Framed.append blockFramed
      (((CText.framed_fixed "    ").append textFramed).append
        (CText.framed_fixed "\n"))
  have sameText
      (payloads : List String) :
      Program.joinLines ((block payloads).statement (text payloads)).lines =
        Program.joinLines (block payloads).lines ++
          ("    " ++ text payloads ++ "\n") := by
    simp [Program.joinLines, Block.statement, Block.line]
  simpa only [Framed, sameText] using added

theorem Framed.check
    {block : List String → Block}
    {condition : List String → String}
    (blockFramed : Framed block)
    (conditionFramed : CText.Framed condition) :
    Framed fun payloads => (block payloads).check (condition payloads) :=
  blockFramed.statement
    (((CText.framed_fixed "check(").append conditionFramed).append
      (CText.framed_fixed ");"))

end Block

namespace Suite

/-- The block of a copy is the same but for the literal of its payload. -/
theorem framed_copyTest
    (label : String)
    (size index : Nat) :
    Block.Framed fun payloads =>
      (copyTest label (payloads.getD index "") size).block := by
  have literal := CText.framed_literal index
  simp only [copyTest, TestCase.identifier]
  refine
    Block.Framed.check
      (Block.Framed.check
        (Block.Framed.statement
          (Block.Framed.statement
            (Block.Framed.statement
              (Block.Framed.statement (Block.framed_fixed (.titled label)) ?_)
              (CText.framed_fixed _))
            (CText.framed_fixed _))
          (CText.framed_fixed _))
        (CText.framed_fixed _))
      ?_
  · exact
      ((CText.framed_fixed _).append literal).append (CText.framed_fixed _)
  · exact
      ((((CText.framed_fixed _).append literal).append
        (CText.framed_fixed _)).append (CText.framed_fixed _)).append
          (CText.framed_fixed _)

/-- The tests of a table with the payloads of their places in a list. -/
def copyTestsOf
    (start : Nat)
    (cases : List (String × Nat))
    (payloads : List String) : List Test :=
  (cases.zipIdx start).map fun entry =>
    copyTest entry.1.1 (payloads.getD entry.2 "") entry.1.2

theorem copyTests_eq_copyTestsOf
    (generator : SplitMix)
    (cases : List (String × Nat))
    (before : List String) :
    copyTests generator cases =
      copyTestsOf before.length cases
        (before ++ drawnPayloads generator cases) := by
  induction cases generalizing generator before with
  | nil =>
      rfl
  | cons entry rest inductionHypothesis =>
      obtain ⟨label, size⟩ := entry
      have later :=
        inductionHypothesis (generator.alphanumeric size).2
          (before ++ [(generator.alphanumeric size).1])
      rw [List.length_append, List.length_singleton, List.append_assoc,
        List.singleton_append] at later
      rw [copyTests_cons, later, copyTestsOf, copyTestsOf, List.zipIdx_cons,
        List.map_cons, drawnPayloads]
      simp [List.getD_eq_getElem?_getD]

/-- The program of `memcpy` with given payloads. -/
def copyProgram
    (payloads : List String) : Program :=
  { routine := .memcpy, helpers := [], prologue := .empty
    tests := copyTestsOf 0 copyCases payloads }

theorem memcpyProgram_eq_copyProgram
    (seed : UInt64) :
    memcpyProgram seed = copyProgram (memcpyProgram seed).payloads := by
  have tests := copyTests_eq_copyTestsOf ⟨seed⟩ copyCases []
  rw [List.length_nil, List.nil_append] at tests
  rw [payloads_memcpyProgram, copyProgram, memcpyProgram, tests]

/-- The blocks of the copies in a table are the same but for the literals. -/
theorem framed_copyTestsOf
    (start : Nat)
    (cases : List (String × Nat)) :
    CText.Framed fun payloads =>
      String.join
        ((copyTestsOf start cases payloads).map fun test =>
          "\n" ++ Program.joinLines test.block.lines) := by
  let body (entry : (String × Nat) × Nat) (payloads : List String) : String :=
    "\n" ++
      Program.joinLines
        (copyTest entry.1.1 (payloads.getD entry.2 "") entry.1.2).block.lines
  have framed : ∀ text ∈ (cases.zipIdx start).map body, CText.Framed text :=
    List.forall_mem_map.mpr fun entry _ =>
      (CText.framed_fixed "\n").append
        (framed_copyTest entry.1.1 entry.1.2 entry.2)
  have joined := CText.framed_join framed
  simpa only [copyTestsOf, List.map_map, Function.comp_def] using joined

theorem framed_copyProgram :
    CText.Framed fun payloads => (copyProgram payloads).source := by
  have bodies := framed_copyTestsOf 0 copyCases
  unfold Program.source copyProgram
  dsimp only
  exact
    ((CText.framed_fixed _).append bodies).append (CText.framed_fixed _)

/-- The literal in a place is as long as the table asks for, with two quotes. -/
theorem length_literal_payloads
    (seed : UInt64)
    (index : Nat) :
    (CText.stringLiteral
        (Bytes.ofText ((memcpyProgram seed).payloads.getD index ""))).length =
      (copyCases.map Prod.snd).getD index 0 + 2 := by
  have alphanumeric :
      ∀ character ∈ ((memcpyProgram seed).payloads.getD index "").toList,
        character.isAlphanum = true := by
    rw [payloads_memcpyProgram, List.getD_eq_getElem?_getD]
    cases present : (drawnPayloads ⟨seed⟩ copyCases)[index]? with
    | none =>
        simp
    | some payload =>
        exact
          alphanumeric_of_mem_drawnPayloads payload
            (List.mem_of_getElem? present)
  have size :
      ((memcpyProgram seed).payloads.getD index "").length =
        (copyCases.map Prod.snd).getD index 0 := by
    rw [payloads_memcpyProgram, ← lengths_drawnPayloads ⟨seed⟩ copyCases]
    exact (List.getD_map _ "" String.length).symm
  have quote : "\"".length = 1 :=
    rfl
  rw [CText.stringLiteral_of_alphanumeric alphanumeric, String.length_append,
    String.length_append, size, quote]
  omega

/-- The programs of `memcpy` for two seeds are the same but for their payloads. -/
theorem sameButPayloads_memcpyProgram
    (first second : UInt64) :
    (memcpyProgram first).SameButPayloads (memcpyProgram second) := by
  obtain ⟨frame, filled⟩ := framed_copyProgram
  have framed
      (seed : UInt64) :
      (memcpyProgram seed).source =
        CText.fillFrame frame (memcpyProgram seed).payloads := by
    have source :
        (copyProgram (memcpyProgram seed).payloads).source =
          CText.fillFrame frame (memcpyProgram seed).payloads :=
      filled (memcpyProgram seed).payloads
    rwa [← memcpyProgram_eq_copyProgram] at source
  refine ⟨⟨frame, framed first, framed second⟩, ?_, ?_⟩
  · rw [payloads_memcpyProgram, payloads_memcpyProgram,
      lengths_drawnPayloads, lengths_drawnPayloads]
  · rw [framed, framed]
    refine CText.length_fillFrame (fun index => ?_) frame
    rw [length_literal_payloads, length_literal_payloads]

end Suite

end LibcConformance
