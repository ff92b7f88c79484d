import LibcConformance.Proofs.Seed.LetterStream
import LibcConformance.Suite.Collection

namespace LibcConformance

/-!
# Payloads as slices of one text

A generator hands out the words of its seed in their order, so the payloads of
`memcpy` are what one draw of all their letters gives, cut by the sizes of the
table.  Each payload has letters and digits only, as many as its size.
-/

/-- The payload that a case copies, if it copies one. -/
def TestCase.payload?
    (case : TestCase) : Option String :=
  match case.probe with
  | .copy payload => some payload
  | _ => none

/-- The payloads that the cases of a program copy, in order. -/
def Program.payloads
    (program : Program) : List String :=
  program.cases.filterMap TestCase.payload?

namespace Suite

open SplitMix

/-- The payloads that the tests of a table draw. -/
def drawnPayloads
    (generator : SplitMix) : List (String × Nat) → List String
  | [] => []
  | (_, size) :: rest =>
      (generator.alphanumeric size).1 ::
        drawnPayloads (generator.alphanumeric size).2 rest

theorem copyTests_cons
    (generator : SplitMix)
    (label : String)
    (size : Nat)
    (rest : List (String × Nat)) :
    copyTests generator ((label, size) :: rest) =
      copyTest label (generator.alphanumeric size).1 size ::
        copyTests (generator.alphanumeric size).2 rest :=
  rfl

theorem labels_copyTests
    (generator : SplitMix)
    (cases : List (String × Nat)) :
    (copyTests generator cases).map (·.case.label) = cases.map Prod.fst := by
  induction cases generalizing generator with
  | nil =>
      rfl
  | cons entry rest inductionHypothesis =>
      obtain ⟨label, size⟩ := entry
      rw [copyTests, List.map_cons, inductionHypothesis]
      rfl

/-- Each case of a table copies the payload that is drawn for its entry. -/
theorem payload?_copyTests
    (generator : SplitMix)
    (cases : List (String × Nat)) :
    ((copyTests generator cases).map Test.case).map TestCase.payload? =
      (drawnPayloads generator cases).map some := by
  induction cases generalizing generator with
  | nil =>
      rfl
  | cons entry rest inductionHypothesis =>
      obtain ⟨label, size⟩ := entry
      have copies :
          (copyTest label (generator.alphanumeric size).1 size).case.payload? =
            some (generator.alphanumeric size).1 :=
        rfl
      rw [copyTests_cons, List.map_cons, List.map_cons, copies,
        inductionHypothesis, drawnPayloads, List.map_cons]

theorem payloads_copyTests
    (generator : SplitMix)
    (cases : List (String × Nat)) :
    ((copyTests generator cases).map Test.case).filterMap TestCase.payload? =
      drawnPayloads generator cases := by
  have collected
      (cases : List TestCase) :
      cases.filterMap TestCase.payload? =
        (cases.map TestCase.payload?).filterMap id := by
    rw [List.filterMap_map, Function.id_comp]
  rw [collected, payload?_copyTests, List.filterMap_map, Function.id_comp,
    List.filterMap_some]

theorem payloads_memcpyProgram
    (seed : UInt64) :
    (memcpyProgram seed).payloads = drawnPayloads ⟨seed⟩ copyCases :=
  payloads_copyTests ⟨seed⟩ copyCases

/-- The payloads of a table are what calls for texts of its sizes draw. -/
theorem runCalls_drawnPayloads
    (generator : SplitMix)
    (cases : List (String × Nat)) :
    (runCalls generator ((cases.map Prod.snd).map .text)).1 =
      (drawnPayloads generator cases).map .text := by
  induction cases generalizing generator with
  | nil =>
      rfl
  | cons entry rest inductionHypothesis =>
      obtain ⟨label, size⟩ := entry
      exact
        congrArg (.text (generator.alphanumeric size).1 :: ·)
          (inductionHypothesis (generator.alphanumeric size).2)

theorem drawnPayloads_eq_slices
    (generator : SplitMix)
    (cases : List (String × Nat)) :
    drawnPayloads generator cases =
      ((cases.map Prod.snd).splitLengths
        (letters (cases.map Prod.snd).sum generator).1).map
          String.ofList := by
  have texts : Function.Injective Drawn.text :=
    fun _ _ same => Drawn.text.inj same
  apply List.map_injective_iff.mpr texts
  rw [← runCalls_drawnPayloads, runCalls_texts]

theorem lengths_drawnPayloads
    (generator : SplitMix)
    (cases : List (String × Nat)) :
    (drawnPayloads generator cases).map String.length =
      cases.map Prod.snd := by
  have lengths : String.length ∘ String.ofList = List.length :=
    funext fun _ => String.length_ofList
  rw [drawnPayloads_eq_slices, List.map_map, lengths, lengths_slices]

theorem alphanumeric_of_mem_drawnPayloads
    {generator : SplitMix}
    {cases : List (String × Nat)} :
    ∀ payload ∈ drawnPayloads generator cases,
      ∀ character ∈ payload.toList, character.isAlphanum = true := by
  intro payload isDrawn character inPayload
  rw [drawnPayloads_eq_slices] at isDrawn
  obtain ⟨slice, isSlice, rfl⟩ := List.mem_map.mp isDrawn
  rw [String.toList_ofList] at inPayload
  have inStream :
      character ∈ (letters (cases.map Prod.snd).sum generator).1 := by
    rw [← flatten_slices]
    exact List.mem_flatten_of_mem isSlice inPayload
  exact isAlphanum_of_mem_letters _ generator character inStream

/--
Every call on the generator of a seed reads the words that follow those of the
calls before it: a word as it is, or a text with a letter or digit for each word.
So texts drawn in a row are one draw of their joined length, and the payloads of
`memcpy` are, in the order of the table, the slices of a single text.
-/
theorem payloads_consecutiveSlices
    (seed : UInt64) :
    (∀ (before : List Call) (call : Call) (later : List Call), ∃ drawn,
        (runCalls ⟨seed⟩ (before ++ call :: later)).1[before.length]? =
            some drawn ∧
          call.ReadsAt seed (totalCost before)
            (drawn, (runCalls ⟨seed⟩ (before ++ [call])).2)) ∧
      (∀ counts : List Nat, ∃ texts,
        runCalls ⟨seed⟩ (counts.map .text) =
            (texts.map .text, (alphanumeric counts.sum ⟨seed⟩).2) ∧
          String.join texts = (alphanumeric counts.sum ⟨seed⟩).1) ∧
      (let sizes := copyCases.map Prod.snd
        let stream := (alphanumeric sizes.sum ⟨seed⟩).1.toList
        let slices := sizes.splitLengths stream
        (memcpyProgram seed).cases.map TestCase.label = copyCases.map Prod.fst ∧
          (memcpyProgram seed).cases.map TestCase.payload? =
            slices.map (fun slice => some (String.ofList slice)) ∧
          slices.map List.length = sizes) := by
  have cases :
      (memcpyProgram seed).cases =
        (copyTests ⟨seed⟩ copyCases).map Test.case :=
    rfl
  refine ⟨readsAt_runCalls seed, fun counts => ?_, ?_, ?_, ?_⟩
  · exact ⟨_, runCalls_texts ⟨seed⟩ counts, join_slices ⟨seed⟩ counts⟩
  · rw [cases, List.map_map]
    exact labels_copyTests ⟨seed⟩ copyCases
  · rw [cases, payload?_copyTests, drawnPayloads_eq_slices, List.map_map,
      toList_alphanumeric]
    rfl
  · rw [toList_alphanumeric]
    exact lengths_slices ⟨seed⟩ _

end Suite

end LibcConformance
