import Mathlib.Data.List.SplitLengths
import LibcConformance.Proofs.Seed.WordStream

namespace LibcConformance.SplitMix

/-!
# Letters drawn from the stream of words

A draw of letters takes the next words of its generator, one for each letter,
and leaves the generator behind the last of them.  So the words of a seed are
handed out in their order, however they are asked for, and texts that are drawn
one after the other are the slices of a single text.
-/

/-- The letter that a word stands for is the entry of the table at its remainder. -/
theorem getElem?_alphabet
    (word : UInt64) :
    alphabet[word.toNat % 62]? = some (letter word) := by
  have entries : alphabet.length = 62 := by
    decide
  have within : word.toNat % 62 < alphabet.length := by
    omega
  rw [letter, entries, List.getD_eq_getElem?_getD,
    List.getElem?_eq_getElem within, Option.getD_some]

theorem isAlphanum_letter
    (word : UInt64) :
    (letter word).isAlphanum = true := by
  have listed : alphabet.all Char.isAlphanum = true := by
    decide
  exact
    List.all_eq_true.mp listed _
      (List.mem_of_getElem? (getElem?_alphabet word))

theorem letters_succ
    (count : Nat)
    (generator : SplitMix) :
    letters (count + 1) generator =
      (letter generator.next.1 :: (letters count generator.next.2).1,
        (letters count generator.next.2).2) := by
  -- Unfolded as it stands: to check it by `rfl`, Lean would compute the states.
  simp only [letters]

/-- The letters are those of the next words, and the generator is left behind these. -/
theorem letters_eq_stream
    (count : Nat)
    (generator : SplitMix) :
    letters count generator =
      ((List.range count).map fun index =>
          letter (afterDraws index generator).next.1,
        afterDraws count generator) := by
  induction count generalizing generator with
  | zero =>
      rfl
  | succ count inductionHypothesis =>
      simp only [letters_succ, inductionHypothesis, List.range_succ_eq_map,
        List.map_cons, List.map_map, Function.comp_def,
        Nat.succ_eq_add_one, afterDraws_zero, afterDraws_succ]

theorem isAlphanum_of_mem_letters
    (count : Nat)
    (generator : SplitMix) :
    ∀ character ∈ (letters count generator).1,
      character.isAlphanum = true := by
  rw [letters_eq_stream]
  exact List.forall_mem_map.mpr fun _ _ => isAlphanum_letter _

/-- Each letter is the entry of the table at the remainder of its word. -/
theorem getElem?_letters
    {count index : Nat}
    (generator : SplitMix)
    (within : index < count) :
    (letters count generator).1[index]? =
      alphabet[(afterDraws index generator).next.1.toNat % 62]? := by
  rw [letters_eq_stream, List.getElem?_map, List.getElem?_range within,
    Option.map_some, getElem?_alphabet]

/-- A draw of letters may be interrupted anywhere and gone on with. -/
theorem letters_add
    (first second : Nat)
    (generator : SplitMix) :
    letters (first + second) generator =
      ((letters first generator).1 ++
          (letters second (letters first generator).2).1,
        (letters second (letters first generator).2).2) := by
  simp only [letters_eq_stream, List.range_add, List.map_append,
    List.map_map, Function.comp_def, afterDraws_add]

theorem toList_alphanumeric
    (count : Nat)
    (generator : SplitMix) :
    (alphanumeric count generator).1.toList =
      (letters count generator).1 := by
  rw [alphanumeric, String.toList_ofList]

theorem generator_alphanumeric
    (count : Nat)
    (generator : SplitMix) :
    (alphanumeric count generator).2 = afterDraws count generator := by
  rw [alphanumeric, letters_eq_stream]

/-! ## Calls in a row -/

/-- A call on a generator, for a word or for a text. -/
inductive Call where
  | word
  | text (count : Nat)
  deriving Repr, DecidableEq

/-- What a call draws. -/
inductive Drawn where
  | word (word : UInt64)
  | text (text : String)
  deriving Repr, DecidableEq

namespace Call

/-- The number of words that a call takes from the stream. -/
def cost : Call → Nat
  | .word => 1
  | .text count => count

/-- Makes a call, and answers the generator afterwards. -/
def run
    (generator : SplitMix) : Call → Drawn × SplitMix
  | .word => (.word generator.next.1, generator.next.2)
  | .text count =>
      (.text (generator.alphanumeric count).1, (generator.alphanumeric count).2)

/--
What a call draws if it reads the words of a seed from a place on: the word at
the place, or a text with a letter or digit for each word, which the word picks
from the table by its remainder.  The generator has then gone on by as many words.
-/
inductive ReadsAt
    (seed : UInt64)
    (place : Nat) : Call → Drawn × SplitMix → Prop where
  | word :
      ReadsAt seed place .word
        (.word (wordAt place seed), afterDraws (place + 1) ⟨seed⟩)
  | text
      {count : Nat}
      {text : String}
      (length : text.length = count)
      (alphanumeric : ∀ character ∈ text.toList, character.isAlphanum = true)
      (letters :
        ∀ index < count,
          text.toList[index]? =
            alphabet[(wordAt (place + index) seed).toNat % 62]?) :
      ReadsAt seed place (.text count)
        (.text text, afterDraws (place + count) ⟨seed⟩)

theorem readsAt_run
    (seed : UInt64)
    (place : Nat)
    (call : Call) :
    call.ReadsAt seed place (call.run (afterDraws place ⟨seed⟩)) := by
  cases call with
  | word =>
      have advanced :
          (afterDraws place ⟨seed⟩).next.2 = afterDraws (place + 1) ⟨seed⟩ := by
        rw [afterDraws_add, afterDraws_succ, afterDraws_zero]
      rw [run, advanced]
      exact .word
  | text count =>
      rw [run, generator_alphanumeric, ← afterDraws_add]
      refine .text ?_ ?_ fun index within => ?_
      · rw [← String.length_toList, toList_alphanumeric, length_letters]
      · rw [toList_alphanumeric]
        exact isAlphanum_of_mem_letters count _
      · rw [toList_alphanumeric, getElem?_letters _ within, wordAt,
          afterDraws_add]

/-- A call takes the generator on by its words. -/
theorem generator_run
    (generator : SplitMix)
    (call : Call) :
    (call.run generator).2 = afterDraws call.cost generator := by
  cases call with
  | word =>
      rw [run, cost, afterDraws_succ, afterDraws_zero]
  | text count =>
      rw [run, cost, generator_alphanumeric]

end Call

/-- Makes calls in order, and answers what each drew and the generator at the end. -/
def runCalls
    (generator : SplitMix) : List Call → List Drawn × SplitMix
  | [] => ([], generator)
  | call :: rest =>
      ((call.run generator).1 :: (runCalls (call.run generator).2 rest).1,
        (runCalls (call.run generator).2 rest).2)

/-- The number of words that calls take from the stream. -/
def totalCost
    (calls : List Call) : Nat :=
  (calls.map Call.cost).sum

/-- Calls take the generator on by the words of all of them. -/
theorem generator_runCalls
    (generator : SplitMix)
    (calls : List Call) :
    (runCalls generator calls).2 =
      afterDraws (totalCost calls) generator := by
  induction calls generalizing generator with
  | nil =>
      rfl
  | cons call rest inductionHypothesis =>
      rw [runCalls, inductionHypothesis, call.generator_run,
        ← afterDraws_add, totalCost, totalCost, List.map_cons, List.sum_cons]

/-- A call among others draws what it draws from the generator that those before it leave. -/
theorem getElem?_runCalls
    (generator : SplitMix)
    (before : List Call)
    (call : Call)
    (later : List Call) :
    (runCalls generator (before ++ call :: later)).1[before.length]? =
      some (call.run (runCalls generator before).2).1 := by
  induction before generalizing generator with
  | nil =>
      rfl
  | cons first rest inductionHypothesis =>
      exact inductionHypothesis (first.run generator).2

/-- A last call takes the generator on from where the calls before it leave it. -/
theorem generator_runCalls_concat
    (generator : SplitMix)
    (before : List Call)
    (call : Call) :
    (runCalls generator (before ++ [call])).2 =
      (call.run (runCalls generator before).2).2 := by
  rw [generator_runCalls, call.generator_run, generator_runCalls,
    ← afterDraws_add, totalCost, List.map_append, List.sum_append,
    List.map_singleton, List.sum_singleton, totalCost]

/-- A call among others reads the words that follow those of the calls before it. -/
theorem readsAt_runCalls
    (seed : UInt64)
    (before : List Call)
    (call : Call)
    (later : List Call) :
    ∃ drawn,
      (runCalls ⟨seed⟩ (before ++ call :: later)).1[before.length]? =
          some drawn ∧
        call.ReadsAt seed (totalCost before)
          (drawn, (runCalls ⟨seed⟩ (before ++ [call])).2) := by
  have reads := call.readsAt_run seed (totalCost before)
  rw [← generator_runCalls] at reads
  refine ⟨_, getElem?_runCalls ⟨seed⟩ before call later, ?_⟩
  rw [generator_runCalls_concat]
  exact reads

example :
    (runCalls ⟨1⟩ [.text 1, .text 5, .word]).1 =
      [.text "Z", .text "xYPxG", .word 16184226688143867045] := by
  decide

/-- Texts drawn one after the other are the slices of one draw of all their letters. -/
theorem runCalls_texts
    (generator : SplitMix)
    (counts : List Nat) :
    runCalls generator (counts.map .text) =
      (((counts.splitLengths (letters counts.sum generator).1).map
          String.ofList).map .text,
        (alphanumeric counts.sum generator).2) := by
  rw [alphanumeric]
  induction counts generalizing generator with
  | nil =>
      rfl
  | cons count rest inductionHypothesis =>
      have drawn :
          (letters count generator).1.length = count :=
        length_letters count generator
      rw [List.map_cons, runCalls, inductionHypothesis, List.sum_cons,
        letters_add, List.splitLengths_cons, List.take_left' drawn,
        List.drop_left' drawn]
      rfl

/-- The slices are as long as they are asked for. -/
theorem lengths_slices
    (generator : SplitMix)
    (counts : List Nat) :
    (counts.splitLengths (letters counts.sum generator).1).map List.length =
      counts :=
  List.map_splitLengths_length _ _ (length_letters counts.sum generator).ge

/-- The slices make up the draw that they are cut from. -/
theorem flatten_slices
    (generator : SplitMix)
    (counts : List Nat) :
    (counts.splitLengths (letters counts.sum generator).1).flatten =
      (letters counts.sum generator).1 :=
  List.flatten_splitLengths _ _ (length_letters counts.sum generator).le

/-- What is drawn in parts is, joined, what is drawn at once. -/
theorem join_slices
    (generator : SplitMix)
    (counts : List Nat) :
    String.join
        ((counts.splitLengths (letters counts.sum generator).1).map
          String.ofList) =
      (alphanumeric counts.sum generator).1 := by
  rw [← String.toList_inj, String.toList_join, List.flatMap_map,
    toList_alphanumeric]
  simp only [String.toList_ofList, List.flatMap_id']
  exact flatten_slices generator counts

end LibcConformance.SplitMix
