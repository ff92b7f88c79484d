import Mathlib
import LibcConformance.CText.Identifier
import LibcConformance.Proofs.LeadingRun

namespace LibcConformance

/-!
# Names

A name of C consists of letters, digits and underscores and does not start with
a digit.  The identifier of a label has no other characters, so that it can
follow any name and make a longer one; and a name is read back whatever follows
it that cannot stand in one.
-/

namespace CText

theorem toNat_lt_of_isAlphanum
    {character : Char}
    (alphanumeric : character.isAlphanum = true) :
    character.toNat < 0x7f := by
  simp only [Char.isAlphanum, Char.isAlpha, Char.isUpper, Char.isLower,
    Char.isDigit, Bool.or_eq_true, Bool.and_eq_true, decide_eq_true_eq,
    UInt32.le_iff_toNat_le, ge_iff_le] at alphanumeric
  rcases alphanumeric with (⟨-, upper⟩ | ⟨-, lower⟩) | ⟨-, digit⟩
  · exact Nat.lt_of_le_of_lt upper (by decide)
  · exact Nat.lt_of_le_of_lt lower (by decide)
  · exact Nat.lt_of_le_of_lt digit (by decide)

/-- What a table of ASCII says of letters and digits holds of all of them. -/
theorem forall_of_isAlphanum
    (property : Char → Prop)
    (table :
      ∀ number < 0x7f,
        (Char.ofNat number).isAlphanum = true → property (Char.ofNat number))
    {character : Char}
    (alphanumeric : character.isAlphanum = true) :
    property character := by
  have entry := table character.toNat (toNat_lt_of_isAlphanum alphanumeric)
  rw [Char.ofNat_toNat] at entry
  exact entry alphanumeric

/-- What stands in joined texts stands in one of them or between two. -/
theorem mem_intercalate
    {separator : List Char}
    {texts : List (List Char)}
    {character : Char}
    (member : character ∈ separator.intercalate texts) :
    character ∈ separator ∨ ∃ text ∈ texts, character ∈ text := by
  induction texts with
  | nil =>
      cases member
  | cons first rest inductionHypothesis =>
      cases rest with
      | nil =>
          rw [List.intercalate_singleton] at member
          exact .inr ⟨first, List.mem_cons_self, member⟩
      | cons next others =>
          rw [List.intercalate_cons_cons, List.append_assoc,
            List.mem_append, List.mem_append] at member
          rcases member with inFirst | between | inRest
          · exact .inr ⟨first, List.mem_cons_self, inFirst⟩
          · exact .inl between
          · rcases inductionHypothesis inRest with between | ⟨text, isRest, inText⟩
            · exact .inl between
            · exact .inr ⟨text, List.mem_cons_of_mem first isRest, inText⟩

/-- Whether a character may stand in a name. -/
def isNameCharacter
    (character : Char) : Bool :=
  character.isAlphanum || character == '_'

/-- A name of C: letters, digits and underscores, and no digit first. -/
structure IsName
    (name : String) : Prop where
  characters : ∀ character ∈ name.toList, isNameCharacter character = true
  start : ∃ first ∈ name.toList.head?, first.isDigit = false

/-- Reads a name, as far as it goes. -/
def readName?
    (text : List Char) : Option (String × List Char) :=
  let run := text.takeWhile isNameCharacter
  if run.head?.all Char.isDigit then
    none
  else
    some (String.ofList run, text.dropWhile isNameCharacter)

/-- A text that no character of a name stands in front of. -/
def NoNameFirst
    (text : List Char) : Prop :=
  ∀ character ∈ text.head?, isNameCharacter character = false

theorem readName?_append
    {name : String}
    (named : IsName name)
    {rest : List Char}
    (ends : NoNameFirst rest) :
    readName? (name.toList ++ rest) = some (name, rest) := by
  have taken : (name.toList ++ rest).takeWhile isNameCharacter = name.toList :=
    takeWhile_run_append named.characters ends
  have dropped : (name.toList ++ rest).dropWhile isNameCharacter = rest :=
    dropWhile_run_append named.characters ends
  obtain ⟨first, isFirst, notDigit⟩ := named.start
  have plain : ¬ name.toList.head?.all Char.isDigit = true := by
    rw [Option.mem_def.mp isFirst]
    simp [notDigit]
  rw [readName?]
  simp only [taken, dropped, if_neg plain, String.ofList_toList]

theorem isNameCharacter_toLower
    {character : Char}
    (alphanumeric : character.isAlphanum = true) :
    isNameCharacter character.toLower = true :=
  forall_of_isAlphanum
    (fun character => isNameCharacter character.toLower = true)
    (by decide) alphanumeric

theorem isNameCharacter_of_mem_joinedWords
    {started gap : Bool}
    {text : List Char}
    {character : Char}
    (member : character ∈ joinedWords started gap text) :
    isNameCharacter character = true := by
  induction text generalizing started gap with
  | nil =>
      simp [joinedWords] at member
  | cons first rest inductionHypothesis =>
      rw [joinedWords] at member
      split at member
      · rename_i alphanumeric
        rw [List.mem_append, List.mem_cons] at member
        rcases member with underscore | rfl | later
        · obtain rfl : character = '_' := by
            cases gap <;> simp_all
          rfl
        · exact isNameCharacter_toLower alphanumeric
        · exact inductionHypothesis later
      · exact inductionHypothesis member

theorem isNameCharacter_of_mem_identifier
    (label : String) :
    ∀ character ∈ (identifier label).toList, isNameCharacter character = true := by
  have words :
      ∀ character ∈ joinedWords false false label.toList,
        isNameCharacter character = true :=
    fun character => isNameCharacter_of_mem_joinedWords
  rw [identifier]
  cases shape : joinedWords false false label.toList with
  | nil =>
      simp [isNameCharacter]
  | cons first rest =>
      rw [shape] at words
      simp only [String.toList_ofList]
      split
      · exact List.forall_mem_cons.mpr ⟨by decide, words⟩
      · exact words

/-- An identifier behind a name makes a name. -/
theorem IsName.append_identifier
    {front : String}
    (named : IsName front)
    (label : String) :
    IsName (front ++ identifier label) where
  characters := by
    intro character member
    rw [String.toList_append, List.mem_append] at member
    rcases member with inFront | inIdentifier
    · exact named.characters character inFront
    · exact isNameCharacter_of_mem_identifier label character inIdentifier
  start := by
    obtain ⟨first, isFirst, notDigit⟩ := named.start
    refine ⟨first, ?_, notDigit⟩
    rw [String.toList_append, List.head?_append, Option.mem_def.mp isFirst]
    rfl

end CText

end LibcConformance
