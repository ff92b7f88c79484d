import Mathlib.Tactic.IntervalCases
import LibcConformance.Json.Printer

namespace LibcConformance.Json

/-!
# Strings are read back

Every character of a string is written as itself, as a one-letter escape or as
a numeric escape below the surrogates.  The reader answers these units and
leaves off at the closing quote, and they mean the text that was written.  No
control character is part of what is written.
-/

/-- A text without control characters. -/
def NoControl
    (text : List Char) : Prop :=
  ∀ character ∈ text, 0x20 ≤ character.toNat

instance (text : List Char) : Decidable (NoControl text) :=
  List.decidableBAll (fun character : Char => 0x20 ≤ character.toNat) text

theorem noControl_nil :
    NoControl [] := by
  simp [NoControl]

theorem NoControl.cons
    {character : Char}
    {text : List Char}
    (printed : 0x20 ≤ character.toNat)
    (rest : NoControl text) :
    NoControl (character :: text) := by
  intro other member
  rcases List.mem_cons.mp member with rfl | later
  · exact printed
  · exact rest other later

theorem NoControl.append
    {front back : List Char}
    (first : NoControl front)
    (second : NoControl back) :
    NoControl (front ++ back) := by
  intro character member
  rcases List.mem_append.mp member with inFront | inBack
  · exact first character inFront
  · exact second character inBack

/-- A spelling of the characters of a string, up to the quote that closes it. -/
def SpellsString
    (spelling : List Char)
    (characters : List Char) : Prop :=
  ∃ units,
    StringUnit.characters? units = some characters ∧
      ∀ rest, readString? (spelling ++ '"' :: rest) = some (units, rest)

theorem StringUnit.characters?_escaped
    {number : Nat}
    (control : number < 0x20)
    (units : List StringUnit) :
    characters? (.escaped number :: units) =
      (characters? units).map (Char.ofNat number :: ·) := by
  have notHigh : isHighSurrogate number = false := by
    simp only [isHighSurrogate, Bool.and_eq_false_iff, decide_eq_false_iff_not]
    omega
  have notLow : isLowSurrogate number = false := by
    simp only [isLowSurrogate, Bool.and_eq_false_iff, decide_eq_false_iff_not]
    omega
  cases units with
  | nil =>
      simp [characters?, notHigh, notLow]
  | cons unit rest =>
      cases unit with
      | character plain =>
          simp [characters?, notHigh, notLow]
      | escaped low =>
          simp [characters?, notHigh, notLow]

theorem unitNumber?_hexDigits
    {number : Nat}
    (control : number < 0x20) :
    unitNumber? '0' '0'
        (Nat.digitChar (number / 16)) (Nat.digitChar (number % 16)) =
      some number := by
  interval_cases number <;> rfl

/-- How a character is written: by a letter, by its number or as itself. -/
theorem escaped_cases
    (character : Char) :
    (∃ letter,
        escaped character = ['\\', letter] ∧
          letter ≠ 'u' ∧
          0x20 ≤ letter.toNat ∧
          escapedCharacter? letter = some character) ∨
      (character.toNat < 0x20 ∧
        escaped character =
          ['\\', 'u', '0', '0', Nat.digitChar (character.toNat / 16),
            Nat.digitChar (character.toNat % 16)]) ∨
      (escaped character = [character] ∧
        character ≠ '"' ∧
        character ≠ '\\' ∧
        0x20 ≤ character.toNat) := by
  by_cases quote : character = '"'
  · subst quote
    exact .inl ⟨'"', by decide⟩
  by_cases backslash : character = '\\'
  · subst backslash
    exact .inl ⟨'\\', by decide⟩
  by_cases backspace : character = '\x08'
  · subst backspace
    exact .inl ⟨'b', by decide⟩
  by_cases tab : character = '\t'
  · subst tab
    exact .inl ⟨'t', by decide⟩
  by_cases newline : character = '\n'
  · subst newline
    exact .inl ⟨'n', by decide⟩
  by_cases formFeed : character = '\x0c'
  · subst formFeed
    exact .inl ⟨'f', by decide⟩
  by_cases carriageReturn : character = '\r'
  · subst carriageReturn
    exact .inl ⟨'r', by decide⟩
  rw [escaped, if_neg quote, if_neg backslash, if_neg backspace, if_neg tab,
    if_neg newline, if_neg formFeed, if_neg carriageReturn]
  by_cases control : character.toNat < 0x20
  · refine .inr (.inl ⟨control, ?_⟩)
    have byte : (UInt8.ofNat character.toNat).toNat = character.toNat := by
      rw [UInt8.toNat_ofNat']
      omega
    rw [if_pos control, Bytes.hexDigits, byte]
    rfl
  · exact .inr (.inr ⟨if_neg control, quote, backslash, by omega⟩)

theorem SpellsString.nil :
    SpellsString [] [] :=
  ⟨[], rfl, fun rest => by simp [readString?]⟩

/-- A written character in front of a string is read in front of it. -/
theorem SpellsString.cons
    {spelling characters : List Char}
    (spells : SpellsString spelling characters)
    (character : Char) :
    SpellsString (escaped character ++ spelling) (character :: characters) := by
  obtain ⟨units, means, reads⟩ := spells
  rcases escaped_cases character with
    ⟨letter, written, notNumeric, -, letterMeans⟩ |
      ⟨control, written⟩ | ⟨written, notQuote, notBackslash, notControl⟩
  · refine ⟨.character character :: units, by simp [StringUnit.characters?, means],
      fun rest => ?_⟩
    rw [written]
    simp only [List.cons_append, List.nil_append]
    rw [readString?]
    · simp only [letterMeans, reads rest, Option.bind_eq_bind,
        Option.bind_some, Option.pure_def]
    · simp_all
  · refine ⟨.escaped character.toNat :: units, ?_, fun rest => ?_⟩
    · rw [StringUnit.characters?_escaped control, means, Option.map_some,
        Char.ofNat_toNat]
    · rw [written]
      simp only [List.cons_append, List.nil_append, readString?,
        unitNumber?_hexDigits control, reads rest, Option.bind_eq_bind,
        Option.bind_some, Option.pure_def]
  · refine ⟨.character character :: units, by simp [StringUnit.characters?, means],
      fun rest => ?_⟩
    have plain : ¬ (character = '\\' ∨ character.toNat < 0x20) := by
      rintro (isBackslash | isControl)
      · exact notBackslash isBackslash
      · omega
    rw [written]
    simp only [List.cons_append, List.nil_append]
    rw [readString?]
    · rw [if_neg plain]
      simp only [reads rest, Option.bind_eq_bind, Option.bind_some,
        Option.pure_def]
    · exact notQuote
    · simp_all
    · simp_all

theorem spellsString_flatMap_escaped
    (characters : List Char) :
    SpellsString (characters.flatMap escaped) characters := by
  induction characters with
  | nil =>
      exact .nil
  | cons character rest inductionHypothesis =>
      rw [List.flatMap_cons]
      exact inductionHypothesis.cons character

/-- A quoted text is read back behind its opening quote. -/
theorem readString?_quoted
    (text : String) :
    ∃ units,
      StringUnit.text? units = some text ∧
        ∀ rest,
          ∃ behind,
            quoted text ++ rest = '"' :: behind ∧
              readString? behind = some (units, rest) := by
  obtain ⟨units, means, reads⟩ := spellsString_flatMap_escaped text.toList
  refine ⟨units, by simp [StringUnit.text?, means], fun rest => ?_⟩
  exact
    ⟨text.toList.flatMap escaped ++ '"' :: rest, by simp [quoted], reads rest⟩

theorem noControl_escaped
    (character : Char) :
    NoControl (escaped character) := by
  rcases escaped_cases character with
    ⟨letter, written, -, printed, -⟩ | ⟨control, written⟩ |
      ⟨written, -, -, printed⟩
  · rw [written]
    simp [NoControl, printed]
  · have high : character.toNat / 16 < 2 := by
      omega
    have low : character.toNat % 16 < 16 :=
      Nat.mod_lt _ (by decide)
    have printed (digit : Nat) (below : digit < 16) :
        0x20 ≤ (Nat.digitChar digit).toNat := by
      interval_cases digit <;> decide
    rw [written]
    simp [NoControl, printed _ low, printed _ (Nat.lt_trans high (by decide))]
  · rw [written]
    simp [NoControl, printed]

theorem noControl_quoted
    (text : String) :
    NoControl (quoted text) := by
  have inside : NoControl (text.toList.flatMap escaped) := by
    intro character member
    obtain ⟨origin, -, written⟩ := List.mem_flatMap.mp member
    exact noControl_escaped origin character written
  exact (inside.cons (by decide)).append (noControl_nil.cons (by decide))

end LibcConformance.Json
