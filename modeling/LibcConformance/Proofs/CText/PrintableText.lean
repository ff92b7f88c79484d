import LibcConformance.Proofs.CText.LiteralReading
import LibcConformance.CText.Block
import LibcConformance.Proofs.CText.Name

namespace LibcConformance

/-!
# Printable text

Literals, numerals and identifiers consist of printable characters of ASCII,
whatever bytes, numbers and labels they are made from.  So do the lines of a
block whose parts do.
-/

namespace CText

/-- A text of printable characters of ASCII. -/
def Printable
    (text : String) : Prop :=
  ∀ character ∈ text.toList, IsPrintable character

/-- A text of printable characters of ASCII and line breaks. -/
def PrintableLines
    (text : String) : Prop :=
  ∀ character ∈ text.toList, IsPrintable character ∨ character = '\n'

instance (text : String) : Decidable (Printable text) :=
  List.decidableBAll IsPrintable text.toList

instance (text : String) : Decidable (PrintableLines text) :=
  List.decidableBAll
    (fun character => IsPrintable character ∨ character = '\n') text.toList

theorem Printable.lines
    {text : String}
    (printable : Printable text) :
    PrintableLines text :=
  fun character member => .inl (printable character member)

@[simp] theorem printable_append
    (front back : String) :
    Printable (front ++ back) ↔ Printable front ∧ Printable back := by
  simp [Printable, or_imp, forall_and]

@[simp] theorem printableLines_append
    (front back : String) :
    PrintableLines (front ++ back) ↔
      PrintableLines front ∧ PrintableLines back := by
  simp only [PrintableLines, String.toList_append, List.mem_append]
  exact
    ⟨fun both =>
      ⟨fun character member => both character (.inl member),
        fun character member => both character (.inr member)⟩,
      fun both character member =>
        member.elim (both.1 character) (both.2 character)⟩

theorem printableLines_join
    {texts : List String}
    (printable : ∀ text ∈ texts, PrintableLines text) :
    PrintableLines (String.join texts) := by
  intro character member
  rw [String.toList_join] at member
  obtain ⟨text, isPart, inside⟩ := List.mem_flatMap.mp member
  exact printable text isPart character inside

theorem isPrintable_of_isDigit
    {character : Char}
    (digit : character.isDigit = true) :
    IsPrintable character := by
  simp only [Char.isDigit, Bool.and_eq_true, decide_eq_true_eq] at digit
  have least : '0'.toNat ≤ character.toNat :=
    UInt32.le_iff_toNat_le.mp digit.1
  have greatest : character.toNat ≤ '9'.toNat :=
    UInt32.le_iff_toNat_le.mp digit.2
  exact ⟨Nat.le_trans (by decide) least, Nat.le_trans greatest (by decide)⟩

@[simp] theorem printable_natRepr
    (value : Nat) :
    Printable value.repr := by
  intro character member
  rw [Nat.toList_repr] at member
  exact
    isPrintable_of_isDigit
      (Nat.isDigit_of_mem_toDigits (by decide) (by decide) member)

@[simp] theorem printable_intRepr
    (value : Int) :
    Printable value.repr := by
  rw [Int.repr_eq_if]
  split
  · exact printable_natRepr _
  · exact (printable_append _ _).mpr ⟨by decide, printable_natRepr _⟩

theorem isPrintable_of_mem_flatMap_escaped
    {quote : Char}
    (isQuote : quote = '"' ∨ quote = '\'')
    {bytes : Bytes}
    {character : Char}
    (member : character ∈ bytes.flatMap (escaped quote)) :
    IsPrintable character := by
  obtain ⟨byte, -, written⟩ := List.mem_flatMap.mp member
  exact (spells_escaped isQuote byte).printable character written

@[simp] theorem printable_stringLiteral
    (bytes : Bytes) :
    Printable (stringLiteral bytes) := by
  intro character member
  rw [stringLiteral, String.toList_ofList, List.cons_append, List.mem_cons,
    List.mem_append, List.mem_singleton] at member
  rcases member with rfl | body | rfl
  · decide
  · exact isPrintable_of_mem_flatMap_escaped (.inl rfl) body
  · decide

@[simp] theorem printable_characterLiteral
    (byte : UInt8) :
    Printable (characterLiteral byte) := by
  intro character member
  rw [characterLiteral, String.toList_ofList, List.cons_append, List.mem_cons,
    List.mem_append, List.mem_singleton] at member
  rcases member with rfl | body | rfl
  · decide
  · exact (spells_escaped (.inr rfl) byte).printable character body
  · decide

theorem isPrintable_digitChar
    {digit : Nat}
    (below : digit < 16) :
    IsPrintable (Nat.digitChar digit) := by
  interval_cases digit <;> decide

@[simp] theorem printable_hexConstant
    (byte : UInt8) :
    Printable (hexConstant byte) := by
  have high : byte.toNat / 16 < 16 := by
    have bounded := byte.toNat_lt
    omega
  have low : byte.toNat % 16 < 16 :=
    Nat.mod_lt _ (by decide)
  refine (printable_append _ _).mpr ⟨by decide, ?_⟩
  simp [Printable, Bytes.hexDigits, isPrintable_digitChar high,
    isPrintable_digitChar low]

theorem printable_intercalate
    {separator : String}
    (separates : Printable separator)
    {texts : List String}
    (printable : ∀ text ∈ texts, Printable text) :
    Printable (separator.intercalate texts) := by
  intro character member
  rw [String.toList_intercalate] at member
  rcases mem_intercalate member with between | ⟨text, isPart, inText⟩
  · exact separates character between
  · obtain ⟨part, isText, rfl⟩ := List.mem_map.mp isPart
    exact printable part isText character inText

@[simp] theorem printable_byteInitializer
    (bytes : Bytes) :
    Printable (byteInitializer bytes) := by
  have constants :
      Printable (", ".intercalate (bytes.map hexConstant)) :=
    printable_intercalate (by decide) (by simp)
  simp only [byteInitializer, printable_append]
  exact ⟨⟨by decide, constants⟩, by decide⟩

theorem isPrintable_of_isNameCharacter
    {character : Char}
    (inName : isNameCharacter character = true) :
    IsPrintable character := by
  rcases Bool.or_eq_true_iff.mp inName with alphanumeric | underscore
  · exact forall_of_isAlphanum IsPrintable (by decide) alphanumeric
  · obtain rfl := eq_of_beq underscore
    decide

@[simp] theorem printable_identifier
    (label : String) :
    Printable (identifier label) :=
  fun character member =>
    isPrintable_of_isNameCharacter
      (isNameCharacter_of_mem_identifier label character member)

end CText

namespace Block

open CText

/-- A block of printable lines. -/
def Printable
    (block : Block) : Prop :=
  ∀ line ∈ block.lines, CText.Printable line

@[simp] theorem printable_empty :
    empty.Printable := by
  simp [Printable, empty]

@[simp] theorem printable_statement
    (block : Block)
    (text : String) :
    (block.statement text).Printable ↔
      block.Printable ∧ CText.Printable text := by
  have indented : CText.Printable "    " := by
    decide
  simp [Printable, statement, line, or_imp, forall_and, indented]

@[simp] theorem printable_comment
    (block : Block)
    (text : String) :
    (block.comment text).Printable ↔
      block.Printable ∧ CText.Printable text := by
  have marked : CText.Printable "// " := by
    decide
  rw [comment, ← statement, printable_statement]
  simp [toString, marked]

@[simp] theorem printable_check
    (block : Block)
    (condition : String) :
    (block.check condition).Printable ↔
      block.Printable ∧ CText.Printable condition := by
  have called : CText.Printable "check(" ∧ CText.Printable ");" := by
    decide
  simp [check, toString, called]

@[simp] theorem printable_titled
    (label : String) :
    (titled label).Printable ↔ CText.Printable label := by
  have opened : CText.Printable "Test " := by
    decide
  simp [titled, toString, opened]

@[simp] theorem printable_statements
    (block : Block)
    (texts : List String) :
    (block.statements texts).Printable ↔
      block.Printable ∧ ∀ text ∈ texts, CText.Printable text := by
  induction texts generalizing block with
  | nil =>
      simp [statements]
  | cons text rest inductionHypothesis =>
      simp only [statements, List.foldl_cons] at inductionHypothesis ⊢
      simp [inductionHypothesis, and_assoc]

end Block

end LibcConformance
