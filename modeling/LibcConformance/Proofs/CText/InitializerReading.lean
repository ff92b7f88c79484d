import LibcConformance.Case.Initializer
import LibcConformance.Proofs.CText.LiteralReading
import LibcConformance.Proofs.CText.Name
import LibcConformance.Proofs.Seed.DigitText

namespace LibcConformance

/-!
# How C reads initializers

An array of characters is filled by a string literal, which brings its
terminator, or by constants between braces, one for each byte.  White space may
stand around the constants and a comma behind the last.  The C standard has no
list without constants for an array that takes its size from the list; it is
read here as by compilers that allow arrays without elements, as no bytes.  Main
fact: what is declared for an array is read as the bytes that the array is said
to hold.
-/

namespace CText

def isHexDigit
    (character : Char) : Bool :=
  (Numeral.hexDigitValue? character).isSome

/-- The number of a run of hexadecimal digits. -/
def hexValue
    (run : List Char) : Nat :=
  Numeral.ofDigits 16 (run.filterMap Numeral.hexDigitValue?)

/-- Reads a hexadecimal constant with all the digits that there are; its value must be a byte. -/
def readHexConstant? : List Char → Option (UInt8 × List Char)
  | '0' :: mark :: digits =>
      let run := digits.takeWhile isHexDigit
      if (mark = 'x' ∨ mark = 'X') ∧ run ≠ [] ∧ hexValue run < 256 then
        some (UInt8.ofNat (hexValue run), digits.dropWhile isHexDigit)
      else
        none
  | _ => none

/-- Whether a character may stand between tokens. -/
def isBlank
    (character : Char) : Bool :=
  [' ', '\t', '\n', '\x0b', '\x0c'].contains character

/-- The text from its first character that is not blank. -/
def skipBlank
    (text : List Char) : List Char :=
  text.dropWhile isBlank

/-- Reads a constant and the comma behind it; before the closing brace there may be none. -/
def readItem?
    (text : List Char) : Option (UInt8 × List Char) := do
  let (byte, behind) ← readHexConstant? text
  match skipBlank behind with
  | ',' :: rest => some (byte, skipBlank rest)
  | '\x7d' :: rest => some (byte, '\x7d' :: rest)
  | _ => none

theorem length_skipBlank_le
    (text : List Char) :
    (skipBlank text).length ≤ text.length :=
  (List.dropWhile_sublist _).length_le

section Lengths

variable
  {text rest : List Char}
  {byte : UInt8}

theorem length_readHexConstant?
    (accepted : readHexConstant? text = some (byte, rest)) :
    rest.length < text.length := by
  unfold readHexConstant? at accepted
  split at accepted
  · rename_i mark digits
    dsimp only at accepted
    split at accepted
    · cases accepted
      have shorter : (digits.dropWhile isHexDigit).length ≤ digits.length :=
        (List.dropWhile_sublist _).length_le
      exact Nat.lt_succ_of_lt (Nat.lt_succ_of_le shorter)
    · cases accepted
  · cases accepted

/-- An item that is read leaves a shorter text. -/
theorem length_readItem?
    (accepted : readItem? text = some (byte, rest)) :
    rest.length < text.length := by
  obtain ⟨⟨read, behind⟩, isConstant, isItem⟩ :=
    Option.bind_eq_some_iff.mp accepted
  have shorter := length_readHexConstant? isConstant
  have blanks := length_skipBlank_le behind
  dsimp only at isItem
  split at isItem
  · rename_i later shape
    cases isItem
    have moreBlanks := length_skipBlank_le later
    rw [shape, List.length_cons] at blanks
    omega
  · rename_i later shape
    cases isItem
    rw [shape] at blanks
    exact Nat.lt_of_le_of_lt blanks shorter
  · cases isItem

end Lengths

/-- Reads items up to the closing brace, and answers them with the text behind it. -/
def readItems?
    (text : List Char) : Option (Bytes × List Char) :=
  match text with
  | '\x7d' :: rest => some ([], rest)
  | text =>
      match _ : readItem? text with
      | none => none
      | some (byte, rest) =>
          (readItems? rest).map fun (bytes, behind) => (byte :: bytes, behind)
termination_by text.length
decreasing_by exact length_readItem? ‹_›

/--
Reads a list of constants between braces from a text as it stands in a file.
There may be no constants, which goes beyond the C standard.
-/
def readBraces?
    (text : List Char) : Option (Bytes × List Char) :=
  match replaceTrigraphs text with
  | '\x7b' :: rest => readItems? (skipBlank rest)
  | _ => none

/-- What an array holds that is filled by the initializer in front of a text. -/
def readInitializer?
    (text : List Char) : Option (Bytes × List Char) :=
  readBraces? text <|>
    (readLiteral? '"' text).map fun (bytes, rest) => (bytes.terminated, rest)

section Constants

theorem hexDigits_range
    (byte : UInt8) :
    byte.toNat / 16 < 16 ∧ byte.toNat % 16 < 16 :=
  ⟨Nat.div_lt_of_lt_mul byte.toNat_lt, Nat.mod_lt _ (by decide)⟩

theorem isHexDigit_of_mem_hexDigits
    (byte : UInt8) :
    ∀ digit ∈ Bytes.hexDigits byte, isHexDigit digit = true := by
  obtain ⟨high, low⟩ := hexDigits_range byte
  simp [Bytes.hexDigits, isHexDigit,
    (Numeral.hexDigitValue?_digitChar high).1,
    (Numeral.hexDigitValue?_digitChar low).1]

theorem hexValue_hexDigits
    (byte : UInt8) :
    hexValue (Bytes.hexDigits byte) = byte.toNat := by
  obtain ⟨high, low⟩ := hexDigits_range byte
  have values :
      (Bytes.hexDigits byte).filterMap Numeral.hexDigitValue? =
        [byte.toNat / 16, byte.toNat % 16] := by
    simp [Bytes.hexDigits, (Numeral.hexDigitValue?_digitChar high).1,
      (Numeral.hexDigitValue?_digitChar low).1]
  rw [hexValue, values]
  simp [Numeral.ofDigits, Nat.ofDigits_cons, Nat.mod_add_div]

theorem toList_hexConstant
    (byte : UInt8) :
    (hexConstant byte).toList = '0' :: 'x' :: Bytes.hexDigits byte := by
  simp [hexConstant]

/-- A constant is read as its byte up to what is no digit. -/
theorem readHexConstant?_append
    (byte : UInt8)
    {rest : List Char}
    (ends : ∀ character ∈ rest.head?, isHexDigit character = false) :
    readHexConstant? ((hexConstant byte).toList ++ rest) = some (byte, rest) := by
  have inRun := isHexDigit_of_mem_hexDigits byte
  have nonempty : Bytes.hexDigits byte ≠ [] :=
    List.cons_ne_nil _ _
  simp only [toList_hexConstant, List.cons_append, readHexConstant?,
    takeWhile_run_append inRun ends, dropWhile_run_append inRun ends,
    hexValue_hexDigits, UInt8.ofNat_toNat]
  exact if_pos ⟨.inl trivial, nonempty, byte.toNat_lt⟩

end Constants

section Items

variable
  (byte : UInt8)
  (rest : List Char)

theorem readItem?_last :
    readItem? ((hexConstant byte).toList ++ '\x7d' :: rest) =
      some (byte, '\x7d' :: rest) := by
  have ends :
      ∀ character ∈ ('\x7d' :: rest).head?, isHexDigit character = false := by
    simp [isHexDigit, Numeral.hexDigitValue?]
  simp only [readItem?, readHexConstant?_append byte ends,
    Option.bind_eq_bind, Option.bind_some]
  rfl

theorem readItem?_comma :
    readItem? ((hexConstant byte).toList ++ ',' :: ' ' :: rest) =
      some (byte, skipBlank rest) := by
  have ends :
      ∀ character ∈ (',' :: ' ' :: rest).head?, isHexDigit character = false := by
    simp [isHexDigit, Numeral.hexDigitValue?]
  simp only [readItem?, readHexConstant?_append byte ends,
    Option.bind_eq_bind, Option.bind_some]
  rfl

end Items

theorem readItems?_brace
    (rest : List Char) :
    readItems? ('\x7d' :: rest) = some ([], rest) := by
  rw [readItems?]

/-- An item is read in front of those behind it. -/
theorem readItems?_of_readItem?
    {text rest : List Char}
    {byte : UInt8}
    (opens : text.head? ≠ some '\x7d')
    (isItem : readItem? text = some (byte, rest)) :
    readItems? text =
      (readItems? rest).map fun (bytes, behind) => (byte :: bytes, behind) := by
  rw [readItems?]
  · split
    · rename_i refused
      rw [isItem] at refused
      cases refused
    · rename_i read
      rw [isItem] at read
      cases read
      rfl
  · rintro behind rfl
    exact opens rfl

/-- The constants of some bytes as they stand between braces. -/
def constants
    (bytes : Bytes) : List Char :=
  (", ".intercalate (bytes.map hexConstant)).toList

section Lists

theorem constants_singleton
    (byte : UInt8) :
    constants [byte] = (hexConstant byte).toList := by
  simp [constants]

theorem constants_cons_cons
    (byte next : UInt8)
    (later : Bytes) :
    constants (byte :: next :: later) =
      (hexConstant byte).toList ++ ',' :: ' ' :: constants (next :: later) := by
  simp [constants]

/-- Constants start with the mark of the first of them. -/
theorem exists_constants_cons
    (byte : UInt8)
    (later : Bytes) :
    ∃ behind, constants (byte :: later) = '0' :: behind := by
  cases later with
  | nil =>
      exact ⟨_, by rw [constants_singleton, toList_hexConstant]⟩
  | cons next others =>
      exact ⟨_, by rw [constants_cons_cons, toList_hexConstant]; rfl⟩

/-- No blank stands in front of constants. -/
theorem skipBlank_constants
    (bytes : Bytes)
    (rest : List Char) :
    skipBlank (constants bytes ++ '\x7d' :: rest) =
      constants bytes ++ '\x7d' :: rest := by
  cases bytes with
  | nil =>
      rfl
  | cons byte later =>
      obtain ⟨behind, shape⟩ := exists_constants_cons byte later
      rw [shape]
      rfl

/-- Constants with commas between them are read one by one. -/
theorem readItems?_constants
    (bytes : Bytes)
    (rest : List Char) :
    readItems? (constants bytes ++ '\x7d' :: rest) = some (bytes, rest) := by
  induction bytes with
  | nil =>
      exact readItems?_brace rest
  | cons byte later inductionHypothesis =>
      obtain ⟨behind, shape⟩ := exists_constants_cons byte later
      have opens :
          (constants (byte :: later) ++ '\x7d' :: rest).head? ≠ some '\x7d' := by
        simp [shape]
      cases later with
      | nil =>
          rw [constants_singleton] at opens ⊢
          rw [readItems?_of_readItem? opens (readItem?_last byte rest),
            readItems?_brace]
          rfl
      | cons next others =>
          rw [constants_cons_cons, List.append_assoc, List.cons_append,
            List.cons_append] at opens ⊢
          rw [readItems?_of_readItem? opens (readItem?_comma byte _),
            skipBlank_constants, inductionHypothesis]
          rfl

theorem toList_byteInitializer
    (bytes : Bytes) :
    (byteInitializer bytes).toList = '\x7b' :: constants bytes ++ ['\x7d'] := by
  simp [byteInitializer, constants]

/-- No constant has a question mark, and neither has what stands around it. -/
theorem questionMark_notMem_byteInitializer
    (bytes : Bytes) :
    '?' ∉ (byteInitializer bytes).toList := by
  have inConstants : '?' ∉ constants bytes := by
    intro member
    rw [constants, String.toList_intercalate, List.map_map] at member
    rcases mem_intercalate member with between | ⟨text, isConstant, inText⟩
    · exact absurd between (by decide)
    · obtain ⟨byte, -, rfl⟩ := List.mem_map.mp isConstant
      rw [Function.comp_apply, toList_hexConstant, List.mem_cons,
        List.mem_cons] at inText
      rcases inText with zero | mark | digit
      · exact absurd zero (by decide)
      · exact absurd mark (by decide)
      · exact absurd (isHexDigit_of_mem_hexDigits byte '?' digit) (by decide)
  rw [toList_byteInitializer]
  simpa using inConstants

end Lists

/-- A list of constants is read as its bytes, up to its closing brace. -/
theorem readBraces?_byteInitializer
    (bytes : Bytes)
    (rest : List Char) :
    readBraces? ((byteInitializer bytes).toList ++ rest) =
      some (bytes, replaceTrigraphs rest) := by
  have noQuestionMark := questionMark_notMem_byteInitializer bytes
  rw [readBraces?, replaceTrigraphs_append_of_notMem noQuestionMark,
    toList_byteInitializer]
  simp only [List.cons_append, List.append_assoc, List.nil_append,
    skipBlank_constants, readItems?_constants]

/-- A literal is no list of constants. -/
theorem readBraces?_stringLiteral
    (bytes : Bytes)
    (rest : List Char) :
    readBraces? ((stringLiteral bytes).toList ++ rest) = none := by
  rw [stringLiteral, String.toList_ofList, List.cons_append, List.cons_append,
    readBraces?, replaceTrigraphs_cons (.inl (by decide))]
  rfl

end CText

namespace Initializer

open CText

theorem declaration_eq
    (initializer : Initializer)
    (name : String) :
    initializer.declaration name =
      "char " ++ name ++ "[] = " ++ initializer.expression ++ ";" := by
  simp [declaration, toString]

/-- What C finds in an initializer is what the array is said to hold. -/
theorem readInitializer?_expression
    (initializer : Initializer)
    (rest : List Char) :
    readInitializer? (initializer.expression.toList ++ rest) =
      some (initializer.storage, replaceTrigraphs rest) := by
  cases initializer with
  | text content =>
      simp only [readInitializer?, expression, readBraces?_stringLiteral,
        readLiteral?_stringLiteral]
      rfl
  | bytes content =>
      simp only [readInitializer?, expression, readBraces?_byteInitializer]
      rfl

/-- Arrays that are declared alike hold the same bytes. -/
theorem storage_eq_of_declaration_eq
    {initializer other : Initializer}
    {name : String}
    (same : initializer.declaration name = other.declaration name) :
    initializer.storage = other.storage := by
  rw [declaration_eq, declaration_eq] at same
  have sameExpression : initializer.expression = other.expression := by
    simpa using same
  have isRead := initializer.readInitializer?_expression []
  rw [sameExpression, other.readInitializer?_expression] at isRead
  simpa using isRead.symm

/--
The declaration of an array is its name between `char` and what C reads as the
bytes that the array holds: of a text a literal, to which C adds the terminator,
and of bytes a list with a constant for each.  So arrays with the same
declaration hold the same.
-/
theorem declaration_readBack
    (initializer : Initializer)
    (name : String)
    (rest : List Char) :
    let behind := initializer.expression.toList ++ rest
    initializer.declaration name =
        "char " ++ name ++ "[] = " ++ initializer.expression ++ ";" ∧
      readInitializer? behind =
        some (initializer.storage, replaceTrigraphs rest) ∧
      (∀ content,
        initializer = .text content →
          readLiteral? '"' behind =
              some (Bytes.ofText content, replaceTrigraphs rest) ∧
            initializer.storage = Bytes.ofText content ++ [0]) ∧
      (∀ content,
        initializer = .bytes content →
          readBraces? behind = some (content, replaceTrigraphs rest) ∧
            initializer.storage = content) ∧
      ∀ other : Initializer,
        initializer.declaration name = other.declaration name →
          initializer.storage = other.storage := by
  refine
    ⟨initializer.declaration_eq name,
      initializer.readInitializer?_expression rest, ?_, ?_,
      fun _ => storage_eq_of_declaration_eq⟩
  · rintro content rfl
    exact ⟨readLiteral?_stringLiteral _ rest, rfl⟩
  · rintro content rfl
    exact ⟨readBraces?_byteInitializer content rest, rfl⟩

end Initializer

end LibcConformance
