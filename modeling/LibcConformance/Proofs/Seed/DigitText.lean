import Mathlib.Data.Nat.Digits.Lemmas
import Mathlib.Tactic.IntervalCases
import LibcConformance.Numeral
import LibcConformance.Text.WhiteSpace

namespace LibcConformance

/-!
# Digits in texts

A text denotes a number in a radix if it lists digits of that radix, most
significant digit first, each in either letter case.  Numerals that are written
denote their numbers, and so they do with zeros in front.
-/

namespace Numeral

/-- A character that is written for a digit of a radix, in either letter case. -/
def IsDigitOf
    (radix : Nat)
    (character : Char)
    (digit : Nat) : Prop :=
  digit < radix ∧
    (character = Nat.digitChar digit ∨ character = (Nat.digitChar digit).toUpper)

/-- The number that digits make up. -/
def ofDigits
    (radix : Nat)
    (digits : List Nat) : Nat :=
  Nat.ofDigits radix digits.reverse

/-- A text that lists the digits of a number. -/
def IsTextOf
    (radix : Nat)
    (text : List Char)
    (value : Nat) : Prop :=
  ∃ digits,
    List.Forall₂ (IsDigitOf radix) text digits ∧ ofDigits radix digits = value

section Characters

variable
  {radix digit : Nat}
  {character : Char}

theorem toNat_lt_of_hexDigitValue?
    (known : hexDigitValue? character = some digit) :
    character.toNat < 0x80 := by
  rw [hexDigitValue?] at known
  split at known
  · rename_i range
    exact Nat.lt_of_le_of_lt range.2 (by decide)
  split at known
  · rename_i range
    exact Nat.lt_of_le_of_lt range.2 (by decide)
  split at known
  · rename_i range
    exact Nat.lt_of_le_of_lt range.2 (by decide)
  · exact absurd known (by simp)

/-- A digit is read in either letter case. -/
theorem hexDigitValue?_digitChar
    (below : digit < 16) :
    hexDigitValue? (Nat.digitChar digit) = some digit ∧
      hexDigitValue? (Nat.digitChar digit).toUpper = some digit := by
  have table :
      ∀ value < 16,
        hexDigitValue? (Nat.digitChar value) = some value ∧
          hexDigitValue? (Nat.digitChar value).toUpper = some value := by
    decide
  exact table digit below

/-- The digits of a radix have their values, and no other characters have any. -/
theorem digitValue?_eq_some_iff
    (radixTable : radix ≤ 16) :
    digitValue? radix character = some digit ↔ IsDigitOf radix character digit := by
  have table :
      ∀ number < 0x80, ∀ value ∈ hexDigitValue? (Char.ofNat number),
        Char.ofNat number = Nat.digitChar value ∨
          Char.ofNat number = (Nat.digitChar value).toUpper := by
    decide
  rw [digitValue?, Option.filter_eq_some_iff, decide_eq_true_eq]
  constructor
  · rintro ⟨known, below⟩
    have entry := table character.toNat (toNat_lt_of_hexDigitValue? known) digit
    rw [Char.ofNat_toNat] at entry
    exact ⟨below, entry known⟩
  · rintro ⟨below, rfl | rfl⟩
    · exact ⟨(hexDigitValue?_digitChar (below.trans_le radixTable)).1, below⟩
    · exact ⟨(hexDigitValue?_digitChar (below.trans_le radixTable)).2, below⟩

/-- No digit is white space, an underscore or a sign. -/
theorem IsDigitOf.isPlain
    (isDigit : IsDigitOf radix character digit)
    (radixTable : radix ≤ 16) :
    WhiteSpace.contains character = false ∧ character ∉ ['_', '+', '-'] := by
  have table :
      ∀ value < 16,
        [Nat.digitChar value, (Nat.digitChar value).toUpper].all fun written =>
          !WhiteSpace.contains written && !(['_', '+', '-'].contains written) := by
    decide
  have plain :=
    List.all_eq_true.mp (table digit (isDigit.1.trans_le radixTable)) character
      (by simpa using isDigit.2)
  simpa using plain

end Characters

section Texts

variable
  {radix value : Nat}
  {text : List Char}

theorem ofDigits_append
    (radix : Nat)
    (front back : List Nat) :
    ofDigits radix (front ++ back) =
      ofDigits radix front * radix ^ back.length + ofDigits radix back := by
  rw [ofDigits, ofDigits, ofDigits, List.reverse_append, Nat.ofDigits_append,
    List.length_reverse, Nat.add_comm, Nat.mul_comm]

theorem isTextOf_nil
    (radix : Nat) :
    IsTextOf radix [] 0 :=
  ⟨[], .nil, rfl⟩

/-- A digit behind a text shifts what the text denotes by one place. -/
theorem IsTextOf.snoc
    {character : Char}
    {digit : Nat}
    (denotes : IsTextOf radix text value)
    (isDigit : IsDigitOf radix character digit) :
    IsTextOf radix (text ++ [character]) (value * radix + digit) := by
  obtain ⟨digits, listed, rfl⟩ := denotes
  refine ⟨digits ++ [digit], List.rel_append listed (.cons isDigit .nil), ?_⟩
  rw [ofDigits_append]
  simp [ofDigits]

/-- Zeros in front of a text do not change what it denotes. -/
theorem IsTextOf.zeros
    (denotes : IsTextOf radix text value)
    (positive : 0 < radix)
    (count : Nat) :
    IsTextOf radix (List.replicate count '0' ++ text) value := by
  induction count with
  | zero =>
      exact denotes
  | succ count inductionHypothesis =>
      obtain ⟨digits, listed, same⟩ := inductionHypothesis
      refine ⟨0 :: digits, .cons ⟨positive, Or.inl rfl⟩ listed, ?_⟩
      rw [← List.singleton_append, ofDigits_append, same]
      simp [ofDigits]

/-- A numeral denotes the number it was written for. -/
theorem isTextOf_digits
    (radixRange : 1 < radix)
    (value : Nat) :
    IsTextOf radix (digits radix value) value := by
  induction value using Nat.strongRecOn with
  | _ value inductionHypothesis =>
      have isDigit {digit : Nat} (below : digit < radix) :
          IsDigitOf radix (Nat.digitChar digit) digit :=
        ⟨below, Or.inl rfl⟩
      rw [digits, Nat.toDigits_eq_if radixRange]
      split
      · rename_i oneDigit
        simpa using (isTextOf_nil radix).snoc (isDigit oneDigit)
      · rename_i moreDigits
        have smaller : value / radix < value :=
          Nat.div_lt_self (by omega) radixRange
        have lastDigit : value % radix < radix :=
          Nat.mod_lt value (by omega)
        have whole := (inductionHypothesis _ smaller).snoc (isDigit lastDigit)
        rwa [Nat.div_add_mod'] at whole

theorem IsTextOf.exists_isDigitOf
    (denotes : IsTextOf radix text value) :
    ∀ character ∈ text, ∃ digit, IsDigitOf radix character digit := by
  obtain ⟨digits, listed, -⟩ := denotes
  induction listed with
  | nil =>
      simp
  | cons isDigit _ inductionHypothesis =>
      exact List.forall_mem_cons.mpr ⟨⟨_, isDigit⟩, inductionHypothesis⟩

end Texts

end Numeral

end LibcConformance
