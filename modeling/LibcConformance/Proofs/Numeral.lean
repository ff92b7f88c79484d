import Mathlib.Data.Nat.Digits.Lemmas
import Mathlib.Tactic.IntervalCases
import LibcConformance.Numeral
import LibcConformance.Proofs.LeadingRun

namespace LibcConformance

/-!
# What numerals denote

A numeral denotes the number whose digits it lists, most significant digit
first, with zeros in front or without.  The numerals that are written are the
shortest ones, and there is only one shortest numeral for each number.  In front
of a text, a decimal numeral is the run of digits that the text starts with.
-/

namespace Numeral

/-- The byte of a digit below sixteen. -/
def digitByte (uppercase : Bool) (digit : Nat) : UInt8 :=
  let table := if uppercase then "0123456789ABCDEF" else "0123456789abcdef"
  (Bytes.ofText table).getD digit 0

/-- Bytes that list the digits of a number. -/
def Denotes
    (radix : Nat)
    (uppercase : Bool)
    (numeral : Bytes)
    (value : Nat) : Prop :=
  ∃ digits : List Nat,
    (∀ digit ∈ digits, digit < radix) ∧
      numeral = digits.map (digitByte uppercase) ∧
        Nat.ofDigits radix digits.reverse = value

/-- A numeral with a digit at least, and with no more than any other such one. -/
structure IsShortest
    (radix : Nat)
    (uppercase : Bool)
    (numeral : Bytes)
    (value : Nat) : Prop where
  denotes : Denotes radix uppercase numeral value
  nonempty : numeral ≠ []
  least :
    ∀ other,
      Denotes radix uppercase other value →
      other ≠ [] →
      numeral.length ≤ other.length

variable
  {radix : Nat}
  {uppercase : Bool}

theorem ascii_digitChar
    (uppercase : Bool)
    {digit : Nat}
    (below : digit < 16) :
    ascii
        (if uppercase then
          (Nat.digitChar digit).toUpper
        else
          Nat.digitChar digit) =
      digitByte uppercase digit := by
  cases uppercase <;> interval_cases digit <;> decide

theorem denotes_nil :
    Denotes radix uppercase [] 0 :=
  ⟨[], by simp, rfl, rfl⟩

/-- A digit behind a numeral shifts its value by one place. -/
theorem Denotes.snoc
    {numeral : Bytes}
    {value digit : Nat}
    (denotes : Denotes radix uppercase numeral value)
    (below : digit < radix) :
    Denotes radix uppercase (numeral ++ [digitByte uppercase digit])
      (radix * value + digit) := by
  obtain ⟨digits, bounded, rfl, rfl⟩ := denotes
  refine ⟨digits ++ [digit], ?_, by simp, ?_⟩
  · intro other member
    rcases List.mem_append.mp member with earlier | last
    · exact bounded other earlier
    · rwa [List.mem_singleton.mp last]
  · rw [List.reverse_append, List.reverse_singleton, List.singleton_append,
      Nat.ofDigits_cons]
    exact Nat.add_comm _ _

/-- Zeros in front of a numeral do not change what it denotes. -/
theorem Denotes.zeros
    {numeral : Bytes}
    {value : Nat}
    (positive : 0 < radix)
    (denotes : Denotes radix uppercase numeral value)
    (count : Nat) :
    Denotes radix uppercase
      (List.replicate count (ascii '0') ++ numeral) value := by
  obtain ⟨digits, bounded, rfl, rfl⟩ := denotes
  have zeroByte : ascii '0' = digitByte uppercase 0 := by
    cases uppercase <;> decide
  refine ⟨List.replicate count 0 ++ digits, ?_, by simp [zeroByte], ?_⟩
  · intro digit member
    rcases List.mem_append.mp member with zero | later
    · rwa [List.eq_of_mem_replicate zero]
    · exact bounded digit later
  · rw [List.reverse_append, List.reverse_replicate,
      Nat.ofDigits_append_replicate_zero]

/-- A numeral denotes less than its length allows. -/
theorem Denotes.lt_pow
    {numeral : Bytes}
    {value : Nat}
    (radixRange : 1 < radix)
    (denotes : Denotes radix uppercase numeral value) :
    value < radix ^ numeral.length := by
  obtain ⟨digits, bounded, rfl, rfl⟩ := denotes
  have reversedBounded : ∀ digit ∈ digits.reverse, digit < radix := by
    simpa using bounded
  have below := Nat.ofDigits_lt_base_pow_length radixRange reversedBounded
  simpa using below

/-- A numeral is written by repeated division. -/
theorem bytes_eq_if
    (radixRange : 1 < radix)
    (radixTable : radix ≤ 16)
    (value : Nat) :
    bytes radix uppercase value =
      if value < radix then
        [digitByte uppercase value]
      else
        bytes radix uppercase (value / radix) ++
          [digitByte uppercase (value % radix)] := by
  have lastDigit : value % radix < radix :=
    Nat.mod_lt value (by omega)
  rw [bytes, digits, Nat.toDigits_eq_if radixRange]
  by_cases oneDigit : value < radix
  · rw [if_pos oneDigit, if_pos oneDigit, List.map_singleton,
      ascii_digitChar uppercase (by omega)]
  · rw [if_neg oneDigit, if_neg oneDigit, List.map_append, List.map_singleton,
      ascii_digitChar uppercase (by omega)]
    rfl

/-- Zero alone is written as the digit zero. -/
theorem bytes_eq_zero_iff
    (radixRange : 1 < radix)
    (radixTable : radix ≤ 16)
    (value : Nat) :
    bytes radix uppercase value = [ascii '0'] ↔ value = 0 := by
  constructor
  · intro isZero
    rw [bytes_eq_if radixRange radixTable] at isZero
    split at isZero
    · rename_i oneDigit
      have below : value < 16 := by omega
      have sameByte : digitByte uppercase value = ascii '0' :=
        List.singleton_inj.mp isZero
      clear isZero oneDigit
      revert sameByte
      cases uppercase <;> interval_cases value <;> decide
    · have noOther :=
        (List.append_eq_singleton_iff.mp isZero).resolve_right (by simp)
      exact absurd noOther.1 (by simp [bytes, digits])
  · rintro rfl
    rw [bytes_eq_if radixRange radixTable, if_pos (by omega)]
    cases uppercase <;> decide

theorem denotes_bytes
    (radixRange : 1 < radix)
    (radixTable : radix ≤ 16)
    (value : Nat) :
    Denotes radix uppercase (bytes radix uppercase value) value := by
  induction value using Nat.strongRecOn with
  | _ value inductionHypothesis =>
      rw [bytes_eq_if radixRange radixTable]
      split
      · rename_i oneDigit
        simpa using denotes_nil.snoc oneDigit
      · rename_i moreDigits
        have smaller : value / radix < value :=
          Nat.div_lt_self (by omega) radixRange
        have lastDigit : value % radix < radix :=
          Nat.mod_lt value (by omega)
        have whole := (inductionHypothesis _ smaller).snoc lastDigit
        rwa [Nat.div_add_mod] at whole

/-- A numeral has no more digits than its number needs. -/
theorem length_bytes_le_iff
    {count value : Nat}
    (radixRange : 1 < radix)
    (positive : 0 < count) :
    (bytes radix uppercase value).length ≤ count ↔ value < radix ^ count := by
  rw [bytes, List.length_map, digits,
    Nat.length_toDigits_le_iff radixRange positive]

theorem isShortest_bytes
    (radixRange : 1 < radix)
    (radixTable : radix ≤ 16)
    (value : Nat) :
    IsShortest radix uppercase (bytes radix uppercase value) value where
  denotes := denotes_bytes radixRange radixTable value
  nonempty := by simp [bytes, digits]
  least := by
    intro other denotes nonempty
    rw [length_bytes_le_iff radixRange (List.length_pos_iff.mpr nonempty)]
    exact denotes.lt_pow radixRange

/-- The numeral of a positive number has a byte for each of its digits. -/
theorem length_bytes
    (radixRange : 1 < radix)
    (radixTable : radix ≤ 16)
    {value : Nat}
    (positive : 0 < value) :
    (bytes radix uppercase value).length = (Nat.digits radix value).length := by
  induction value using Nat.strongRecOn with
  | _ value inductionHypothesis =>
      rw [bytes_eq_if radixRange radixTable,
        Nat.digits_def' radixRange positive]
      by_cases oneDigit : value < radix
      · rw [if_pos oneDigit, Nat.div_eq_of_lt oneDigit]
        simp
      · have smaller : value / radix < value :=
          Nat.div_lt_self positive radixRange
        have stillPositive : 0 < value / radix :=
          Nat.div_pos (Nat.le_of_not_lt oneDigit) (by omega)
        rw [if_neg oneDigit, List.length_append,
          inductionHypothesis _ smaller stillPositive]
        simp

/-- Numerals of one length that denote the same number are the same. -/
theorem Denotes.eq_of_length_eq
    {first second : Bytes}
    {value : Nat}
    (radixRange : 1 < radix)
    (firstDenotes : Denotes radix uppercase first value)
    (secondDenotes : Denotes radix uppercase second value)
    (sameLength : first.length = second.length) :
    first = second := by
  obtain ⟨firstDigits, firstBounded, rfl, rfl⟩ := firstDenotes
  obtain ⟨secondDigits, secondBounded, rfl, sameValue⟩ := secondDenotes
  have sameDigits :
      firstDigits.reverse = secondDigits.reverse :=
    Nat.ofDigits_inj_of_len_eq radixRange
      (by simpa using sameLength)
      (by simpa using firstBounded)
      (by simpa using secondBounded)
      sameValue.symm
  rw [List.reverse_injective sameDigits]

/-- A number has one shortest numeral only. -/
theorem IsShortest.unique
    {first second : Bytes}
    {value : Nat}
    (radixRange : 1 < radix)
    (firstShortest : IsShortest radix uppercase first value)
    (secondShortest : IsShortest radix uppercase second value) :
    first = second := by
  have sameLength : first.length = second.length :=
    Nat.le_antisymm
      (firstShortest.least second
        secondShortest.denotes secondShortest.nonempty)
      (secondShortest.least first
        firstShortest.denotes firstShortest.nonempty)
  exact
    firstShortest.denotes.eq_of_length_eq radixRange
      secondShortest.denotes sameLength

/-- A text that no digit stands in front of. -/
def NoDigitFirst
    (text : List Char) : Prop :=
  ∀ character ∈ text.head?, character.isDigit = false

/-- A decimal numeral is all of the digits in front of a text that starts with none. -/
theorem span_decimal_append
    (value : Nat)
    {rest : List Char}
    (ends : NoDigitFirst rest) :
    (Nat.toDigits 10 value ++ rest).takeWhile Char.isDigit =
        Nat.toDigits 10 value ∧
      (Nat.toDigits 10 value ++ rest).dropWhile Char.isDigit = rest := by
  have digits :
      ∀ character ∈ Nat.toDigits 10 value, character.isDigit = true :=
    fun character => Nat.isDigit_of_mem_toDigits (by decide) (by decide)
  exact ⟨takeWhile_run_append digits ends, dropWhile_run_append digits ends⟩

/-- A decimal numeral starts with a zero only if it is nothing else. -/
theorem head?_decimal_ne_zero
    {value : Nat}
    (positive : 0 < value) :
    (Nat.toDigits 10 value).head? ≠ some '0' := by
  induction value using Nat.strongRecOn with
  | _ value inductionHypothesis =>
      rw [Nat.toDigits_eq_if (by decide)]
      split
      · interval_cases value <;> decide
      · have front := inductionHypothesis (value / 10) (by omega) (by omega)
        rwa [List.head?_append_of_ne_nil _ Nat.toDigits_ne_nil]

end Numeral

end LibcConformance
