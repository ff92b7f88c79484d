import Mathlib.Order.Basic
import Mathlib.Tactic.IntervalCases
import LibcConformance.Numeral
import LibcConformance.Proofs.CharArray.Terminated

namespace LibcConformance

/-!
# Decimal fields

A number is written with zeros in front up to the width of its field.  Its digits
denote it, however many they are; and as long as all numbers fit the width, texts
of a field are in the order of the numbers, byte by byte.
-/

namespace Numeral

section Reading

variable
  (width value : Nat)

theorem toList_padded :
    (padded width value).toList =
      List.replicate (width - (Nat.toDigits 10 value).length) '0' ++
        Nat.toDigits 10 value := by
  rw [padded, String.toList_ofList, digits]

theorem isDigit_of_mem_padded :
    ∀ character ∈ (padded width value).toList, character.isDigit = true := by
  intro character member
  rw [toList_padded] at member
  rcases List.mem_append.mp member with zero | digit
  · rw [List.eq_of_mem_replicate zero]
    rfl
  · exact Nat.isDigit_of_mem_toDigits (by decide) (by decide) digit

theorem padded_ne_nil :
    (padded width value).toList ≠ [] := by
  rw [toList_padded]
  exact List.append_ne_nil_of_right_ne_nil _ Nat.toDigits_ne_nil

/-- The digits of a field denote the number that was written into it. -/
theorem ofDigitChars_padded :
    Nat.ofDigitChars 10 (padded width value).toList 0 = value := by
  rw [toList_padded, Nat.ofDigitChars_append, Nat.ofDigitChars_replicate_zero, Nat.mul_zero,
    Nat.ofDigitChars_toDigits (by decide) (by decide)]

end Reading

/-- The digits of a number in a field of a width, the last ones if there are more. -/
def fieldDigits : Nat → Nat → List Char
  | 0, _ => []
  | width + 1, value =>
      fieldDigits width (value / 10) ++ [Nat.digitChar (value % 10)]

theorem length_fieldDigits
    (width value : Nat) :
    (fieldDigits width value).length = width := by
  induction width generalizing value with
  | zero =>
      rfl
  | succ width inductionHypothesis =>
      rw [fieldDigits, List.length_append, inductionHypothesis, List.length_singleton]

theorem fieldDigits_zero
    (width : Nat) :
    fieldDigits width 0 = List.replicate width '0' := by
  induction width with
  | zero =>
      rfl
  | succ width inductionHypothesis =>
      rw [fieldDigits, inductionHypothesis, List.replicate_succ']
      rfl

/-- A number that fits its field fills it. -/
theorem toList_padded_eq_fieldDigits
    {width value : Nat}
    (someWidth : 0 < width)
    (fits : value < 10 ^ width) :
    (padded width value).toList = fieldDigits width value := by
  induction width generalizing value with
  | zero =>
      exact absurd someWidth (Nat.lt_irrefl 0)
  | succ width inductionHypothesis =>
      rw [toList_padded, Nat.toDigits_eq_if (by decide), fieldDigits]
      by_cases oneDigit : value < 10
      · rw [if_pos oneDigit, Nat.div_eq_of_lt oneDigit, Nat.mod_eq_of_lt oneDigit,
          fieldDigits_zero, List.length_singleton, Nat.add_sub_cancel]
      · have frontFits : value / 10 < 10 ^ width := by
          rw [Nat.div_lt_iff_lt_mul (by decide), ← Nat.pow_succ]
          exact fits
        have widthLeft : 0 < width := by
          by_contra none
          rw [Nat.eq_zero_of_not_pos none] at frontFits
          omega
        rw [if_neg oneDigit, List.length_append, List.length_singleton, Nat.add_sub_add_right,
          ← List.append_assoc, ← toList_padded, inductionHypothesis widthLeft frontFits]

end Numeral

/-- Numbers made of a front and a last part are compared in front first. -/
theorem compare_mul_add
    {base firstLast secondLast : Nat}
    (firstBelow : firstLast < base)
    (secondBelow : secondLast < base)
    (firstFront secondFront : Nat) :
    compare (base * firstFront + firstLast) (base * secondFront + secondLast) =
      (compare firstFront secondFront).then (compare firstLast secondLast) := by
  rcases Nat.lt_trichotomy firstFront secondFront with before | rfl | behind
  · have wholeFront : base * firstFront + base ≤ base * secondFront := by
      rw [← Nat.mul_succ]
      exact Nat.mul_le_mul_left base before
    rw [Nat.compare_eq_lt.mpr before, Nat.compare_eq_lt.mpr (by omega)]
    rfl
  · rw [Nat.compare_eq_eq.mpr rfl, Ordering.then]
    simp only [Nat.compare_eq_ite_lt, Nat.add_lt_add_iff_left]
  · have wholeFront : base * secondFront + base ≤ base * firstFront := by
      rw [← Nat.mul_succ]
      exact Nat.mul_le_mul_left base behind
    rw [Nat.compare_eq_gt.mpr behind, Nat.compare_eq_gt.mpr (by omega)]
    rfl

/-- Numbers are compared by their quotients first, then by their remainders. -/
theorem compare_div_mod
    {base : Nat}
    (positive : 0 < base)
    (first second : Nat) :
    compare first second =
      (compare (first / base) (second / base)).then
        (compare (first % base) (second % base)) := by
  rw [← compare_mul_add (Nat.mod_lt first positive) (Nat.mod_lt second positive),
    Nat.div_add_mod, Nat.div_add_mod]

namespace Bytes

/-- Texts in two parts are compared in their fronts first, if these are equally long. -/
theorem order_append
    {firstFront secondFront : Bytes}
    (sameLength : firstFront.length = secondFront.length)
    (firstBack secondBack : Bytes) :
    order (firstFront ++ firstBack) (secondFront ++ secondBack) =
      (order firstFront secondFront).then (order firstBack secondBack) := by
  induction firstFront generalizing secondFront with
  | nil =>
      rw [List.length_eq_zero_iff.mp sameLength.symm]
      rfl
  | cons byte rest inductionHypothesis =>
      cases secondFront with
      | nil =>
          exact absurd sameLength (by simp)
      | cons otherByte otherRest =>
          rw [List.cons_append, List.cons_append, order, order,
            inductionHypothesis (Nat.succ.inj sameLength), Ordering.then_assoc]

/-- The bytes of characters. -/
def ofCharacters
    (characters : List Char) : Bytes :=
  characters.flatMap String.utf8EncodeChar

/-- Digits are encoded in the order of their values. -/
theorem order_digitChar
    {first second : Nat}
    (firstDigit : first < 10)
    (secondDigit : second < 10) :
    order (ofCharacters [Nat.digitChar first]) (ofCharacters [Nat.digitChar second]) =
      compare first second := by
  interval_cases first <;> interval_cases second <;> rfl

theorem length_ofCharacters_fieldDigits
    (width value : Nat) :
    (ofCharacters (Numeral.fieldDigits width value)).length = width := by
  induction width generalizing value with
  | zero =>
      rfl
  | succ width inductionHypothesis =>
      have oneByte :
          ∀ digit < 10, (String.utf8EncodeChar (Nat.digitChar digit)).length = 1 := by
        decide
      rw [Numeral.fieldDigits, ofCharacters, List.flatMap_append, ← ofCharacters,
        List.length_append, inductionHypothesis, List.flatMap_singleton,
        oneByte _ (Nat.mod_lt value (by decide))]

/-- Fields of one width are in the order of their numbers. -/
theorem order_fieldDigits
    {width first second : Nat}
    (firstFits : first < 10 ^ width)
    (secondFits : second < 10 ^ width) :
    order (ofCharacters (Numeral.fieldDigits width first))
        (ofCharacters (Numeral.fieldDigits width second)) =
      compare first second := by
  induction width generalizing first second with
  | zero =>
      rw [Nat.lt_one_iff.mp firstFits, Nat.lt_one_iff.mp secondFits]
      rfl
  | succ width inductionHypothesis =>
      rw [Nat.pow_succ] at firstFits secondFits
      have firstDigit : first % 10 < 10 := Nat.mod_lt first (by decide)
      have secondDigit : second % 10 < 10 := Nat.mod_lt second (by decide)
      have fronts :=
        inductionHypothesis
          (Nat.div_lt_of_lt_mul (Nat.mul_comm _ 10 ▸ firstFits))
          (Nat.div_lt_of_lt_mul (Nat.mul_comm _ 10 ▸ secondFits))
      rw [compare_div_mod (by decide : 0 < 10), ← fronts,
        ← order_digitChar firstDigit secondDigit,
        ← order_append (by simp only [length_ofCharacters_fieldDigits])]
      simp only [Numeral.fieldDigits, ofCharacters, List.flatMap_append]

/-- A field decides the order of two texts before what is behind it does. -/
theorem order_field
    {width first second : Nat}
    (firstFits : first < 10 ^ width)
    (secondFits : second < 10 ^ width)
    (separator : Char)
    (firstRest secondRest : List Char) :
    order
        (ofCharacters (Numeral.fieldDigits width first ++ separator :: firstRest))
        (ofCharacters (Numeral.fieldDigits width second ++ separator :: secondRest)) =
      (compare first second).then
        (order (ofCharacters firstRest) (ofCharacters secondRest)) := by
  have sameLength :
      (ofCharacters (Numeral.fieldDigits width first)).length =
        (ofCharacters (Numeral.fieldDigits width second)).length := by
    rw [length_ofCharacters_fieldDigits, length_ofCharacters_fieldDigits]
  simp only [ofCharacters, List.flatMap_append, List.flatMap_cons] at sameLength ⊢
  rw [order_append sameLength, ← ofCharacters, ← ofCharacters,
    order_fieldDigits firstFits secondFits, order_append rfl, (order_eq_iff _ _).mpr rfl]
  rfl

end Bytes

end LibcConformance
