import Mathlib.Data.List.TakeWhile
import LibcConformance.CharArray.Terminated

namespace LibcConformance

/-!
# Strings at the front of arrays

What stands behind the first NUL of an array is no part of its string.  The
comparing routines see the strings only, and the sign of their answer is the
lexicographic order of what they see, with bytes taken as unsigned numbers.
-/

namespace Bytes

theorem zero_notMem_cString
    (bytes : Bytes) :
    0 ∉ bytes.cString := by
  intro member
  have notNul := List.mem_takeWhile_imp member
  simp at notNul

theorem cString_eq_self
    {bytes : Bytes}
    (noNul : 0 ∉ bytes) :
    bytes.cString = bytes := by
  rw [cString, List.takeWhile_eq_self_iff]
  intro byte member
  have notNul : byte ≠ 0 := fun isNul => noNul (isNul ▸ member)
  simpa using notNul

theorem cString_cString
    (bytes : Bytes) :
    bytes.cString.cString = bytes.cString :=
  cString_eq_self (zero_notMem_cString bytes)

theorem length_cString_le
    (bytes : Bytes) :
    bytes.cString.length ≤ bytes.length :=
  (List.takeWhile_prefix _).length_le

theorem cString_cons_of_ne
    {byte : UInt8}
    (notNul : byte ≠ 0)
    (rest : Bytes) :
    Bytes.cString (byte :: rest) = byte :: rest.cString := by
  simp [cString, notNul]

/-- A NUL hides what stands behind it. -/
theorem cString_append_nul
    (bytes rest : Bytes) :
    (bytes ++ 0 :: rest).cString = bytes.cString := by
  induction bytes with
  | nil => rfl
  | cons byte bytes inductionHypothesis =>
      by_cases isNul : byte = 0
      · subst isNul
        rfl
      · rw [List.cons_append, cString_cons_of_ne isNul, inductionHypothesis,
          cString_cons_of_ne isNul]

theorem cString_terminated
    (bytes : Bytes) :
    bytes.terminated.cString = bytes.cString :=
  cString_append_nul bytes []

/-- A terminated array is a string, its NUL and whatever follows. -/
theorem exists_terminated_eq
    (bytes : Bytes) :
    ∃ rest, bytes.terminated = bytes.cString ++ 0 :: rest := by
  induction bytes with
  | nil => exact ⟨[], rfl⟩
  | cons byte bytes inductionHypothesis =>
      by_cases isNul : byte = 0
      · subst isNul
        exact ⟨terminated bytes, rfl⟩
      · obtain ⟨rest, shape⟩ := inductionHypothesis
        refine ⟨rest, ?_⟩
        rw [cString_cons_of_ne isNul, List.cons_append, ← shape]
        rfl

/-- The lexicographic order, by the relations of the library. -/
theorem order_eq_compareOfLessAndEq
    (left right : Bytes) :
    order left right = compareOfLessAndEq left right := by
  induction left generalizing right with
  | nil =>
      cases right with
      | nil => rfl
      | cons byte rest => rfl
  | cons first lefts inductionHypothesis =>
      cases right with
      | nil => rfl
      | cons second rights =>
          have compared :
              compare first second =
                if first < second then
                  .lt
                else if first = second then
                  .eq
                else
                  .gt :=
            rfl
          simp only [order, inductionHypothesis, compared, compareOfLessAndEq,
            List.cons_lt_cons_iff, List.cons.injEq]
          by_cases less : first < second
          · simp [less]
          · by_cases same : first = second
            · simp [same]
            · simp [less, same]

theorem order_eq_iff
    (left right : Bytes) :
    order left right = .eq ↔ left = right := by
  rw [order_eq_compareOfLessAndEq]
  exact compareOfLessAndEq_eq_eq List.le_refl List.not_le

end Bytes

namespace CharArray

theorem compare_sub_zero
    (left right : UInt8) :
    compare ((left.toNat : Int) - right.toNat) 0 = compare left right := by
  change compareOfLessAndEq _ _ = compareOfLessAndEq _ _
  have sameLess : (left.toNat : Int) - right.toNat < 0 ↔ left < right := by
    rw [UInt8.lt_iff_toNat_lt]
    omega
  have sameEqual : (left.toNat : Int) - right.toNat = 0 ↔ left = right := by
    rw [← UInt8.toNat_inj]
    omega
  simp only [compareOfLessAndEq, sameLess, sameEqual]

/-- An ended string is ordered against another one as a NUL against its byte. -/
theorem order_nil_cString
    (byte : UInt8)
    (rest : Bytes)
    (count : Nat) :
    Bytes.order [] ((Bytes.cString (byte :: rest)).take (count + 1)) =
      compare 0 byte := by
  by_cases isNul : byte = 0
  · subst isNul
    rfl
  · have compared : compare 0 byte = .lt := by
      change compareOfLessAndEq 0 byte = .lt
      rw [compareOfLessAndEq, if_pos (UInt8.pos_iff_ne_zero.mpr isNul)]
    rw [Bytes.cString_cons_of_ne isNul, compared]
    rfl

theorem order_cString_nil
    (byte : UInt8)
    (rest : Bytes)
    (count : Nat) :
    Bytes.order ((Bytes.cString (byte :: rest)).take (count + 1)) [] =
      compare byte 0 := by
  by_cases isNul : byte = 0
  · subst isNul
    rfl
  · have compared : compare byte 0 = .gt := by
      change compareOfLessAndEq byte 0 = .gt
      rw [compareOfLessAndEq, if_neg UInt8.not_lt_zero, if_neg isNul]
    rw [Bytes.cString_cons_of_ne isNul, compared]
    rfl

/-- The bounded comparison has the sign of the order of the strings cut to the bound. -/
theorem compare_strncmp
    (left right : Bytes)
    (count : Nat) :
    compare (strncmp left right count) 0 =
      Bytes.order (left.cString.take count) (right.cString.take count) := by
  fun_induction strncmp left right count with
  | case1 left right =>
      rfl
  | case2 count =>
      rfl
  | case3 right rights count =>
      have difference : -(right.toNat : Int) = (0 : UInt8).toNat - right.toNat := by
        simp
      rw [difference, compare_sub_zero]
      exact (order_nil_cString right rights count).symm
  | case4 left lefts count =>
      have difference : (left.toNat : Int) = left.toNat - (0 : UInt8).toNat := by
        simp
      rw [difference, compare_sub_zero]
      exact (order_cString_nil left lefts count).symm
  | case5 lefts rights count =>
      rfl
  | case6 lefts right rights count notNul inductionHypothesis =>
      rw [inductionHypothesis, Bytes.cString_cons_of_ne notNul,
        Bytes.cString_cons_of_ne notNul]
      simp [Bytes.order]
  | case7 left lefts right rights count differ =>
      -- One of the two bytes may be the NUL that ends its string.
      rw [compare_sub_zero]
      by_cases leftNul : left = 0
      · subst leftNul
        exact (order_nil_cString right rights count).symm
      · by_cases rightNul : right = 0
        · subst rightNul
          exact (order_cString_nil left lefts count).symm
        · rw [Bytes.cString_cons_of_ne leftNul, Bytes.cString_cons_of_ne rightNul]
          have notEqual : compare left right ≠ .eq := by
            simpa using differ
          simp only [List.take_succ_cons, Bytes.order]
          cases compared : compare left right with
          | lt => rfl
          | eq => exact absurd compared notEqual
          | gt => rfl

/-- A bound beyond the end of a string does not show. -/
theorem strncmp_succ_eq_strcmp
    (left right : Bytes)
    {count : Nat}
    (beyond : left.length ≤ count) :
    strncmp left right (count + 1) = strcmp left right := by
  fun_induction strcmp left right generalizing count with
  | case1 => rfl
  | case2 right rights => rfl
  | case3 left lefts => rfl
  | case4 lefts rights => rfl
  | case5 lefts right rights notNul inductionHypothesis =>
      cases count with
      | zero => cases beyond
      | succ count =>
          rw [strncmp, if_pos rfl, if_neg notNul]
          exact inductionHypothesis (Nat.le_of_succ_le_succ beyond)
  | case6 left lefts right rights differ =>
      rw [strncmp, if_neg differ]

/-- The comparison has the sign of the order of the strings. -/
theorem compare_strcmp
    (left right : Bytes) :
    compare (strcmp left right) 0 =
      Bytes.order left.cString right.cString := by
  let count := max left.length right.length
  have leftShort : left.cString.length ≤ count + 1 :=
    (Bytes.length_cString_le left).trans (by omega)
  have rightShort : right.cString.length ≤ count + 1 :=
    (Bytes.length_cString_le right).trans (by omega)
  have compared := compare_strncmp left right (count + 1)
  rwa [strncmp_succ_eq_strcmp left right (by omega),
    List.take_of_length_le leftShort,
    List.take_of_length_le rightShort] at compared

/-- Two arrays compare equal exactly if they hold the same string. -/
theorem strcmp_eq_zero_iff
    (left right : Bytes) :
    strcmp left right = 0 ↔ left.cString = right.cString := by
  rw [← Bytes.order_eq_iff, ← compare_strcmp, Int.compare_eq_eq]

/-- Under a bound two arrays compare equal exactly if their strings agree up to it. -/
theorem strncmp_eq_zero_iff
    (left right : Bytes)
    (count : Nat) :
    strncmp left right count = 0 ↔
      left.cString.take count = right.cString.take count := by
  rw [← Bytes.order_eq_iff, ← compare_strncmp, Int.compare_eq_eq]

end CharArray

end LibcConformance
