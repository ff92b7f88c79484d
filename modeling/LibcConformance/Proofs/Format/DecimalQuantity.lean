import LibcConformance.Proofs.Format.Spelling
import LibcConformance.Proofs.Numeral

namespace LibcConformance

/-!
# Numbers as quantities of a directive

The decimal numeral of a number is a quantity that asks for that number.  It is
also a width, unless the number is zero: its numeral is a flag there.
-/

namespace Format

theorem isDigit_digitByte
    {digit : Nat}
    (below : digit < 10) :
    isDigit (Numeral.digitByte false digit) = true ∧
      (Numeral.digitByte false digit).toNat - (ascii '0').toNat = digit := by
  interval_cases digit <;> decide

/-- A decimal numeral is a run of digits that stands for its number. -/
theorem decimal_run
    (value : Nat) :
    (∀ byte ∈ Numeral.bytes 10 false value, isDigit byte = true) ∧
      runValue (Numeral.bytes 10 false value) = value := by
  have denotes :
      Numeral.Denotes 10 false (Numeral.bytes 10 false value) value :=
    Numeral.denotes_bytes (by decide) (by decide) value
  obtain ⟨digits, bounded, isNumeral, denoted⟩ := denotes
  rw [isNumeral]
  refine ⟨?_, ?_⟩
  · intro byte member
    obtain ⟨digit, inDigits, rfl⟩ := List.mem_map.mp member
    exact (isDigit_digitByte (bounded digit inDigits)).1
  · have sameDigits :
        digits.map (fun digit =>
          (Numeral.digitByte false digit).toNat - (ascii '0').toNat) =
            digits := by
      conv_rhs => rw [← List.map_id digits]
      apply List.map_congr_left
      intro digit inDigits
      exact (isDigit_digitByte (bounded digit inDigits)).2
    rw [runValue, ← List.map_reverse, List.map_map, ← denoted]
    congr 1
    rw [List.map_reverse]
    exact congrArg List.reverse sameDigits

/-- A positive number is written without a zero in front. -/
theorem decimal_first
    {value : Nat}
    (positive : 0 < value) :
    ∃ first rest,
      Numeral.bytes 10 false value = first :: rest ∧ first ≠ ascii '0' := by
  induction value using Nat.strongRecOn with
  | _ value inductionHypothesis =>
      rw [Numeral.bytes_eq_if (by decide) (by decide)]
      by_cases oneDigit : value < 10
      · rw [if_pos oneDigit]
        refine ⟨_, [], rfl, ?_⟩
        interval_cases value <;> decide
      · rw [if_neg oneDigit]
        obtain ⟨first, rest, shape, notZero⟩ :=
          inductionHypothesis (value / 10) (by omega) (by omega)
        rw [shape]
        exact ⟨first, _, rfl, notZero⟩

namespace Quantity

/-- A number written in decimal. -/
def decimal (value : Nat) : Quantity :=
  .number (Numeral.bytes 10 false value) (decimal_run value).1

theorem amount_decimal
    {value : Nat}
    (fits : value < 2 ^ 64) :
    (decimal value).amount = .fixed (UInt64.ofNat value) := by
  rw [decimal, amount, (decimal_run value).2,
    Nat.min_eq_left (Nat.le_sub_one_of_lt fits)]

theorem isWidth_decimal
    {value : Nat}
    (positive : 0 < value) :
    (decimal value).IsWidth :=
  decimal_first positive

end Quantity

end Format

end LibcConformance
