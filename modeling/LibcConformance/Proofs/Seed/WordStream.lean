import Mathlib.Data.FinEnum
import Mathlib.Data.Nat.Prime.Basic
import Mathlib.Data.Int.ModEq
import LibcConformance.Numeral
import LibcConformance.Seed.SplitMix

namespace LibcConformance

/-!
# Words drawn from seeds

The state of a generator goes round all words by an odd step, and its bits are
mixed by operations that can be undone.  So a draw takes each word from exactly
one seed, and the words that one seed draws differ until the states start over.
-/

namespace SplitMix

/-- A word with its own upper bits added to the lower ones, without carry. -/
def xorShift
    (amount word : UInt64) : UInt64 :=
  word ^^^ (word >>> amount)

/-- Bits that are their own shift to the right are none. -/
theorem eq_zero_of_eq_shiftRight
    {amount bits : UInt64}
    (moves : 0 < amount.toNat % 64)
    (fixed : bits = bits >>> amount) :
    bits = 0 := by
  have halved : bits.toNat = bits.toNat / 2 ^ (amount.toNat % 64) := by
    rw [← Nat.shiftRight_eq_div_pow, ← UInt64.toNat_shiftRight, ← fixed]
  by_contra someBit
  have positive : 0 < bits.toNat :=
    Nat.pos_of_ne_zero fun none => someBit (UInt64.toNat_inj.mp none)
  have smaller :
      bits.toNat / 2 ^ (amount.toNat % 64) < bits.toNat :=
    Nat.div_lt_self positive (Nat.one_lt_two_pow (by omega))
  omega

theorem xorShift_injective
    (amount : UInt64)
    (moves : 0 < amount.toNat % 64) :
    Function.Injective (xorShift amount) := by
  intro first second same
  -- Mixing respects `^^^`, so what has to vanish is the difference of the two words.
  have fixed :
      first ^^^ second = (first ^^^ second) >>> amount := by
    apply UInt64.xor_eq_zero_iff.mp
    calc
      (first ^^^ second) ^^^ ((first ^^^ second) >>> amount) =
          xorShift amount first ^^^ xorShift amount second := by
        rw [UInt64.shiftRight_xor, xorShift, xorShift]
        ac_rfl
      _ = 0 := UInt64.xor_eq_zero_iff.mpr same
  exact UInt64.xor_eq_zero_iff.mp (eq_zero_of_eq_shiftRight moves fixed)

/-- An odd factor can be cancelled. -/
theorem mul_right_injective_of_odd
    (factor : UInt64)
    (odd : factor.toNat % 2 = 1) :
    Function.Injective fun word : UInt64 => word * factor := by
  intro first second same
  have coprime : Nat.gcd (2 ^ 64) factor.toNat = 1 :=
    Nat.Coprime.pow_left 64 (Nat.coprime_two_left.mpr (Nat.odd_iff.mpr odd))
  have sameProducts :
      first.toNat * factor.toNat ≡
        second.toNat * factor.toNat [MOD 2 ^ 64] := by
    rw [Nat.ModEq, ← UInt64.toNat_mul, ← UInt64.toNat_mul]
    exact congrArg UInt64.toNat same
  have sameWords := sameProducts.cancel_right_of_coprime coprime
  rw [Nat.ModEq, Nat.mod_eq_of_lt first.toNat_lt,
    Nat.mod_eq_of_lt second.toNat_lt] at sameWords
  exact UInt64.toNat_inj.mp sameWords

theorem mix_injective :
    Function.Injective mix := by
  have firstFactor :=
    mul_right_injective_of_odd 0xbf58476d1ce4e5b9 (by decide)
  have secondFactor :=
    mul_right_injective_of_odd 0x94d049bb133111eb (by decide)
  exact
    (xorShift_injective 31 (by decide)).comp
      (secondFactor.comp
        ((xorShift_injective 27 (by decide)).comp
          (firstFactor.comp (xorShift_injective 30 (by decide)))))

/-- The generator after a number of draws. -/
def afterDraws
    (count : Nat)
    (generator : SplitMix) : SplitMix :=
  (fun current => current.next.2)^[count] generator

theorem afterDraws_zero
    (generator : SplitMix) :
    afterDraws 0 generator = generator :=
  rfl

theorem afterDraws_succ
    (count : Nat)
    (generator : SplitMix) :
    afterDraws (count + 1) generator = afterDraws count generator.next.2 :=
  Function.iterate_succ_apply _ count generator

/-- Draws in a row are the first ones and then, from what these leave, the others. -/
theorem afterDraws_add
    (first second : Nat)
    (generator : SplitMix) :
    afterDraws (first + second) generator =
      afterDraws second (afterDraws first generator) := by
  rw [Nat.add_comm]
  exact Function.iterate_add_apply _ second first generator

/-- The word that the generator of a seed draws after a number of others. -/
def wordAt
    (index : Nat)
    (seed : UInt64) : UInt64 :=
  (afterDraws index ⟨seed⟩).next.1

/-- A draw takes the state one step further. -/
theorem state_next
    (generator : SplitMix) :
    generator.next.2.state = generator.state + increment :=
  rfl

/-- Draws take the state as many steps further. -/
theorem state_afterDraws
    (count : Nat)
    (generator : SplitMix) :
    (afterDraws count generator).state =
      generator.state + UInt64.ofNat count * increment := by
  induction count with
  | zero =>
      simp [afterDraws]
  | succ count inductionHypothesis =>
      rw [afterDraws, Function.iterate_succ_apply', state_next, ← afterDraws,
        inductionHypothesis, UInt64.ofNat_add, UInt64.add_mul, UInt64.add_assoc]
      simp

theorem wordAt_eq_mix
    (index : Nat)
    (seed : UInt64) :
    wordAt index seed =
      mix (seed + UInt64.ofNat index * increment + increment) := by
  rw [wordAt, ← state_afterDraws index ⟨seed⟩]
  rfl

theorem wordAt_injective
    (index : Nat) :
    Function.Injective (wordAt index) := by
  intro first second same
  rw [wordAt_eq_mix, wordAt_eq_mix] at same
  have sameStates :=
    (UInt64.add_left_inj increment).mp (mix_injective same)
  exact (UInt64.add_left_inj _).mp sameStates

/-- The words of one seed differ until the places in its stream start over as words. -/
theorem wordAt_injOn
    (seed : UInt64) :
    Set.InjOn (wordAt · seed) (Set.Iio wordSize) := by
  intro first firstBelow second secondBelow same
  simp only [wordAt_eq_mix] at same
  have sameStates :=
    (UInt64.add_left_inj increment).mp (mix_injective same)
  have sameSteps :
      UInt64.ofNat first * increment = UInt64.ofNat second * increment :=
    (UInt64.add_right_inj seed).mp sameStates
  have oddStep : increment.toNat % 2 = 1 := by
    decide
  have samePlaces :=
    congrArg UInt64.toNat (mul_right_injective_of_odd increment oddStep sameSteps)
  rw [UInt64.toNat_ofNat', UInt64.toNat_ofNat'] at samePlaces
  exact Nat.ModEq.eq_of_lt_of_lt samePlaces firstBelow secondBelow

/--
Each draw takes every word from exactly one seed, so two seeds differ in all
draws; and the first `wordSize` words of a seed are distinct.
-/
theorem drawnWords_differ :
    (∀ index, Function.Bijective (wordAt index)) ∧
      (∀ first second, first ≠ second →
        ∀ index, wordAt index first ≠ wordAt index second) ∧
        ∀ seed, Set.InjOn (wordAt · seed) (Set.Iio wordSize) := by
  refine ⟨fun index => ?_, fun first second differ index => ?_, wordAt_injOn⟩
  · exact Finite.injective_iff_bijective.mp (wordAt_injective index)
  · exact (wordAt_injective index).ne differ

/-- Neighbouring seeds share no word at the same place. -/
theorem drawnWords_differ_neighbours :
    (1 : UInt64) ≠ 2 ∧ ∀ index, wordAt index 1 ≠ wordAt index 2 :=
  ⟨by decide, drawnWords_differ.2.1 1 2 (by decide)⟩

end SplitMix

end LibcConformance
