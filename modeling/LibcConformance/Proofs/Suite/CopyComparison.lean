import LibcConformance.Proofs.Suite.DerivedExpectation

namespace LibcConformance

/-!
# Copies and what they were made of

A copy of a string ends, is cut or is padded by the rule of the call that makes
it, and a comparison ends by another.  Whatever an array held before and
whatever follows the NULs of the source, a copy that is not refused compares
equal to its source, and a bounded copy fills its part of the array with what
the tests expect there.
-/

namespace Bytes

theorem take_cString
    (bytes : Bytes)
    (count : Nat) :
    bytes.cString.take count = Bytes.cString (bytes.take count) :=
  List.take_takeWhile

end Bytes

namespace CharArray

variable
  {destination source : Bytes}
  {count : Nat}

/-- As far as a bounded copy goes, the array then holds the string of the source. -/
theorem strncmp_strncpy
    (source : Bytes)
    (within : count ≤ destination.length) :
    strncmp (strncpy destination source count).array source count = 0 := by
  rw [strncmp_eq_zero_iff, Bytes.take_cString, take_strncpy source within,
    Bytes.cString_zeroPadded, ← Bytes.take_cString, Bytes.cString_cString]

/-- A string that is copied is the one that the array then holds. -/
theorem cString_strcpy
    (accepted : (strcpy destination source).answer ≠ none) :
    (strcpy destination source).array.cString = source.cString := by
  simp only [strcpy] at accepted ⊢
  split at accepted
  · exact absurd rfl accepted
  · rename_i fits
    rw [if_neg fits, Bytes.cString_append_nul, Bytes.cString_cString]

/-- A string that is appended follows the one that the array held. -/
theorem cString_strcat
    (accepted : (strcat destination source).answer ≠ none) :
    (strcat destination source).array.cString =
      destination.cString ++ source.cString := by
  have noNul : 0 ∉ destination.cString ++ source.cString := by
    rw [List.mem_append, not_or]
    exact
      ⟨Bytes.zero_notMem_cString destination, Bytes.zero_notMem_cString source⟩
  simp only [strcat] at accepted ⊢
  split at accepted
  · exact absurd rfl accepted
  · rename_i fits
    rw [if_neg fits, Bytes.cString_append_nul, Bytes.cString_eq_self noNul]

/-- The bytes that a copy counts are the first ones of the source and of the array. -/
theorem memcmp_memcpy
    (destination source : Bytes)
    (count : Nat) :
    memcmp (memcpy destination source count).array source
        (memcpy destination source count).answer = .eq := by
  let extent := min count (min destination.length source.length)
  have reaches : extent ≤ source.length := by
    omega
  have compared :
      min extent
          (min (memcpy destination source count).array.length source.length) =
        extent := by
    rw [length_memcpy]
    omega
  have copied :
      (memcpy destination source count).array.take extent =
        source.take extent :=
    List.take_left' (by rw [List.length_take, Nat.min_eq_left reaches])
  change
    Bytes.order
      ((memcpy destination source count).array.take (min extent _))
      (source.take (min extent _)) = .eq
  rw [compared, copied, Bytes.order_eq_iff]

end CharArray

namespace Suite

open CharArray

/--
What a test expects of a bounded copy of a string is what the copy leaves in the
part of the array that it is for, with and without the terminator of the source.
Whatever a copy is made of, it compares equal to it: a bounded one up to its
bound, a string and bytes as far as they were copied, and an appended string
together with the one that it follows.
-/
theorem copies_compareEqual
    (array source : Bytes) :
    (∀ limit ≤ array.length,
        0 ∉ source →
          (strncpy array source limit).array.take limit =
              boundedCopy source limit ∧
            (strncpy array source.terminated limit).array.take limit =
              boundedCopy source limit) ∧
      (∀ count ≤ array.length,
        strncmp (strncpy array source count).array source count = 0) ∧
      ((strcpy array source).answer ≠ none →
        strcmp (strcpy array source).array source = 0) ∧
      (∀ count,
        let copied := memcpy array source count
        memcmp copied.array source copied.answer = .eq) ∧
      ((strcat array source).answer ≠ none →
        strcmp (strcat array source).array
            (array.cString ++ source.cString) = 0) := by
  refine
    ⟨fun limit within noNul => ?_, fun count => strncmp_strncpy source,
      fun accepted => ?_, memcmp_memcpy array source, fun accepted => ?_⟩
  · rw [take_strncpy source within, take_strncpy source.terminated within,
      Bytes.cString_terminated, Bytes.cString_eq_self noNul,
      zeroPadded_take_eq_boundedCopy]
    exact ⟨rfl, rfl⟩
  · rw [strcmp_eq_zero_iff, cString_strcpy accepted]
  · have held := Bytes.cString_cString (strcat array source).array
    rw [strcmp_eq_zero_iff, ← cString_strcat accepted, held]

/--
A string of two bytes is cut by a bound of two, which leaves it unterminated, and
padded by one of three; and of a source only the string in front of its NUL is
copied or appended.
-/
theorem copies_compareEqual_withoutTerminator :
    let array : Bytes := [7, 0, 7, 7]
    let text : Bytes := [97, 98]
    let source : Bytes := [97, 0, 98]
    (strncpy array text 2).array.take 2 = boundedCopy text 2 ∧
      (strncpy array text.terminated 3).array.take 3 = boundedCopy text 3 ∧
      strncmp (strncpy array source 4).array source 4 = 0 ∧
      (strcpy array source).answer = some 2 ∧
      strcmp (strcpy array source).array source = 0 ∧
      memcmp (memcpy array source 9).array source 3 = .eq ∧
      (strcat array source).answer = some 2 ∧
      strcmp (strcat array source).array [7, 97] = 0 := by
  intro array text source
  obtain ⟨bounded, -⟩ := copies_compareEqual array text
  obtain ⟨-, cut, copied, moved, appended⟩ := copies_compareEqual array source
  exact
    ⟨(bounded 2 (by decide) (by decide)).1, (bounded 3 (by decide) (by decide)).2,
      cut 4 (by decide), rfl, copied (by decide), moved 9, rfl,
      appended (by decide)⟩

end Suite

end LibcConformance
