import LibcConformance.Proofs.Suite.DerivedExpectation

namespace LibcConformance.Suite

/-!
# Moves inside one array

What a test expects of a move inside an array is worked out on a copy of the
array, and only completion where the two ranges share a place.  The routine
leaves just the string that is expected, also where NULs are moved into it, and
a move out of the array is refused, whatever is expected of it.
-/

namespace InnerMove

/-- A place that a move reads. -/
def Reads
    (move : InnerMove)
    (place : Nat) : Prop :=
  move.source ≤ place ∧ place < move.source + move.count

/-- A place that a move writes. -/
def Writes
    (move : InnerMove)
    (place : Nat) : Prop :=
  move.target ≤ place ∧ place < move.target + move.count

/-- A move that reads or writes behind the end of its array. -/
def Leaves
    (move : InnerMove) : Prop :=
  move.capacity < move.source + move.count ∨
    move.capacity < move.target + move.count

/-- A move that something is expected of. -/
def expecting
    (move : InnerMove)
    (expectation : Expectation) : TestCase :=
  { label := move.label
    probe :=
      .moveWithin move.initial move.capacity move.target move.source move.count
    expectation }

variable
  {move : InnerMove}

/-- Ranges of one length overlap if each starts before the other ends. -/
theorem exists_reads_writes_iff
    (move : InnerMove) :
    (∃ place, move.Reads place ∧ move.Writes place) ↔
      0 < move.count ∧
        move.source < move.target + move.count ∧
          move.target < move.source + move.count := by
  constructor
  · rintro ⟨place, ⟨afterSource, beforeSource⟩, afterTarget, beforeTarget⟩
    omega
  · rintro ⟨positive, sourceFirst, targetFirst⟩
    refine ⟨max move.source move.target, ⟨?_, ?_⟩, ?_, ?_⟩ <;> omega

/-- Only completion is expected just of moves whose ranges overlap. -/
theorem expectation_eq_completes_iff
    (move : InnerMove) :
    move.expectation = .completes ↔
      ∃ place, move.Reads place ∧ move.Writes place := by
  rw [exists_reads_writes_iff, expectation]
  split
  · rename_i nothing
    simp [nothing]
  · rename_i something
    split
    · rename_i overlap
      exact iff_of_true rfl ⟨Nat.pos_of_ne_zero something, overlap⟩
    · rename_i apart
      exact iff_of_false Expectation.noConfusion fun overlap => apart overlap.2

theorem memmoveWithin_of_leaves
    (leaves : move.Leaves)
    {array : Bytes}
    (arrayLength : array.length = move.capacity) :
    CharArray.memmoveWithin array move.target move.source move.count =
      { answer := none, array } := by
  rw [Leaves, ← arrayLength] at leaves
  rw [CharArray.memmoveWithin, if_pos leaves]

/-- A move out of its array fails, whatever is expected of it. -/
theorem passed_verify_of_leaves
    (leaves : move.Leaves)
    (routine : Routine)
    (expectation : Expectation) :
    ((move.expecting expectation).verify routine).passed = false := by
  rw [Bool.eq_false_iff, ne_eq, Simulation.passed_verify_iff]
  intro seen
  have means := (Simulation.observe_moveWithin_iff _ _ _ _ _).mp seen
  exact
    leaves.elim (Nat.not_lt_of_le means.2.2.1) (Nat.not_lt_of_le means.2.1)

/--
What is expected of a move that fits its array is seen of it: only completion if
the move reads a place that it writes, and else the string that it leaves.  A
move that reads or writes behind the array is refused, and fails whatever is
expected of it.
-/
theorem expectation_exact
    (move : InnerMove) :
    (move.Fits →
        (∀ routine,
          ((move.expecting move.expectation).verify routine).passed = true) ∧
          (move.expectation = .completes ↔
            0 < move.count ∧
              ∃ place, move.Reads place ∧ move.Writes place) ∧
          (move.expectation ≠ .completes →
            ∃ left,
              CharArray.memmoveWithin move.array move.target move.source
                  move.count =
                { answer := some move.count, array := left } ∧
              move.expectation = .bytes left.cString)) ∧
      (move.Leaves →
        (∀ array,
          array.length = move.capacity →
            CharArray.memmoveWithin array move.target move.source move.count =
              { answer := none, array }) ∧
          ∀ expectation routine,
            ((move.expecting expectation).verify routine).passed = false) := by
  refine ⟨fun fits => ⟨fits.passes_test, ?_, fun apart => ?_⟩, fun leaves => ?_⟩
  · rw [expectation_eq_completes_iff]
    refine ⟨fun overlap => ⟨?_, overlap⟩, fun overlap => overlap.2⟩
    exact ((exists_reads_writes_iff move).mp overlap).1
  · exact ⟨_, fits.memmoveWithin_eq, fits.expectation_eq apart⟩
  · exact
      ⟨fun array arrayLength => memmoveWithin_of_leaves leaves arrayLength,
        fun expectation routine =>
          passed_verify_of_leaves leaves routine expectation⟩

/--
Ranges that touch are apart, and the NULs that are moved end the string early;
ranges that share a place are not compared, and a move to the last place of its
array that has more than one byte to write fails.
-/
theorem expectation_exact_movedNul :
    let touching : InnerMove := ⟨"touching", "abc", 8, 1, 3, 2⟩
    let overlapping : InnerMove := ⟨"overlapping", "abc", 8, 1, 2, 2⟩
    let leaving : InnerMove := ⟨"leaving", "abc", 8, 7, 0, 2⟩
    touching.Fits ∧
      touching.expectation = .bytes [97] ∧
      ((touching.expecting (.bytes [97])).verify .memmove).passed = true ∧
      overlapping.Fits ∧
      overlapping.expectation = .completes ∧
      leaving.Leaves ∧
      ((leaving.expecting .completes).verify .memmove).passed = false := by
  intro touching overlapping leaving
  have fits : touching.Fits :=
    { noNul := by decide, initial := by decide, source := by decide
      target := by decide }
  have fitsToo : overlapping.Fits :=
    { noNul := by decide, initial := by decide, source := by decide
      target := by decide }
  have leaves : leaving.Leaves := by
    right
    decide
  have expected : touching.expectation = .bytes [97] := by
    decide
  have passes := ((expectation_exact touching).1 fits).1 .memmove
  rw [expected] at passes
  obtain ⟨-, completes, -⟩ := (expectation_exact overlapping).1 fitsToo
  exact
    ⟨fits, expected, passes, fitsToo,
      completes.mpr ⟨by decide, 2, ⟨by decide, by decide⟩, by decide, by decide⟩,
      leaves, ((expectation_exact leaving).2 leaves).2 .completes .memmove⟩

end InnerMove

end LibcConformance.Suite
