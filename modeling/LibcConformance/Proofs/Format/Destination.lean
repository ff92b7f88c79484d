import Mathlib
import LibcConformance.Proofs.Format.Slots

namespace LibcConformance

/-!
# What a formatting call leaves in its array

A call either fails and leaves every byte of its array alone, or puts a text
and its terminator over the front of the array and leaves the bytes behind them
alone.  Where the array needs no more room than the bound allows, the bounded
call and the unbounded one do the same.
-/

namespace Format

/-- The call comes back with a count. -/
def Succeeds (outcome : Outcome (Except FormatError Nat)) : Prop :=
  ∃ count, outcome.answer = .ok count

/-- A text and its terminator stand over the front of what an array held. -/
structure Overwritten (before text after : Bytes) : Prop where
  front : text.terminated <+: after
  behind : after.drop (text.length + 1) = before.drop (text.length + 1)
  sameLength : after.length = before.length

variable
  {destination template output : Bytes}
  {bound : Nat}
  {arguments : List Argument}
  {failure : FormatError}

theorem overwritten_append
    {before text : Bytes}
    (fits : text.length < before.length) :
    Overwritten before text
      (text ++ 0 :: before.drop (text.length + 1)) where
  front := ⟨before.drop (text.length + 1), by simp [Bytes.terminated]⟩
  behind := by
    have terminatedLength : text.terminated.length = text.length + 1 := by
      simp [Bytes.terminated]
    have shape :
        text ++ 0 :: before.drop (text.length + 1) =
          text.terminated ++ before.drop (text.length + 1) := by
      simp [Bytes.terminated]
    rw [shape, ← terminatedLength, List.drop_left]
  sameLength := by
    simp only [List.length_append, List.length_cons, List.length_drop]
    omega

/-- Writing a template never runs out of room: only an array has an end. -/
theorem format_ne_arrayTooSmall
    (template : Bytes)
    (arguments : List Argument)
    (needed capacity : Nat) :
    format template arguments ≠ .error (.arrayTooSmall needed capacity) := by
  intro failed
  have answers := format_answers template arguments
  rw [failed] at answers
  cases check : firstFailure? 0 (slots template) arguments with
  | none =>
      rw [check] at answers
      obtain ⟨output, _, formatted⟩ := answers
      cases formatted
  | some found =>
      rw [check] at answers
      cases answers
      obtain ⟨index, slot, _, missing | mismatched⟩ :=
        (firstFailure?_eq_some_iff 0 _ arguments _).mp check
      · cases missing.2
      · cases mismatched.2

theorem sprintf_of_error
    (failed : format template arguments = .error failure)
    (destination : Bytes) :
    sprintf destination template arguments =
      { answer := .error failure, array := destination } := by
  rw [sprintf, failed]

/-- An output that leaves no room for its terminator is refused. -/
theorem sprintf_of_length_le
    (formatted : format template arguments = .ok output)
    (short : destination.length ≤ output.length) :
    sprintf destination template arguments =
      { answer := .error (.arrayTooSmall (output.length + 1) destination.length)
        array := destination } := by
  simp only [sprintf, formatted, if_pos short]

theorem sprintf_of_lt_length
    (formatted : format template arguments = .ok output)
    (fits : output.length < destination.length) :
    sprintf destination template arguments =
      { answer := .ok output.length
        array := output ++ 0 :: destination.drop (output.length + 1) } := by
  simp only [sprintf, formatted, if_neg (Nat.not_le_of_lt fits)]

/-- Whether an output fits depends on nothing but the length of the array. -/
theorem succeeds_sprintf_iff
    (formatted : format template arguments = .ok output)
    (destination : Bytes) :
    Succeeds (sprintf destination template arguments) ↔
      output.length < destination.length := by
  constructor
  · rintro ⟨count, answered⟩
    by_contra short
    rw [sprintf_of_length_le formatted (Nat.le_of_not_lt short)] at answered
    cases answered
  · intro fits
    exact ⟨output.length, by rw [sprintf_of_lt_length formatted fits]⟩

theorem sprintf_atomic
    (failed :
      (sprintf destination template arguments).answer = .error failure) :
    (sprintf destination template arguments).array = destination := by
  cases formatted : format template arguments with
  | error found =>
      rw [sprintf_of_error formatted]
  | ok output =>
      by_cases short : destination.length ≤ output.length
      · rw [sprintf_of_length_le formatted short]
      · rw [sprintf_of_lt_length formatted (Nat.lt_of_not_le short)] at failed
        cases failed

/-- A bound that the array has no room for is refused before anything else. -/
theorem snprintf_of_length_lt
    (beyond : destination.length < bound)
    (template : Bytes)
    (arguments : List Argument) :
    snprintf destination bound template arguments =
      { answer := .error (.arrayTooSmall bound destination.length)
        array := destination } := by
  rw [snprintf, if_pos beyond]

theorem snprintf_of_error
    (within : bound ≤ destination.length)
    (failed : format template arguments = .error failure) :
    snprintf destination bound template arguments =
      { answer := .error failure, array := destination } := by
  rw [snprintf, if_neg (Nat.not_lt_of_le within), failed]

theorem snprintf_zero
    (formatted : format template arguments = .ok output)
    (destination : Bytes) :
    snprintf destination 0 template arguments =
      { answer := .ok output.length, array := destination } := by
  simp only [snprintf, formatted, if_true, gt_iff_lt, Nat.not_lt_zero, if_false]

theorem snprintf_of_pos
    (within : bound ≤ destination.length)
    (positive : 0 < bound)
    (formatted : format template arguments = .ok output) :
    snprintf destination bound template arguments =
      { answer := .ok output.length
        array :=
          output.take (bound - 1) ++
            0 :: destination.drop ((output.take (bound - 1)).length + 1) } := by
  simp only [snprintf, if_neg (Nat.not_lt_of_le within), formatted,
    if_neg (Nat.ne_of_gt positive)]

theorem snprintf_atomic
    (failed :
      (snprintf destination bound template arguments).answer =
        .error failure) :
    (snprintf destination bound template arguments).array = destination := by
  rcases Nat.lt_or_ge destination.length bound with beyond | within
  · rw [snprintf_of_length_lt beyond]
  · cases formatted : format template arguments with
    | error found =>
        rw [snprintf_of_error within formatted]
    | ok output =>
        rcases Nat.eq_zero_or_pos bound with zero | positive
        · subst zero
          rw [snprintf_zero formatted]
        · rw [snprintf_of_pos within positive formatted] at failed
          cases failed

/-- A bound inside the array answers what the whole template answers. -/
theorem answer_snprintf
    (within : bound ≤ destination.length) :
    (snprintf destination bound template arguments).answer =
      (format template arguments).map List.length := by
  cases formatted : format template arguments with
  | error found =>
      rw [snprintf_of_error within formatted]
      rfl
  | ok output =>
      rcases Nat.eq_zero_or_pos bound with zero | positive
      · subst zero
        rw [snprintf_zero formatted]
        rfl
      · rw [snprintf_of_pos within positive formatted]
        rfl

theorem snprintf_refuses_iff :
    (snprintf destination bound template arguments).answer =
        .error (.arrayTooSmall bound destination.length) ↔
      destination.length < bound := by
  constructor
  · intro refused
    by_contra within
    rw [answer_snprintf (Nat.le_of_not_lt within)] at refused
    cases formatted : format template arguments with
    | ok output =>
        rw [formatted] at refused
        cases refused
    | error found =>
        rw [formatted] at refused
        cases refused
        exact format_ne_arrayTooSmall template arguments _ _ formatted
  · intro beyond
    rw [snprintf_of_length_lt beyond]

theorem overwritten_snprintf
    (within : bound ≤ destination.length)
    (positive : 0 < bound)
    (formatted : format template arguments = .ok output) :
    Overwritten destination (output.take (min output.length (bound - 1)))
      (snprintf destination bound template arguments).array := by
  have kept :
      output.take (min output.length (bound - 1)) = output.take (bound - 1) := by
    rw [Nat.min_comm, ← List.take_take, List.take_length]
  have fits : (output.take (bound - 1)).length < destination.length := by
    rw [List.length_take]
    omega
  rw [kept, snprintf_of_pos within positive formatted]
  exact overwritten_append fits

/-- A bound that cuts nothing off makes no difference. -/
theorem snprintf_eq_sprintf
    (formatted : format template arguments = .ok output)
    (uncut : output.length < bound)
    (within : bound ≤ destination.length) :
    snprintf destination bound template arguments =
      sprintf destination template arguments := by
  have whole : output.take (bound - 1) = output :=
    List.take_of_length_le (Nat.le_sub_one_of_lt uncut)
  rw [snprintf_of_pos within (Nat.zero_lt_of_lt uncut) formatted,
    sprintf_of_lt_length formatted (Nat.lt_of_lt_of_le uncut within), whole]

/--
A call that fails leaves its array as it was.  The unbounded call fails as
`format` does, and else needs an array that holds the output and its
terminator.  The bounded one first needs an array that its bound fits in, then
fails as `format` does, and answers the length of the whole output however much
of it the bound keeps.  Where nothing is cut off the two agree.
-/
theorem sprintf_snprintf_format
    (destination template : Bytes)
    (bound : Nat)
    (arguments : List Argument) :
    let plain := sprintf destination template arguments
    let bounded := snprintf destination bound template arguments
    (∀ failure,
        plain.answer = .error failure → plain.array = destination) ∧
      (∀ failure,
        bounded.answer = .error failure → bounded.array = destination) ∧
      (∀ failure,
        format template arguments = .error failure →
          plain.answer = .error failure) ∧
      (∀ output,
        format template arguments = .ok output →
          (Succeeds plain ↔ output.length < destination.length) ∧
            (¬ Succeeds plain →
              ∃ needed,
                plain.answer =
                    .error (.arrayTooSmall needed destination.length) ∧
                  ∀ array : Bytes,
                    Succeeds (sprintf array template arguments) ↔
                      needed ≤ array.length) ∧
            (Succeeds plain →
              plain.answer = .ok output.length ∧
                Overwritten destination output plain.array)) ∧
      (bounded.answer = .error (.arrayTooSmall bound destination.length) ↔
        destination.length < bound) ∧
      (bound ≤ destination.length →
        (∀ failure,
            bounded.answer = .error failure ↔
              format template arguments = .error failure) ∧
          ∀ output,
            format template arguments = .ok output →
              bounded.answer = .ok output.length ∧
                (0 < bound →
                  Overwritten destination
                    (output.take (min output.length (bound - 1)))
                    bounded.array) ∧
                (bound = 0 → bounded.array = destination)) ∧
      ∀ output,
        format template arguments = .ok output →
        output.length < bound →
        bound ≤ destination.length →
        bounded = plain := by
  intro plain bounded
  refine
    ⟨fun _ => sprintf_atomic, fun _ => snprintf_atomic, ?_, ?_,
      snprintf_refuses_iff, ?_, fun _ => snprintf_eq_sprintf⟩
  · intro failure failed
    exact congrArg Outcome.answer (sprintf_of_error failed destination)
  · intro output formatted
    have succeeds := succeeds_sprintf_iff formatted
    refine ⟨succeeds destination, ?_, ?_⟩
    · intro refused
      have short : destination.length ≤ output.length :=
        Nat.le_of_not_lt fun fits => refused ((succeeds destination).mpr fits)
      refine ⟨output.length + 1, ?_, succeeds⟩
      exact congrArg Outcome.answer (sprintf_of_length_le formatted short)
    · intro answered
      have fits := (succeeds destination).mp answered
      have written := sprintf_of_lt_length formatted fits
      refine ⟨congrArg Outcome.answer written, ?_⟩
      rw [show plain.array = _ from congrArg Outcome.array written]
      exact overwritten_append fits
  · intro within
    have answered :
        bounded.answer = (format template arguments).map List.length :=
      answer_snprintf within
    refine ⟨?_, ?_⟩
    · intro failure
      rw [answered]
      cases format template arguments <;> simp [Except.map]
    · intro output formatted
      refine ⟨by rw [answered, formatted]; rfl, ?_, ?_⟩
      · intro positive
        exact overwritten_snprintf within positive formatted
      · rintro rfl
        exact congrArg Outcome.array (snprintf_zero formatted destination)

/--
Three bytes of output fill an array of four under either call, are refused by
one of three, are cut by a bound of three and do not show under a bound of zero.
-/
theorem sprintf_snprintf_threeBytes :
    let template := Bytes.ofText "%d!"
    let arguments : List Argument := [.signed 42]
    let exact : Bytes := [1, 2, 3, 4]
    let short : Bytes := [1, 2, 3]
    format template arguments = .ok (Bytes.ofText "42!") ∧
      Succeeds (sprintf exact template arguments) ∧
      snprintf exact 4 template arguments = sprintf exact template arguments ∧
      Overwritten exact (Bytes.ofText "42!")
        (sprintf exact template arguments).array ∧
      ¬ Succeeds (sprintf short template arguments) ∧
      (sprintf short template arguments).array = short ∧
      (snprintf short 4 template arguments).array = short ∧
      Overwritten short (Bytes.ofText "42")
        (snprintf short 3 template arguments).array ∧
      (snprintf short 0 template arguments).array = short ∧
      (sprintf short template []).answer = .error (.missingArgument 0) := by
  intro template arguments exact short
  have formatted : format template arguments = .ok (Bytes.ofText "42!") := by
    cbv
  have unsupplied : format template [] = .error (.missingArgument 0) := by
    cbv
  obtain ⟨_, _, _, fitting, _, _, agreeing⟩ :=
    sprintf_snprintf_format exact template 4 arguments
  obtain ⟨succeedsExact, _, written⟩ := fitting _ formatted
  have succeeds := succeedsExact.mpr (by decide)
  obtain ⟨atomic, boundedAtomic, _, refusing, beyond, _, _⟩ :=
    sprintf_snprintf_format short template 4 arguments
  obtain ⟨succeedsShort, refused, _⟩ := refusing _ formatted
  have fails : ¬ Succeeds (sprintf short template arguments) :=
    fun fits => absurd (succeedsShort.mp fits) (by decide)
  obtain ⟨_, needed, _⟩ := refused fails
  obtain ⟨_, _, failing, _⟩ := sprintf_snprintf_format short template 0 []
  obtain ⟨_, _, _, _, _, cutting, _⟩ :=
    sprintf_snprintf_format short template 3 arguments
  obtain ⟨_, _, _, _, _, unseen, _⟩ :=
    sprintf_snprintf_format short template 0 arguments
  exact
    ⟨formatted, succeeds, agreeing _ formatted (by decide) (by decide),
      (written succeeds).2, fails, atomic _ needed,
      boundedAtomic _ (beyond.mpr (by decide)),
      ((cutting (by decide)).2 _ formatted).2.1 (by decide),
      ((unseen (by decide)).2 _ formatted).2.2 rfl, failing _ unsupplied⟩

end Format

end LibcConformance
