import LibcConformance.Proofs.CharArray.Terminated
import LibcConformance.Proofs.Format.Destination
import LibcConformance.Verification.Summary

namespace LibcConformance

/-!
# What probes mean in C

A probe stands for calls on arrays of C, and those either leave an array or
show one expectation.  Both are said here in closed form, without arrays that
change and without the routines.  Main fact: a case passes exactly when its
expectation is what its probe means.
-/

/-- The string of C that a text holds: its bytes before the first NUL. -/
def stringOf (text : String) : Bytes :=
  (Bytes.ofText text).cString

/-- An array whose bytes in one range are those that it held in another. -/
def Bytes.moved (array : Bytes) (target source count : Nat) : Bytes :=
  array.mapIdx fun place byte =>
    if target ≤ place ∧ place < target + count then
      array.getD (source + (place - target)) 0
    else
      byte

/-- As much of a string as a bound lets a routine look at. -/
def Bytes.upTo (bytes : Bytes) : Option Nat → Bytes
  | none => bytes
  | some bound => bytes.take bound

/-- What can be seen of a formatting call: its count, and the string it leaves. -/
def Sink.Means
    (template : Bytes)
    (arguments : List Format.Argument)
    (expectation : Expectation) : Sink → Prop
  | .console =>
      ∃ output,
        Format.format template arguments = .ok output ∧
          expectation = .formatted output.length none
  | .buffer capacity =>
      ∃ output,
        Format.format template arguments = .ok output ∧
          output.length < capacity ∧
          expectation = .formatted output.length (some output.cString)
  | .bounded capacity bound =>
      ∃ output,
        Format.format template arguments = .ok output ∧
          bound ≤ capacity ∧
          expectation =
            .formatted output.length
              (if bound = 0 then
                none
              else
                some (Bytes.cString (output.take (bound - 1))))

/-- An expectation is what a probe shows without leaving an array. -/
def Probe.Means (expectation : Expectation) : Probe → Prop
  | .fill size byte =>
      expectation = .bytes (List.replicate size byte)
  | .copy payload =>
      expectation = .bytes (Bytes.ofText payload)
  | .moveBetween source capacity =>
      (stringOf source).length + 1 ≤ capacity ∧
        expectation = .bytes (stringOf source).terminated
  | .moveWithin initial capacity target source count =>
      (Bytes.ofText initial).length < capacity ∧
        target + count ≤ capacity ∧
        source + count ≤ capacity ∧
        (expectation = .completes ∨
          expectation =
            .bytes
              (((Bytes.ofText initial).zeroPadded capacity).moved target source
                count).cString)
  | .compare left right count =>
      count ≤ left.initializer.storage.length ∧
        count ≤ right.initializer.storage.length ∧
        expectation =
          .sign
            (compareOfLessAndEq (left.initializer.storage.take count)
              (right.initializer.storage.take count))
  | .length text =>
      expectation = .length (stringOf text).length
  | .append front back capacity =>
      (Bytes.ofText front).length < capacity ∧
        (stringOf front).length + (stringOf back).length < capacity ∧
        expectation = .bytes (stringOf front ++ stringOf back)
  | .copyString text capacity =>
      (stringOf text).length < capacity ∧
        expectation = .bytes (stringOf text)
  | .copyBounded source count capacity =>
      count ≤ capacity ∧
        expectation =
          .bytes (Bytes.zeroPadded ((stringOf source).take count) count)
  | .compareStrings left right bound =>
      expectation =
        .sign
          (compareOfLessAndEq ((stringOf left).upTo bound)
            ((stringOf right).upTo bound))
  | .format template arguments sink =>
      sink.Means (Bytes.ofText template) (arguments.map CallArgument.value)
        expectation

namespace Bytes

theorem length_zeroPadded
    {bytes : Bytes}
    {size : Nat}
    (fits : bytes.length ≤ size) :
    (bytes.zeroPadded size).length = size := by
  rw [zeroPadded, List.length_append, List.length_replicate]
  omega

/-- The terminator of a text is the first of the NULs that pad its array. -/
theorem zeroPadded_terminated
    {bytes : Bytes}
    {size : Nat}
    (fits : bytes.length < size) :
    bytes.terminated.zeroPadded size = bytes.zeroPadded size := by
  obtain ⟨extra, shape⟩ : ∃ extra, size - bytes.length = extra + 1 :=
    ⟨size - bytes.length - 1, by omega⟩
  have rest : size - bytes.terminated.length = extra := by
    simp only [terminated, List.length_append, List.length_singleton]
    omega
  rw [zeroPadded, zeroPadded, rest, shape, List.replicate_succ, terminated,
    List.append_assoc]
  rfl

/-- Padding with NULs does not change the string. -/
theorem cString_zeroPadded
    (bytes : Bytes)
    (size : Nat) :
    (bytes.zeroPadded size).cString = bytes.cString := by
  rw [zeroPadded]
  cases size - bytes.length with
  | zero =>
      rw [List.replicate_zero, List.append_nil]
  | succ extra =>
      rw [List.replicate_succ, cString_append_nul]

/-- Up to its first NUL, a terminated text is its string with a terminator. -/
theorem take_terminated
    (bytes : Bytes) :
    bytes.terminated.take (bytes.cString.length + 1) =
      bytes.cString.terminated := by
  obtain ⟨rest, shape⟩ := exists_terminated_eq bytes
  rw [shape, List.take_length_add_append]
  rfl

end Bytes

namespace CharArray

/-- A bounded copy puts the string, cut or padded, in front of what stays of the array. -/
theorem take_strncpy
    {destination : Bytes}
    (source : Bytes)
    {count : Nat}
    (within : count ≤ destination.length) :
    (strncpy destination source count).array.take count =
      Bytes.zeroPadded (source.cString.take count) count := by
  have extent : min count destination.length = count :=
    Nat.min_eq_left within
  have cutLength : (source.cString.take count).length ≤ count :=
    List.length_take_le _ _
  simp only [strncpy, extent]
  exact List.take_left' (Bytes.length_zeroPadded cutLength)

/-- Moving inside an array puts at every place the byte that belongs there. -/
theorem memmoveWithin_eq_moved
    {array : Bytes}
    {target source count : Nat}
    (sourceWithin : source + count ≤ array.length)
    (targetWithin : target + count ≤ array.length) :
    memmoveWithin array target source count =
      { answer := some count, array := array.moved target source count } := by
  have inRange :
      ¬ (source + count > array.length ∨ target + count > array.length) := by
    omega
  have sameArray :
      array.take target ++ (array.drop source).take count ++
          array.drop (target + count) =
        array.moved target source count := by
    have frontLength : (array.take target).length = target := by
      rw [List.length_take]
      omega
    have middleLength : ((array.drop source).take count).length = count := by
      rw [List.length_take, List.length_drop]
      omega
    -- A place stands before the bytes that are written, among them or behind.
    apply List.ext_getElem?
    intro place
    rw [Bytes.moved, List.getElem?_mapIdx]
    rcases Nat.lt_or_ge place target with before | notBefore
    · have outside : ¬ (target ≤ place ∧ place < target + count) := by
        omega
      rw [List.append_assoc, List.getElem?_append_left (by omega),
        List.getElem?_take_of_lt before]
      simp [outside]
    · rcases Nat.lt_or_ge place (target + count) with inside | behind
      · have read : source + (place - target) < array.length := by
          omega
        have written : place < array.length := by
          omega
        rw [List.getElem?_append_left (by rw [List.length_append]; omega),
          List.getElem?_append_right (by omega), frontLength,
          List.getElem?_take_of_lt (by omega), List.getElem?_drop]
        simp [notBefore, inside, read, written]
      · have outside : ¬ (target ≤ place ∧ place < target + count) := by
          omega
        have bothLength :
            (array.take target ++ (array.drop source).take count).length =
              target + count := by
          rw [List.length_append, frontLength, middleLength]
        rw [List.getElem?_append_right (by omega), bothLength,
          List.getElem?_drop, Nat.add_sub_cancel' behind]
        simp [outside]
  rw [memmoveWithin, if_neg inRange, sameArray]

end CharArray

namespace Simulation

variable
  {expectation : Expectation}

theorem cString_stringArray
    (text : String) :
    (stringArray text).cString = stringOf text :=
  Bytes.cString_terminated (Bytes.ofText text)

/-- A case passes when what is seen of its probe is its expectation. -/
theorem passed_verify_iff
    (routine : Routine)
    (case : TestCase) :
    (case.verify routine).passed = true ↔
      observe case.expectation case.probe = .ok case.expectation := by
  simp only [TestCase.verify]
  cases observe case.expectation case.probe with
  | error fault => simp
  | ok seen => simp

theorem observe_fill
    (size : Nat)
    (byte : UInt8) :
    observe expectation (.fill size byte) =
      .ok (.bytes (List.replicate size byte)) := by
  have extent : min size (size + 1) = size := by
    omega
  have front :
      ((CharArray.memset (zeros (size + 1)) byte size).array.set size 0).take
          size =
        List.replicate size byte := by
    rw [List.take_set_of_le (Nat.le_refl size)]
    simp only [CharArray.memset, zeros, List.length_replicate, extent]
    exact List.take_left' List.length_replicate
  simp only [observe, front]

theorem observe_copy
    (payload : String) :
    observe expectation (.copy payload) =
      .ok (.bytes (Bytes.ofText payload)) := by
  have copied :
      CharArray.memcpy (zeros ((Bytes.ofText payload).length + 1))
          (stringArray payload) (Bytes.ofText payload).length =
        { answer := (Bytes.ofText payload).length
          array :=
            Bytes.ofText payload ++
              (zeros ((Bytes.ofText payload).length + 1)).drop
                (Bytes.ofText payload).length } := by
    simp [CharArray.memcpy, zeros, stringArray, Bytes.terminated]
  simp only [observe, copied]
  simp

theorem observe_moveBetween_iff
    (source : String)
    (capacity : Nat) :
    observe expectation (.moveBetween source capacity) = .ok expectation ↔
      Probe.Means expectation (.moveBetween source capacity) := by
  simp only [observe, CharArray.strlen, cString_stringArray, Probe.Means]
  by_cases overflows : (stringOf source).length + 1 > capacity
  · simp only [if_pos overflows, reduceCtorEq, false_iff]
    exact fun means => absurd means.1 (Nat.not_le_of_lt overflows)
  · have fits : (stringOf source).length + 1 ≤ capacity :=
      Nat.le_of_not_lt overflows
    have reach :
        (stringOf source).length + 1 ≤ (stringArray source).length := by
      have short := Bytes.length_cString_le (Bytes.ofText source)
      simp only [stringArray, Bytes.terminated, List.length_append,
        List.length_singleton]
      exact Nat.succ_le_succ short
    have extent :
        min ((stringOf source).length + 1)
            (min (zeros capacity).length (stringArray source).length) =
          (stringOf source).length + 1 := by
      rw [zeros, List.length_replicate]
      omega
    have moved :
        (CharArray.memmove (zeros capacity) (stringArray source)
            ((stringOf source).length + 1)).array.take
            ((stringOf source).length + 1) =
          (stringOf source).terminated := by
      simp only [CharArray.memmove, CharArray.memcpy, extent]
      rw [List.take_left' (by rw [List.length_take]; omega)]
      exact Bytes.take_terminated (Bytes.ofText source)
    rw [if_neg overflows, moved]
    simp [fits, eq_comm]

/-- A text initialises an array only if it leaves room for its terminator. -/
theorem initialised_of_lt
    {text : String}
    {capacity : Nat}
    (fits : (Bytes.ofText text).length < capacity) :
    initialised text capacity =
      .ok ((Bytes.ofText text).zeroPadded capacity) := by
  rw [initialised, if_neg (Nat.not_le_of_lt fits), stringArray,
    Bytes.zeroPadded_terminated fits]

theorem initialised_of_le
    {text : String}
    {capacity : Nat}
    (short : capacity ≤ (Bytes.ofText text).length) :
    initialised text capacity = .error (.initializerTooLong capacity) := by
  rw [initialised, if_pos short]

theorem observe_moveWithin_iff
    (initial : String)
    (capacity target source count : Nat) :
    observe expectation (.moveWithin initial capacity target source count) =
        .ok expectation ↔
      Probe.Means expectation
        (.moveWithin initial capacity target source count) := by
  simp only [observe, Probe.Means]
  rcases Nat.lt_or_ge (Bytes.ofText initial).length capacity with fits | short
  · have arrayLength := Bytes.length_zeroPadded (Nat.le_of_lt fits)
    rw [initialised_of_lt fits]
    by_cases within : target + count ≤ capacity ∧ source + count ≤ capacity
    · have moved :=
        CharArray.memmoveWithin_eq_moved
          (within.2.trans_eq arrayLength.symm)
          (within.1.trans_eq arrayLength.symm)
      simp only [bind, Except.bind, moved, accepted, pure, Except.pure]
      by_cases completes : expectation = .completes
      · simp [completes, fits, within]
      · simp [completes, fits, within, eq_comm]
    · have leaves :
          source + count > capacity ∨ target + count > capacity := by
        omega
      simp only [bind, Except.bind, CharArray.memmoveWithin, arrayLength,
        if_pos leaves, accepted, reduceCtorEq, false_iff]
      exact fun means => within ⟨means.2.1, means.2.2.1⟩
  · rw [initialised_of_le short]
    simp only [bind, Except.bind, reduceCtorEq, false_iff]
    exact fun means => Nat.not_lt_of_le short means.1

theorem observe_compare_iff
    (left right : Operand)
    (count : Nat) :
    observe expectation (.compare left right count) = .ok expectation ↔
      Probe.Means expectation (.compare left right count) := by
  simp only [observe, Probe.Means]
  by_cases within :
      count ≤ left.initializer.storage.length ∧
        count ≤ right.initializer.storage.length
  · have extent :
        min count
            (min left.initializer.storage.length
              right.initializer.storage.length) =
          count := by
      omega
    have reads :
        ¬ (count > left.initializer.storage.length ∨
          count > right.initializer.storage.length) := by
      omega
    rw [if_neg reads, CharArray.memcmp, extent,
      Bytes.order_eq_compareOfLessAndEq]
    simp [within, eq_comm]
  · have past :
        count > left.initializer.storage.length ∨
          count > right.initializer.storage.length := by
      omega
    simp only [if_pos past, reduceCtorEq, false_iff]
    exact fun means => within ⟨means.1, means.2.1⟩

theorem observe_length
    (text : String) :
    observe expectation (.length text) =
      .ok (.length (stringOf text).length) := by
  rw [observe, CharArray.strlen, cString_stringArray]

theorem observe_append_iff
    (front back : String)
    (capacity : Nat) :
    observe expectation (.append front back capacity) = .ok expectation ↔
      Probe.Means expectation (.append front back capacity) := by
  simp only [observe, Probe.Means]
  rcases Nat.lt_or_ge (Bytes.ofText front).length capacity with fits | short
  · have arrayLength := Bytes.length_zeroPadded (Nat.le_of_lt fits)
    rw [initialised_of_lt fits]
    have joined :
        ((Bytes.ofText front).zeroPadded capacity).cString ++
            (stringArray back).cString =
          stringOf front ++ stringOf back := by
      rw [Bytes.cString_zeroPadded, cString_stringArray, stringOf,
        stringOf]
    simp only [bind, Except.bind, CharArray.strcat, joined, arrayLength,
      List.length_append]
    by_cases overflows :
        capacity ≤ (stringOf front).length + (stringOf back).length
    · simp only [if_pos overflows, accepted, reduceCtorEq, false_iff]
      exact fun means => Nat.not_lt_of_le overflows means.2.1
    · have noNul : 0 ∉ stringOf front ++ stringOf back := by
        simp [stringOf, Bytes.zero_notMem_cString]
      simp only [if_neg overflows, accepted, pure, Except.pure,
        Bytes.cString_append_nul, Bytes.cString_eq_self noNul]
      simp [fits, Nat.lt_of_not_le overflows, eq_comm]
  · rw [initialised_of_le short]
    simp only [bind, Except.bind, reduceCtorEq, false_iff]
    exact fun means => Nat.not_lt_of_le short means.1

theorem observe_copyString_iff
    (text : String)
    (capacity : Nat) :
    observe expectation (.copyString text capacity) = .ok expectation ↔
      Probe.Means expectation (.copyString text capacity) := by
  simp only [observe, Probe.Means, CharArray.strcpy, cString_stringArray, zeros,
    List.length_replicate]
  by_cases overflows : capacity ≤ (stringOf text).length
  · simp only [if_pos overflows, accepted, bind, Except.bind, reduceCtorEq,
      false_iff]
    exact fun means => Nat.not_lt_of_le overflows means.1
  · have noNul : (stringOf text).cString = stringOf text :=
      Bytes.cString_cString (Bytes.ofText text)
    simp only [if_neg overflows, accepted, bind, Except.bind, pure, Except.pure,
      Bytes.cString_append_nul, noNul]
    simp [Nat.lt_of_not_le overflows, eq_comm]

theorem observe_copyBounded_iff
    (source : String)
    (count capacity : Nat) :
    observe expectation (.copyBounded source count capacity) =
        .ok expectation ↔
      Probe.Means expectation (.copyBounded source count capacity) := by
  simp only [observe, Probe.Means]
  by_cases beyond : count > capacity
  · simp only [if_pos beyond, reduceCtorEq, false_iff]
    exact fun means => Nat.not_lt_of_le means.1 beyond
  · have within : count ≤ capacity := Nat.le_of_not_lt beyond
    have zerosReach : count ≤ (zeros capacity).length :=
      within.trans_eq List.length_replicate.symm
    rw [if_neg beyond, CharArray.take_strncpy _ zerosReach, cString_stringArray]
    simp [within, eq_comm]

theorem observe_compareStrings
    (left right : String)
    (bound : Option Nat) :
    observe expectation (.compareStrings left right bound) =
      .ok
        (.sign
          (compareOfLessAndEq ((stringOf left).upTo bound)
            ((stringOf right).upTo bound))) := by
  cases bound with
  | none =>
      rw [observe, signOf, CharArray.compare_strcmp, cString_stringArray,
        cString_stringArray, Bytes.order_eq_compareOfLessAndEq]
      rfl
  | some bound =>
      rw [observe, signOf, CharArray.compare_strncmp, cString_stringArray,
        cString_stringArray, Bytes.order_eq_compareOfLessAndEq]
      rfl

section Format

variable
  (template : Bytes)
  (arguments : List Format.Argument)

theorem observeFormat_console_iff :
    observeFormat template arguments .console = .ok expectation ↔
      Sink.Means template arguments expectation .console := by
  simp only [observeFormat, Sink.Means]
  cases Format.format template arguments with
  | error failure => simp
  | ok output => simp [eq_comm]

theorem observeFormat_buffer_iff
    (capacity : Nat) :
    observeFormat template arguments (.buffer capacity) = .ok expectation ↔
      Sink.Means template arguments expectation (.buffer capacity) := by
  have arrayLength : (zeros capacity).length = capacity :=
    List.length_replicate
  simp only [observeFormat, Sink.Means, bind, Except.bind, pure, Except.pure]
  cases written : Format.format template arguments with
  | error failure =>
      rw [Format.sprintf_of_error written]
      simp [formatted]
  | ok output =>
      rcases Nat.lt_or_ge output.length capacity with fits | short
      · rw [Format.sprintf_of_lt_length written (by rwa [arrayLength])]
        simp [formatted, fits, Bytes.cString_append_nul, eq_comm]
      · rw [Format.sprintf_of_length_le written (by rwa [arrayLength])]
        simp [formatted, Nat.not_lt_of_le short]

theorem observeFormat_bounded_iff
    (capacity bound : Nat) :
    observeFormat template arguments (.bounded capacity bound) =
        .ok expectation ↔
      Sink.Means template arguments expectation (.bounded capacity bound) := by
  have arrayLength : (zeros capacity).length = capacity :=
    List.length_replicate
  simp only [observeFormat, Sink.Means, bind, Except.bind, pure, Except.pure]
  rcases Nat.lt_or_ge capacity bound with beyond | within
  · rw [Format.snprintf_of_length_lt (by rwa [arrayLength])]
    simp [formatted, Nat.not_le_of_lt beyond]
  · have reaches : bound ≤ (zeros capacity).length := by
      rwa [arrayLength]
    cases written : Format.format template arguments with
    | error failure =>
        rw [Format.snprintf_of_error reaches written]
        simp [formatted]
    | ok output =>
        rcases Nat.eq_zero_or_pos bound with zero | positive
        · subst zero
          rw [Format.snprintf_zero written]
          simp [formatted, eq_comm]
        · have notZero : bound ≠ 0 := Nat.ne_of_gt positive
          rw [Format.snprintf_of_pos reaches positive written]
          simp [formatted, within, positive, notZero, Bytes.cString_append_nul,
            eq_comm]

end Format

end Simulation

/--
A case passes exactly when its expectation is what its probe means in C.
-/
theorem TestCase.passed_verify_iff_means
    (routine : Routine)
    (case : TestCase) :
    (case.verify routine).passed = true ↔
      case.probe.Means case.expectation := by
  rw [Simulation.passed_verify_iff]
  cases case.probe with
  | fill size byte =>
      rw [Simulation.observe_fill, Probe.Means, Except.ok.injEq, eq_comm]
  | copy payload =>
      rw [Simulation.observe_copy, Probe.Means, Except.ok.injEq, eq_comm]
  | moveBetween source capacity =>
      exact Simulation.observe_moveBetween_iff source capacity
  | moveWithin initial capacity target source count =>
      exact
        Simulation.observe_moveWithin_iff initial capacity target source count
  | compare left right count =>
      exact Simulation.observe_compare_iff left right count
  | length text =>
      rw [Simulation.observe_length, Probe.Means, Except.ok.injEq, eq_comm]
  | append front back capacity =>
      exact Simulation.observe_append_iff front back capacity
  | copyString text capacity =>
      exact Simulation.observe_copyString_iff text capacity
  | copyBounded source count capacity =>
      exact Simulation.observe_copyBounded_iff source count capacity
  | compareStrings left right bound =>
      rw [Simulation.observe_compareStrings, Probe.Means, Except.ok.injEq,
        eq_comm]
  | format template arguments sink =>
      cases sink with
      | console => exact Simulation.observeFormat_console_iff _ _
      | buffer capacity => exact Simulation.observeFormat_buffer_iff _ _ capacity
      | bounded capacity bound =>
          exact Simulation.observeFormat_bounded_iff _ _ capacity bound

end LibcConformance
