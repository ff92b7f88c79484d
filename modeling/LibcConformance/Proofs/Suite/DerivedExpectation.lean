import LibcConformance.Proofs.Suite.FormatExpectation
import LibcConformance.Suite.Collection

namespace LibcConformance

/-!
# Expectations from the tables

What a test expects is worked out from the entries of its table: bytes that are
repeated, joined, cut or padded, and the order of the first bytes that differ.
Each kind of test passes for every entry whose texts are free of NULs and whose
arrays have room, so every test of every table passes.
-/

/-- A test whose case passes, whichever routine it is verified for. -/
def Test.Passes
    (test : Test) : Prop :=
  ∀ routine, (test.case.verify routine).passed = true

theorem Test.passes_of_observe
    {test : Test}
    (seen :
      Simulation.observe test.case.expectation test.case.probe =
        .ok test.case.expectation) :
    test.Passes :=
  fun routine => (Simulation.passed_verify_iff routine test.case).mpr seen

theorem stringOf_eq
    {text : String}
    (noNul : 0 ∉ Bytes.ofText text) :
    stringOf text = Bytes.ofText text :=
  Bytes.cString_eq_self noNul

namespace Suite

section Regions

theorem passes_fillTest
    (label : String)
    (size : Nat)
    (letter : Char) :
    (fillTest label size letter).Passes :=
  Test.passes_of_observe (Simulation.observe_fill size (ascii letter))

theorem passes_copyTest
    (label payload : String)
    (size : Nat) :
    (copyTest label payload size).Passes :=
  Test.passes_of_observe (Simulation.observe_copy payload)

theorem passes_moveBetweenTest :
    moveBetweenTest.Passes := by
  have noNul :
      0 ∉ Bytes.ofText "This is a test string for memmove" := by
    decide
  apply Test.passes_of_observe
  apply (Simulation.observe_moveBetween_iff _ _).mpr
  refine ⟨?_, ?_⟩
  · rw [stringOf_eq noNul]
    decide
  · rw [stringOf_eq noNul]
    rfl

/-- A move inside an array that its string and both of its ranges fit. -/
structure InnerMove.Fits
    (move : InnerMove) : Prop where
  noNul : 0 ∉ Bytes.ofText move.initial
  initial : (Bytes.ofText move.initial).length < move.capacity
  source : move.source + move.count ≤ move.capacity
  target : move.target + move.count ≤ move.capacity

/-- Moving inside an array puts the bytes of one range over those of the other. -/
theorem moved_eq_overlay
    {array : Bytes}
    {target source count : Nat}
    (sourceWithin : source + count ≤ array.length)
    (targetWithin : target + count ≤ array.length) :
    array.moved target source count =
      array.overlay ((array.drop source).take count) target := by
  have inRange :
      ¬ (source + count > array.length ∨ target + count > array.length) := by
    omega
  have extent : min count (array.length - source) = count := by
    omega
  have outcome := CharArray.memmoveWithin_eq_moved sourceWithin targetWithin
  rw [CharArray.memmoveWithin, if_neg inRange, Outcome.mk.injEq] at outcome
  rw [← outcome.2, Bytes.overlay, List.length_take, List.length_drop, extent]

namespace InnerMove

/-- The array of a move, before it. -/
def array
    (move : InnerMove) : Bytes :=
  (Bytes.ofText move.initial).zeroPadded move.capacity

variable
  {move : InnerMove}

theorem Fits.length_array
    (fits : move.Fits) :
    move.array.length = move.capacity :=
  Bytes.length_zeroPadded (Nat.le_of_lt fits.initial)

theorem Fits.memmoveWithin_eq
    (fits : move.Fits) :
    CharArray.memmoveWithin move.array move.target move.source move.count =
      { answer := some move.count
        array := move.array.moved move.target move.source move.count } :=
  CharArray.memmoveWithin_eq_moved (fits.source.trans_eq fits.length_array.symm)
    (fits.target.trans_eq fits.length_array.symm)

/-- Where more than completion is expected, it is the string that the move leaves. -/
theorem Fits.expectation_eq
    (fits : move.Fits)
    (apart : move.expectation ≠ .completes) :
    move.expectation =
      .bytes
        (move.array.moved move.target move.source move.count).cString := by
  rw [moved_eq_overlay (fits.source.trans_eq fits.length_array.symm)
    (fits.target.trans_eq fits.length_array.symm)]
  rw [expectation] at apart ⊢
  split
  · rename_i nothing
    have whole : move.array.cString = Bytes.ofText move.initial :=
      (Bytes.cString_zeroPadded _ _).trans
        (Bytes.cString_eq_self fits.noNul)
    simp [nothing, Bytes.overlay, whole]
  · rename_i something
    rw [if_neg something] at apart
    split
    · rename_i overlap
      rw [if_pos overlap] at apart
      exact absurd rfl apart
    · rfl

/-- A move that fits leaves what is expected of it. -/
theorem Fits.passes_test
    (fits : move.Fits) :
    move.test.Passes := by
  apply Test.passes_of_observe
  apply (Simulation.observe_moveWithin_iff _ _ _ _ _).mpr
  refine ⟨fits.initial, fits.target, fits.source, ?_⟩
  by_cases completes : move.expectation = .completes
  · exact .inl completes
  · exact .inr (fits.expectation_eq completes)

end InnerMove

/-- Bytes that differ decide their order, whatever comes later. -/
theorem compare_then_of_ne
    {first second : UInt8}
    (different : first ≠ second)
    (later : Ordering) :
    (compare first second).then later = compare first second := by
  have notEqual : compare first second ≠ .eq := fun isEqual =>
    different
      ((compareOfLessAndEq_eq_eq UInt8.le_refl UInt8.not_le).mp isEqual)
  cases order : compare first second with
  | lt =>
      rfl
  | eq =>
      exact absurd order notEqual
  | gt =>
      rfl

/-- The first difference decides the order of two byte sequences. -/
theorem byteOrder_eq_memcmp
    (left right : Bytes)
    (count : Nat) :
    byteOrder left right count = CharArray.memcmp left right count := by
  induction left generalizing right count with
  | nil =>
      simp [byteOrder, CharArray.memcmp, Bytes.order]
  | cons first lefts inductionHypothesis =>
      cases right with
      | nil =>
          simp [byteOrder, CharArray.memcmp, Bytes.order]
      | cons second rights =>
          cases count with
          | zero =>
              simp [byteOrder, CharArray.memcmp, Bytes.order]
          | succ count =>
              have later := inductionHypothesis rights count
              simp only [byteOrder, CharArray.memcmp] at later
              by_cases same : first = second
              · subst same
                simpa [byteOrder, CharArray.memcmp, Bytes.order,
                  Nat.add_min_add_right] using later
              · simp [byteOrder, CharArray.memcmp, Bytes.order, same,
                  compare_then_of_ne, Nat.add_min_add_right]

theorem passes_compareTest
    (label : String)
    {left right : Operand}
    {count : Nat}
    (leftReaches : count ≤ left.initializer.storage.length)
    (rightReaches : count ≤ right.initializer.storage.length) :
    (compareTest label left right count).Passes := by
  apply Test.passes_of_observe
  have within :
      ¬ (count > left.initializer.storage.length ∨
        count > right.initializer.storage.length) := by
    omega
  simp only [compareTest, Simulation.observe, if_neg within,
    byteOrder_eq_memcmp]

end Regions

section Strings

variable
  (label : String)
  {text : String}

theorem passes_lengthTest
    (noNul : 0 ∉ Bytes.ofText text) :
    (lengthTest label text).Passes := by
  apply Test.passes_of_observe
  rw [lengthTest, Simulation.observe_length, stringOf_eq noNul]

theorem passes_appendTest
    {front back : String}
    (frontNoNul : 0 ∉ Bytes.ofText front)
    (backNoNul : 0 ∉ Bytes.ofText back)
    (room :
      (Bytes.ofText front).length + (Bytes.ofText back).length <
        destinationCapacity) :
    (appendTest label front back).Passes := by
  apply Test.passes_of_observe
  apply (Simulation.observe_append_iff _ _ _).mpr
  rw [Probe.Means, stringOf_eq frontNoNul, stringOf_eq backNoNul]
  refine ⟨by omega, room, ?_⟩
  rw [appendTest, Bytes.ofText_append]

theorem passes_copyStringTest
    (noNul : 0 ∉ Bytes.ofText text)
    (room : (Bytes.ofText text).length < destinationCapacity) :
    (copyStringTest label text).Passes := by
  apply Test.passes_of_observe
  apply (Simulation.observe_copyString_iff _ _).mpr
  rw [Probe.Means, stringOf_eq noNul]
  exact ⟨room, rfl⟩

theorem zeroPadded_take_eq_boundedCopy
    (source : Bytes)
    (limit : Nat) :
    Bytes.zeroPadded (source.take limit) limit = boundedCopy source limit := by
  rw [boundedCopy]
  split
  · rename_i short
    simp [Bytes.zeroPadded, Nat.min_eq_left short]
  · rename_i long
    rw [List.take_of_length_le (Nat.le_of_not_le long)]

theorem passes_boundedCopyTest
    {limit : Nat}
    (noNul : 0 ∉ Bytes.ofText text)
    (room : limit ≤ destinationCapacity) :
    (boundedCopyTest label text limit).Passes := by
  apply Test.passes_of_observe
  apply (Simulation.observe_copyBounded_iff _ _ _).mpr
  rw [Probe.Means, stringOf_eq noNul, zeroPadded_take_eq_boundedCopy]
  exact ⟨room, rfl⟩

theorem passes_compareStringsTest
    {left right : String}
    (leftNoNul : 0 ∉ Bytes.ofText left)
    (rightNoNul : 0 ∉ Bytes.ofText right)
    (bound : Option Nat) :
    (compareStringsTest label left right bound).Passes := by
  apply Test.passes_of_observe
  simp only [compareStringsTest, Simulation.observe_compareStrings,
    stringOf_eq leftNoNul, stringOf_eq rightNoNul, textOrder,
    Bytes.order_eq_compareOfLessAndEq]
  cases bound <;> rfl

end Strings

section Calls

/-- A call that writes something, all of which a sink shows. -/
def FormatCase.ShownBy
    (case : FormatCase)
    (sink : Sink) : Prop :=
  ∃ output, case.written = .ok output ∧ sink.ShowsInFull output

/-- A test that some of the given calls made, and that passes. -/
structure MadeFrom
    (routine : Routine)
    (calls : List (FormatCase × Sink))
    (test : Test) : Prop where
  passes : test.Passes
  made :
    ∃ call ∈ calls,
      ∃ output, test = testOfOutput routine call.1 call.2 output

/-- Calls that are all shown are added with a test for each, and the tests pass. -/
theorem addFormatTests_of_shown
    {calls : List (FormatCase × Sink)}
    (program : Program)
    (shown : ∀ call ∈ calls, call.1.ShownBy call.2) :
    ∃ tests,
      addFormatTests program calls =
          .ok { program with tests := program.tests ++ tests } ∧
        tests.map (·.case.label) = calls.map (·.1.label) ∧
          ∀ test ∈ tests, MadeFrom program.routine calls test := by
  induction calls generalizing program with
  | nil =>
      exact ⟨[], by simp [addFormatTests], rfl, by simp⟩
  | cons call rest inductionHypothesis =>
      obtain ⟨case, sink⟩ := call
      obtain ⟨output, written, shows⟩ := shown (case, sink) List.mem_cons_self
      let first := testOfOutput program.routine case sink output
      have firstPasses : first.Passes := fun verified =>
        (passed_verify_testOfOutput_iff program.routine written verified).mpr
          shows
      obtain ⟨tests, added, labels, others⟩ :=
        inductionHypothesis { program with tests := program.tests ++ [first] }
          fun other member => shown other (List.mem_cons_of_mem _ member)
      refine ⟨first :: tests, ?_, ?_, List.forall_mem_cons.mpr ⟨?_, ?_⟩⟩
      · rw [addFormatTests, addFormatTest_of_ok program sink written]
        simpa using added
      · rw [List.map_cons, List.map_cons, labels]
        rfl
      · exact ⟨firstPasses, (case, sink), List.mem_cons_self, output, rfl⟩
      · intro test member
        obtain ⟨passes, other, isLater, made⟩ := others test member
        exact ⟨passes, other, List.mem_cons_of_mem _ isLater, made⟩

end Calls

section Tables

/-- The cases of a table write the texts that are listed for them. -/
theorem exists_written
    {cases : List FormatCase}
    {texts : List String}
    (written :
      cases.map FormatCase.written = texts.map fun text => .ok (Bytes.ofText text))
    {case : FormatCase}
    (member : case ∈ cases) :
    ∃ text ∈ texts, case.written = .ok (Bytes.ofText text) := by
  have listed : case.written ∈ cases.map FormatCase.written :=
    List.mem_map_of_mem member
  rw [written] at listed
  obtain ⟨text, isText, same⟩ := List.mem_map.mp listed
  exact ⟨text, isText, same.symm⟩

theorem written_consoleCases :
    consoleCases.map FormatCase.written =
      ["Hello, world!\n", "Int: 42, String: test, Char: X\n",
        "Neg: -17, Unsigned: 4000000000, Hex: ff, HEX: BEEF\n", "", "%"].map
          fun text => .ok (Bytes.ofText text) := by
  cbv

theorem written_bufferCases :
    bufferCases.map FormatCase.written =
      ["Hello, world!", "Int: 42, String: test, Char: X",
        "Neg: -17, Unsigned: 4000000000, Hex: ff, HEX: BEEF", "", "%"].map
          fun text => .ok (Bytes.ofText text) := by
  cbv

theorem written_boundedCases :
    (boundedCases.map Prod.fst).map FormatCase.written =
      ["Hello", "Hello, world!", "123456789", "Hello", "ab=42",
        "Value: 123456"].map fun text => .ok (Bytes.ofText text) := by
  cbv

theorem shownBy_console
    {case : FormatCase}
    (member : case ∈ consoleCases) :
    case.ShownBy .console := by
  obtain ⟨text, -, written⟩ := exists_written written_consoleCases member
  exact ⟨Bytes.ofText text, written, trivial⟩

theorem shownBy_buffer
    {case : FormatCase}
    (member : case ∈ bufferCases) :
    case.ShownBy (.buffer wideCapacity) := by
  obtain ⟨text, isText, written⟩ := exists_written written_bufferCases member
  have fits :
      (Bytes.ofText text).length < wideCapacity ∧ 0 ∉ Bytes.ofText text := by
    clear written
    revert text
    decide
  exact ⟨Bytes.ofText text, written, fits⟩

theorem shownBy_bounded
    {call : FormatCase × Nat}
    (member : call ∈ boundedCases) :
    call.1.ShownBy (.bounded narrowCapacity call.2) := by
  obtain ⟨text, isText, written⟩ :=
    exists_written written_boundedCases (List.mem_map_of_mem member)
  have noNul : 0 ∉ Bytes.ofText text := by
    clear written
    revert text
    decide
  have within : call.2 ≤ narrowCapacity := by
    clear isText written noNul
    revert call
    decide
  exact
    ⟨Bytes.ofText text, written,
      .inr ⟨within, fun shown => noNul (List.mem_of_mem_take shown)⟩⟩

end Tables

end Suite

end LibcConformance
