import LibcConformance.Format.Output
import LibcConformance.Proofs.Format.Spelling

namespace LibcConformance

/-!
# Slots of a template

The directives of a template take their arguments through slots: one for each
star and one for the value that is written.  A call succeeds exactly when every
slot has an argument that it accepts, and fails at the first slot that has
none.  The slots are counted over the whole template, so the index of a failure
does not depend on how the slots fall on its directives.
-/

namespace Format

/-- A place where a directive takes an argument. -/
inductive Slot where
  | star
  | value (conversion : Conversion)
  deriving Repr, DecidableEq

namespace Slot

/-- The byte that stands for a slot in the report of a failure. -/
def letter : Slot → UInt8
  | .star => ascii '*'
  | .value conversion => conversion.byte

/-- Which arguments a slot accepts. -/
def accepts : Slot → Argument → Bool
  | .star, .signed _ | .star, .unsigned _ => true
  | .value .decimal, .signed _ | .value .decimal, .unsigned _
  | .value .decimal, .character _ => true
  | .value .integer, .signed _ | .value .integer, .unsigned _
  | .value .integer, .character _ => true
  | .value .unsigned, .signed _ | .value .unsigned, .unsigned _ => true
  | .value .hexadecimal, .signed _ | .value .hexadecimal, .unsigned _ => true
  | .value .upperHexadecimal, .signed _
  | .value .upperHexadecimal, .unsigned _ => true
  | .value .octal, .signed _ | .value .octal, .unsigned _ => true
  | .value .character, .character _ | .value .character, .signed _ => true
  | .value .string, .text _ => true
  | .value .pointer, .pointer _ => true
  | _, _ => false

/-- A slot that has an argument which it accepts. -/
def Given
    (slots : List Slot)
    (arguments : List Argument)
    (index : Nat) : Prop :=
  ∃ (slot : Slot) (argument : Argument),
    slots[index]? = some slot ∧
      arguments[index]? = some argument ∧ slot.accepts argument = true

/-- There are enough arguments, and each slot accepts that of its index. -/
structure Filled
    (slots : List Slot)
    (arguments : List Argument) : Prop where
  enough : slots.length ≤ arguments.length
  accepted :
    ∀ (index : Nat) (slot : Slot) (argument : Argument),
      slots[index]? = some slot →
      arguments[index]? = some argument →
      slot.accepts argument = true

/-- The first slot without an argument that it accepts. -/
structure FirstFailing
    (slots : List Slot)
    (arguments : List Argument)
    (index : Nat)
    (slot : Slot) : Prop where
  isSlot : slots[index]? = some slot
  fails : ¬ Given slots arguments index
  earlierGiven : ∀ earlier < index, Given slots arguments earlier

end Slot

def Amount.slots : Amount → List Slot
  | .fromArgument => [.star]
  | _ => []

/-- The slots of a directive, in the order in which it takes its arguments. -/
def Directive.slots (directive : Directive) : List Slot :=
  directive.width.slots ++
    (directive.precision.slots ++ [.value directive.conversion])

def Segment.slots : Segment → List Slot
  | .directive asked => asked.slots
  | _ => []

def slots (template : Bytes) : List Slot :=
  (segments template).flatMap Segment.slots

/-- The number that a star takes from an argument. -/
def Argument.starNumber : Argument → Int
  | .signed value => value.toInt
  | .unsigned value => value.toInt64.toInt
  | _ => 0

namespace Directive

/-- A directive whose star of a width has taken its argument. -/
def settledWidth
    (directive : Directive)
    (arguments : List Argument) : Directive :=
  match directive.width, arguments with
  | .fromArgument, argument :: _ => directive.withWidth argument.starNumber
  | _, _ => directive

/-- A directive whose star of a precision has taken its argument. -/
def settledPrecision
    (directive : Directive)
    (arguments : List Argument) : Directive :=
  match directive.precision, arguments with
  | .fromArgument, argument :: _ => directive.withPrecision argument.starNumber
  | _, _ => directive

/-- What a directive writes with the arguments from its first slot on. -/
def rendering?
    (directive : Directive)
    (arguments : List Argument) : Option Bytes :=
  let afterWidth := arguments.drop directive.width.slots.length
  let afterPrecision := afterWidth.drop directive.precision.slots.length
  let settled := (directive.settledWidth arguments).settledPrecision afterWidth
  afterPrecision.head?.bind settled.write?

end Directive

/-- What segments write, each directive with the arguments of its own slots. -/
def written? : List Segment → List Argument → Option Bytes
  | [], _ => some []
  | .literal bytes :: rest, arguments =>
      (written? rest arguments).map (bytes ++ ·)
  | .percent :: rest, arguments =>
      (written? rest arguments).map (ascii '%' :: ·)
  | .directive directive :: rest, arguments =>
      (directive.rendering? arguments).bind fun bytes =>
        (written? rest (arguments.drop directive.slots.length)).map (bytes ++ ·)

/-- The failure of the first slot that is not given an argument it accepts. -/
def firstFailure? :
    Nat → List Slot → List Argument → Option FormatError
  | _, [], _ => none
  | start, _ :: _, [] => some (.missingArgument start)
  | start, slot :: slots, argument :: arguments =>
      if slot.accepts argument then
        firstFailure? (start + 1) slots arguments
      else
        some (.mismatchedArgument start slot.letter)

/-- Slots behind others are checked against the arguments that those leave. -/
theorem firstFailure?_append
    (start : Nat)
    (first second : List Slot)
    (arguments : List Argument) :
    firstFailure? start (first ++ second) arguments =
      (firstFailure? start first arguments).or
        (firstFailure? (start + first.length) second
          (arguments.drop first.length)) := by
  induction first generalizing start arguments with
  | nil =>
      simp [firstFailure?]
  | cons slot rest inductionHypothesis =>
      cases arguments with
      | nil =>
          simp [firstFailure?]
      | cons argument others =>
          by_cases accepted : slot.accepts argument = true
          · simp only [List.cons_append, firstFailure?, accepted, if_true,
              inductionHypothesis, List.length_cons, List.drop_succ_cons]
            rw [Nat.add_right_comm, Nat.add_assoc start]
          · simp [firstFailure?, accepted]

/-- A result is the failure of a check, or what is written without one. -/
def Answers
    {Result : Type}
    (check : Option FormatError)
    (written : Option Result)
    (result : Except FormatError Result) : Prop :=
  match check with
  | some failure => result = .error failure
  | none => ∃ output, written = some output ∧ result = .ok output

namespace Answers

variable
  {Value Result : Type}
  {check later : Option FormatError}
  {written : Option Value}
  {result : Except FormatError Value}

theorem map
    (answers : Answers check written result)
    (finish : Value → Result) :
    Answers check (written.map finish) (result.map finish) := by
  cases check with
  | some failure =>
      have failed : result = .error failure := answers
      subst failed
      rfl
  | none =>
      obtain ⟨output, rfl, rfl⟩ := answers
      exact ⟨finish output, rfl, rfl⟩

/-- A call that goes on with another fails where the first of them fails. -/
theorem bind
    (answers : Answers check written result)
    (write : Value → Option Result)
    (call : Value → Except FormatError Result)
    (goesOn :
      ∀ value, written = some value → Answers later (write value) (call value)) :
    Answers (check.or later) (written.bind write) (result.bind call) := by
  cases check with
  | some failure =>
      have failed : result = .error failure := answers
      subst failed
      rfl
  | none =>
      obtain ⟨output, isOutput, rfl⟩ := answers
      have second := goesOn output isOutput
      subst isOutput
      exact second

/-- A call succeeds with what is written when its check finds no failure. -/
theorem eq_ok_iff
    (answers : Answers check written result)
    (output : Value) :
    result = .ok output ↔ check = none ∧ written = some output := by
  cases check with
  | some failure =>
      have failed : result = .error failure := answers
      simp [failed]
  | none =>
      obtain ⟨found, rfl, rfl⟩ := answers
      simp

end Answers

/-- A star takes the number of its argument, or fails as its slot does. -/
theorem Supply.nextNumber_answers
    (start : Nat)
    (argument : Argument)
    (rest : List Argument) :
    Answers (firstFailure? start [.star] (argument :: rest))
      (some (argument.starNumber, ⟨start + 1, rest⟩))
      (Supply.nextNumber ⟨start, argument :: rest⟩) := by
  cases argument with
  | signed value => exact ⟨_, rfl, rfl⟩
  | unsigned value => exact ⟨_, rfl, rfl⟩
  | character byte => rfl
  | text bytes => rfl
  | pointer address => rfl

namespace Directive

/-- A directive writes exactly the arguments that its value slot accepts. -/
theorem isSome_write?
    (directive : Directive)
    (argument : Argument) :
    (directive.write? argument).isSome =
      (Slot.value directive.conversion).accepts argument := by
  rcases directive with ⟨flags, width, precision, length, conversion⟩
  cases conversion <;> cases argument <;> rfl

theorem resolveWidth_answers
    (directive : Directive)
    (start : Nat)
    (arguments : List Argument) :
    Answers (firstFailure? start directive.width.slots arguments)
      (some (directive.settledWidth arguments,
        ⟨start + directive.width.slots.length,
          arguments.drop directive.width.slots.length⟩))
      (directive.resolveWidth ⟨start, arguments⟩) := by
  unfold resolveWidth settledWidth
  cases directive.width with
  | absent => exact ⟨_, rfl, rfl⟩
  | fixed value => exact ⟨_, rfl, rfl⟩
  | fromArgument =>
      cases arguments with
      | nil => rfl
      | cons argument rest =>
          have number := Supply.nextNumber_answers start argument rest
          exact number.map fun taken => (directive.withWidth taken.1, taken.2)

theorem resolvePrecision_answers
    (directive : Directive)
    (start : Nat)
    (arguments : List Argument) :
    Answers (firstFailure? start directive.precision.slots arguments)
      (some (directive.settledPrecision arguments,
        ⟨start + directive.precision.slots.length,
          arguments.drop directive.precision.slots.length⟩))
      (directive.resolvePrecision ⟨start, arguments⟩) := by
  unfold resolvePrecision settledPrecision
  cases directive.precision with
  | absent => exact ⟨_, rfl, rfl⟩
  | fixed value => exact ⟨_, rfl, rfl⟩
  | fromArgument =>
      cases arguments with
      | nil => rfl
      | cons argument rest =>
          have number := Supply.nextNumber_answers start argument rest
          exact
            number.map fun taken => (directive.withPrecision taken.1, taken.2)

@[simp] theorem precision_settledWidth
    (directive : Directive)
    (arguments : List Argument) :
    (directive.settledWidth arguments).precision = directive.precision := by
  unfold settledWidth
  split <;> rfl

@[simp] theorem conversion_settledWidth
    (directive : Directive)
    (arguments : List Argument) :
    (directive.settledWidth arguments).conversion = directive.conversion := by
  unfold settledWidth
  split <;> rfl

@[simp] theorem conversion_settledPrecision
    (directive : Directive)
    (arguments : List Argument) :
    (directive.settledPrecision arguments).conversion =
      directive.conversion := by
  unfold settledPrecision
  split <;> rfl

theorem resolve_answers
    (directive : Directive)
    (start : Nat)
    (arguments : List Argument) :
    let afterWidth := arguments.drop directive.width.slots.length
    Answers
      ((firstFailure? start directive.width.slots arguments).or
        (firstFailure? (start + directive.width.slots.length)
          directive.precision.slots afterWidth))
      (some ((directive.settledWidth arguments).settledPrecision afterWidth,
        ⟨start + directive.width.slots.length +
            directive.precision.slots.length,
          afterWidth.drop directive.precision.slots.length⟩))
      (directive.resolve ⟨start, arguments⟩) := by
  intro afterWidth
  have widened := directive.resolveWidth_answers start arguments
  have settled :=
    (directive.settledWidth arguments).resolvePrecision_answers
      (start + directive.width.slots.length) afterWidth
  rw [precision_settledWidth] at settled
  refine
    widened.bind (fun _ => some _)
      (fun taken => taken.1.resolvePrecision taken.2) ?_
  intro taken isTaken
  cases isTaken
  exact settled

/-- The value of a directive is taken from the argument of its last slot. -/
theorem writeNext_answers
    (directive : Directive)
    (start : Nat)
    (arguments : List Argument) :
    Answers (firstFailure? start [.value directive.conversion] arguments)
      ((arguments.head?.bind directive.write?).map
        (·, ⟨start + 1, arguments.tail⟩))
      (directive.writeNext ⟨start, arguments⟩) := by
  cases arguments with
  | nil => rfl
  | cons argument rest =>
      have accepted := isSome_write? directive argument
      cases written : directive.write? argument with
      | some bytes =>
          have nextWritten :
              directive.writeNext ⟨start, argument :: rest⟩ =
                .ok (bytes, ⟨start + 1, rest⟩) := by
            simp only [writeNext, Supply.next, bind, Except.bind, written]
            rfl
          rw [written] at accepted
          simp only [firstFailure?, ← accepted, Option.isSome_some, if_true]
          exact ⟨_, by simp [written], nextWritten⟩
      | none =>
          have nextFailed :
              directive.writeNext ⟨start, argument :: rest⟩ =
                .error
                  (.mismatchedArgument start directive.conversion.byte) := by
            simp only [writeNext, Supply.next, bind, Except.bind, written]
            rfl
          rw [written] at accepted
          simp only [firstFailure?, ← accepted, Option.isSome_none,
            Bool.false_eq_true, if_false]
          exact nextFailed

/--
A directive fails at its first slot that is not given, or it writes its
rendering and leaves the arguments behind its slots.
-/
theorem apply_answers
    (directive : Directive)
    (start : Nat)
    (arguments : List Argument) :
    Answers (firstFailure? start directive.slots arguments)
      ((directive.rendering? arguments).map
        (·, ⟨start + directive.slots.length,
          arguments.drop directive.slots.length⟩))
      (directive.apply ⟨start, arguments⟩) := by
  have slotCount :
      directive.slots.length =
        directive.width.slots.length +
          (directive.precision.slots.length + 1) := by
    simp only [slots, List.length_append, List.length_cons, List.length_nil]
  have behindSlots :
      Supply.mk (start + directive.slots.length)
          (arguments.drop directive.slots.length) =
        Supply.mk
          (start + directive.width.slots.length +
            directive.precision.slots.length + 1)
          ((arguments.drop directive.width.slots.length).drop
            directive.precision.slots.length).tail := by
    simp only [slotCount, List.tail_drop, List.drop_drop, Nat.add_assoc]
  have resolved := directive.resolve_answers start arguments
  have value :=
    ((directive.settledWidth arguments).settledPrecision
      (arguments.drop directive.width.slots.length)).writeNext_answers
      (start + directive.width.slots.length +
        directive.precision.slots.length)
      ((arguments.drop directive.width.slots.length).drop
        directive.precision.slots.length)
  rw [conversion_settledPrecision, conversion_settledWidth] at value
  have applied :=
    resolved.bind
      (fun ready =>
        (ready.2.remaining.head?.bind ready.1.write?).map fun bytes =>
          (bytes, Supply.mk (ready.2.taken + 1) ready.2.remaining.tail))
      (fun ready => ready.1.writeNext ready.2)
      fun ready isReady => by
        cases isReady
        exact value
  rw [Option.or_assoc, ← firstFailure?_append,
    ← firstFailure?_append] at applied
  rw [behindSlots]
  exact applied

end Directive

/--
Segments fail at the first of their slots that is not given, or each writes
its part.
-/
theorem formatSegments_answers
    (segments : List Segment)
    (start : Nat)
    (arguments : List Argument) :
    Answers (firstFailure? start (segments.flatMap Segment.slots) arguments)
      (written? segments arguments)
      (formatSegments ⟨start, arguments⟩ segments) := by
  induction segments generalizing start arguments with
  | nil =>
      exact ⟨[], rfl, rfl⟩
  | cons segment rest inductionHypothesis =>
      cases segment with
      | literal bytes =>
          exact (inductionHypothesis start arguments).map (bytes ++ ·)
      | percent =>
          exact (inductionHypothesis start arguments).map (ascii '%' :: ·)
      | directive directive =>
          have first := directive.apply_answers start arguments
          have later :=
            inductionHypothesis (start + directive.slots.length)
              (arguments.drop directive.slots.length)
          simp only [List.flatMap_cons, Segment.slots, firstFailure?_append]
          have both :=
            first.bind
              (fun taken =>
                (written? rest taken.2.remaining).map (taken.1 ++ ·))
              (fun taken => (formatSegments taken.2 rest).map (taken.1 ++ ·))
              fun taken isTaken => by
                obtain ⟨bytes, _, rfl⟩ := Option.map_eq_some_iff.mp isTaken
                exact later.map (bytes ++ ·)
          rw [Option.bind_map] at both
          exact both

/-- A call fails at the first slot of its template that is not given, or writes its segments. -/
theorem format_answers
    (template : Bytes)
    (arguments : List Argument) :
    Answers (firstFailure? 0 (slots template) arguments)
      (written? (segments template) arguments)
      (format template arguments) :=
  formatSegments_answers (segments template) 0 arguments

namespace Slot

variable
  {slot : Slot}
  {slots : List Slot}
  {argument : Argument}
  {arguments : List Argument}

theorem given_cons_zero :
    Given (slot :: slots) (argument :: arguments) 0 ↔
      slot.accepts argument = true := by
  simp [Given]

theorem given_cons_succ
    {index : Nat} :
    Given (slot :: slots) (argument :: arguments) (index + 1) ↔
      Given slots arguments index := by
  simp [Given]

theorem not_given_nil
    {index : Nat} :
    ¬ Given slots [] index := by
  simp [Given]

theorem filled_cons :
    Filled (slot :: slots) (argument :: arguments) ↔
      slot.accepts argument = true ∧ Filled slots arguments := by
  constructor
  · rintro ⟨enough, accepted⟩
    refine ⟨accepted 0 slot argument rfl rfl, ⟨by simpa using enough, ?_⟩⟩
    intro index
    exact accepted (index + 1)
  · rintro ⟨headAccepted, enough, accepted⟩
    refine ⟨by simpa using enough, ?_⟩
    intro index given value isSlot isArgument
    cases index with
    | zero =>
        cases isSlot
        cases isArgument
        exact headAccepted
    | succ index =>
        exact accepted index given value isSlot isArgument

/-- Behind a slot that is given, the first failing slot is that of the rest. -/
theorem firstFailing_cons_succ
    {failing : Slot}
    {index : Nat}
    (accepted : slot.accepts argument = true) :
    FirstFailing (slot :: slots) (argument :: arguments) (index + 1) failing ↔
      FirstFailing slots arguments index failing := by
  constructor
  · rintro ⟨isSlot, fails, earlierGiven⟩
    refine ⟨isSlot, fun given => fails (given_cons_succ.mpr given), ?_⟩
    intro earlier before
    exact
      given_cons_succ.mp
        (earlierGiven (earlier + 1) (Nat.succ_lt_succ before))
  · rintro ⟨isSlot, fails, earlierGiven⟩
    refine ⟨isSlot, fun given => fails (given_cons_succ.mp given), ?_⟩
    intro earlier before
    cases earlier with
    | zero => exact given_cons_zero.mpr accepted
    | succ earlier =>
        exact
          given_cons_succ.mpr
            (earlierGiven earlier (Nat.lt_of_succ_lt_succ before))

theorem firstFailing_of_head
    {failing : Slot}
    {index : Nat}
    (headFails : ¬ Given (slot :: slots) arguments 0) :
    FirstFailing (slot :: slots) arguments index failing ↔
      index = 0 ∧ failing = slot := by
  constructor
  · rintro ⟨isSlot, _, earlierGiven⟩
    cases index with
    | zero =>
        cases isSlot
        exact ⟨rfl, rfl⟩
    | succ index =>
        exact absurd (earlierGiven 0 (Nat.succ_pos index)) headFails
  · rintro ⟨rfl, rfl⟩
    exact ⟨rfl, headFails, fun _ before => absurd before (Nat.not_lt_zero _)⟩

end Slot

theorem firstFailure?_eq_none_iff
    (start : Nat)
    (slots : List Slot)
    (arguments : List Argument) :
    firstFailure? start slots arguments = none ↔
      Slot.Filled slots arguments := by
  induction slots generalizing start arguments with
  | nil =>
      simp only [firstFailure?, true_iff]
      exact ⟨Nat.zero_le _, by simp⟩
  | cons slot rest inductionHypothesis =>
      cases arguments with
      | nil =>
          simp only [firstFailure?, reduceCtorEq, false_iff]
          intro filled
          exact absurd filled.enough (by simp)
      | cons argument others =>
          rw [Slot.filled_cons, ← inductionHypothesis (start + 1)]
          by_cases accepted : slot.accepts argument = true
          · simp [firstFailure?, accepted]
          · simp [firstFailure?, accepted]

/-- The failure that is found is that of the first failing slot. -/
theorem firstFailure?_eq_some_iff
    (start : Nat)
    (slots : List Slot)
    (arguments : List Argument)
    (failure : FormatError) :
    firstFailure? start slots arguments = some failure ↔
      ∃ index slot,
        Slot.FirstFailing slots arguments index slot ∧
          ((index = arguments.length ∧
              failure = .missingArgument (start + index)) ∨
            (index < arguments.length ∧
              failure = .mismatchedArgument (start + index) slot.letter)) := by
  induction slots generalizing start arguments with
  | nil =>
      simp only [firstFailure?, reduceCtorEq, false_iff]
      rintro ⟨index, slot, failing, _⟩
      exact absurd failing.isSlot (by simp)
  | cons slot rest inductionHypothesis =>
      cases arguments with
      | nil =>
          simp [firstFailure?, Slot.firstFailing_of_head Slot.not_given_nil,
            eq_comm]
      | cons argument others =>
          by_cases accepted : slot.accepts argument = true
          · simp only [firstFailure?, accepted, if_true, inductionHypothesis]
            constructor
            · rintro ⟨index, failingSlot, failing, outcome⟩
              have failingLater :=
                (Slot.firstFailing_cons_succ accepted).mpr failing
              refine ⟨index + 1, failingSlot, failingLater, ?_⟩
              have shift : start + (index + 1) = start + 1 + index := by
                omega
              simpa only [List.length_cons, Nat.add_left_inj,
                Nat.add_lt_add_iff_right, shift] using outcome
            · rintro ⟨index, failingSlot, failing, outcome⟩
              cases index with
              | zero =>
                  exact absurd (Slot.given_cons_zero.mpr accepted) failing.fails
              | succ index =>
                  have failingEarlier :=
                    (Slot.firstFailing_cons_succ accepted).mp failing
                  refine ⟨index, failingSlot, failingEarlier, ?_⟩
                  have shift : start + (index + 1) = start + 1 + index := by
                    omega
                  simpa only [List.length_cons, Nat.add_left_inj,
                    Nat.add_lt_add_iff_right, shift] using outcome
          · have headFails :
                ¬ Slot.Given (slot :: rest) (argument :: others) 0 := by
              rwa [Slot.given_cons_zero]
            simp [firstFailure?, accepted, Slot.firstFailing_of_head headFails,
              eq_comm]

/--
A call succeeds exactly when every slot of its template is filled, and then
writes every segment with the arguments of its slots.  Otherwise it reports the
first failing slot: that there is no argument of its index, or that the one
there does not match.
-/
theorem format_slots
    (template : Bytes)
    (arguments : List Argument) :
    ((∃ output, format template arguments = .ok output) ↔
        Slot.Filled (slots template) arguments) ∧
      (∀ output,
        format template arguments = .ok output ↔
          Slot.Filled (slots template) arguments ∧
            written? (segments template) arguments = some output) ∧
      ∀ failure,
        format template arguments = .error failure ↔
          ∃ index slot,
            Slot.FirstFailing (slots template) arguments index slot ∧
              ((index = arguments.length ∧ failure = .missingArgument index) ∨
                (index < arguments.length ∧
                  failure = .mismatchedArgument index slot.letter)) := by
  have answers := formatSegments_answers (segments template) 0 arguments
  change Answers (firstFailure? 0 (slots template) arguments) _
    (format template arguments) at answers
  rw [← firstFailure?_eq_none_iff 0]
  cases check : firstFailure? 0 (slots template) arguments with
  | some found =>
      have failed : format template arguments = .error found := by
        rwa [check] at answers
      refine ⟨by simp [failed], by simp [failed], ?_⟩
      intro failure
      have characterized :=
        firstFailure?_eq_some_iff 0 (slots template) arguments failure
      simp only [check, Option.some.injEq, Nat.zero_add] at characterized
      rw [failed, ← characterized]
      simp
  | none =>
      rw [check] at answers
      obtain ⟨output, written, formatted⟩ := answers
      refine ⟨by simp [formatted], by simp [formatted, written], ?_⟩
      intro failure
      have characterized :=
        firstFailure?_eq_some_iff 0 (slots template) arguments failure
      simp only [check, Nat.zero_add] at characterized
      rw [formatted, ← characterized]
      simp

-- With its sign the number has one byte more than a word can count, so that none is counted.
example :
    (format (Bytes.ofText "%+10.18446744073709551615d") [.signed 1]).map
        (fun output => (output.length, output.take 12)) =
      .ok (4108, Bytes.ofText "          +0") := by
  decide +kernel

end Format

end LibcConformance
