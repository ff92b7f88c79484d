import LibcConformance.Proofs.Format.DecimalQuantity
import LibcConformance.Proofs.Format.IntegerField
import LibcConformance.Proofs.Format.Slots

namespace LibcConformance

/-!
# Characters and the numbers they are promoted to

A slot that takes a character also takes the number that it is promoted to.
The two are written the same, with one exception: a signed directive with the
modifier `hh` looks at eight bits of a number and reads 128 and above as
negative, but it shows a character as it is.  So a call that succeeds gives the
same output for both unless such a character is among those replaced, and a call
that fails reports the same failure.
-/

namespace Format

/-- What a directive asks of an argument: to fit its slot, under its modifier. -/
structure Request where
  slot : Slot
  length : LengthModifier
  deriving Repr, DecidableEq

namespace Request

/-- The slots of signed directives and of characters take characters. -/
def TakesCharacter (request : Request) : Prop :=
  request.slot = .value .decimal ∨ request.slot = .value .integer ∨
    request.slot = .value .character

/-- Eight bits of a number are read as negative where a character is not. -/
structure ReadsNegative (request : Request) (byte : UInt8) : Prop where
  signed : request.slot = .value .decimal ∨ request.slot = .value .integer
  eightBits : request.length = .hh
  high : 128 ≤ byte.toNat

end Request

def Directive.requests (directive : Directive) : List Request :=
  directive.slots.map fun slot => ⟨slot, directive.length⟩

def Segment.requests : Segment → List Request
  | .directive asked => asked.requests
  | _ => []

/-- The requests of a template, in the order in which it takes its arguments. -/
def requests (template : Bytes) : List Request :=
  (segments template).flatMap Segment.requests

/--
Some characters among arguments are replaced by the numbers they are promoted
to, each in a slot that takes characters.  They are listed with the requests
that they answer.
-/
inductive Promotes :
    List Request →
    List Argument →
    List Argument →
    List (Request × UInt8) → Prop where
  | nil
      (requests : List Request) :
      Promotes requests [] [] []
  | keep
      {requests : List Request}
      {arguments promoted : List Argument}
      {replaced : List (Request × UInt8)}
      (argument : Argument)
      (later : Promotes requests.tail arguments promoted replaced) :
      Promotes requests (argument :: arguments) (argument :: promoted) replaced
  | replace
      {request : Request}
      {requests : List Request}
      {arguments promoted : List Argument}
      {replaced : List (Request × UInt8)}
      (byte : UInt8)
      (value : Int64)
      (sameNumber : value.toInt = byte.toNat)
      (takes : request.TakesCharacter)
      (later : Promotes requests arguments promoted replaced) :
      Promotes (request :: requests) (.character byte :: arguments)
        (.signed value :: promoted) ((request, byte) :: replaced)

/-- None of the characters that are replaced is read as a negative number. -/
def NoneNegative (replaced : List (Request × UInt8)) : Prop :=
  ∀ entry ∈ replaced, ¬ entry.1.ReadsNegative entry.2

/-- Two outputs are the same, or the second has more minus signs if a number is negative. -/
structure Alters
    (replaced : List (Request × UInt8))
    (output other : Bytes) : Prop where
  same : NoneNegative replaced → other = output
  minus :
    ¬ NoneNegative replaced →
      output.count (ascii '-') < other.count (ascii '-')

theorem noneNegative_append
    {first second : List (Request × UInt8)} :
    NoneNegative (first ++ second) ↔
      NoneNegative first ∧ NoneNegative second :=
  List.forall_mem_append

theorem noneNegative_singleton
    {request : Request}
    {byte : UInt8} :
    NoneNegative [(request, byte)] ↔ ¬ request.ReadsNegative byte :=
  List.forall_mem_singleton

namespace Alters

variable
  {first second replaced : List (Request × UInt8)}
  {output other front back otherFront otherBack : Bytes}

theorem refl
    (output : Bytes) :
    Alters [] output output :=
  ⟨fun _ => rfl, fun negative => absurd (List.forall_mem_nil _) negative⟩

theorem count_le
    (alters : Alters replaced output other) :
    output.count (ascii '-') ≤ other.count (ascii '-') := by
  by_cases nonnegative : NoneNegative replaced
  · rw [alters.same nonnegative]
  · exact (alters.minus nonnegative).le

/-- Outputs in a row are altered if one of them is. -/
theorem append
    (altersFront : Alters first front otherFront)
    (altersBack : Alters second back otherBack) :
    Alters (first ++ second) (front ++ back) (otherFront ++ otherBack) := by
  constructor
  case same =>
    intro nonnegative
    obtain ⟨noneFirst, noneSecond⟩ := noneNegative_append.mp nonnegative
    rw [altersFront.same noneFirst, altersBack.same noneSecond]
  case minus =>
    intro negative
    rw [List.count_append, List.count_append]
    by_cases noneFirst : NoneNegative first
    · have negativeSecond : ¬ NoneNegative second := fun noneSecond =>
        negative (noneNegative_append.mpr ⟨noneFirst, noneSecond⟩)
      exact
        Nat.add_lt_add_of_le_of_lt altersFront.count_le
          (altersBack.minus negativeSecond)
    · exact
        Nat.add_lt_add_of_lt_of_le (altersFront.minus noneFirst)
          altersBack.count_le

/-- What is the same on both sides does not count. -/
theorem append_left
    (shared : Bytes)
    (alters : Alters replaced output other) :
    Alters replaced (shared ++ output) (shared ++ other) :=
  (refl shared).append alters

theorem eq_iff
    (alters : Alters replaced output other) :
    other = output ↔ NoneNegative replaced := by
  refine ⟨fun same => ?_, alters.same⟩
  by_contra negative
  have more := alters.minus negative
  rw [same] at more
  exact absurd more (Nat.lt_irrefl _)

end Alters

namespace Directive

theorem count_padding
    {byte : UInt8}
    (notMinus : byte ≠ ascii '-')
    (count : Nat) :
    (padding byte count).count (ascii '-') = 0 := by
  rw [padding, List.count_replicate, if_neg (by simpa using notMinus)]

theorem count_layoutInteger
    (directive : Directive)
    (lead : Bytes)
    {numeral : Bytes}
    (noMinus : numeral.count (ascii '-') = 0) :
    (directive.layoutInteger lead numeral).count (ascii '-') =
      lead.count (ascii '-') := by
  have noZeroMinus
      (count : Nat) :
      (padding (ascii '0') count).count (ascii '-') = 0 :=
    count_padding (by decide) count
  have noSpaceMinus
      (count : Nat) :
      (padding (ascii ' ') count).count (ascii '-') = 0 :=
    count_padding (by decide) count
  have noDigitMinus :
      (if numeral = [ascii '0'] ∧ directive.precision = .fixed 0 then
          []
        else
          numeral).count (ascii '-') = 0 := by
    split
    · rfl
    · exact noMinus
  simp only [layoutInteger]
  split_ifs at noDigitMinus ⊢ <;>
    simp only [List.count_append, noZeroMinus, noSpaceMinus, noDigitMinus,
      Nat.add_zero, Nat.zero_add]

/-- A signed number is written with a minus sign exactly if it is negative. -/
theorem count_writeSigned
    (directive : Directive)
    (value : Int) :
    (directive.writeSigned value).count (ascii '-') =
      if value < 0 then 1 else 0 := by
  have noMinus :
      (Numeral.bytes 10 false value.natAbs).count (ascii '-') = 0 := by
    rw [List.count_eq_zero]
    intro member
    have digit := (decimal_run value.natAbs).1 _ member
    exact absurd digit (by decide)
  rw [writeSigned, count_layoutInteger _ _ noMinus, signLead]
  split_ifs <;> decide

/-- Eight bits of a number that a byte stands for are read as it, or as negative. -/
theorem narrowSigned_byte
    (directive : Directive)
    (byte : UInt8) :
    directive.narrowSigned byte.toNat =
      if directive.length = .hh ∧ 128 ≤ byte.toNat then
        (byte.toNat : Int) - 256
      else
        byte.toNat := by
  have below := byte.toNat_lt
  rw [narrowSigned]
  generalize byte.toNat = number at below ⊢
  cases directive.length with
  | hh =>
      simp only [LengthModifier.range, Int.bmod, true_and]
      split_ifs <;> omega
  | _ =>
      simp only [LengthModifier.range, wordSize, Int.bmod, reduceCtorEq,
        false_and, if_false]
      split_ifs <;> omega

/-- A signed directive shows a byte as it is, and the number promoted from it perhaps not. -/
theorem alters_writeSigned
    {directive : Directive}
    (signed :
      directive.conversion = .decimal ∨ directive.conversion = .integer)
    (byte : UInt8) :
    Alters [(⟨.value directive.conversion, directive.length⟩, byte)]
      (directive.writeSigned byte.toNat)
      (directive.writeSigned (directive.narrowSigned byte.toNat)) := by
  have negativeIff :
      Request.ReadsNegative ⟨.value directive.conversion, directive.length⟩
          byte ↔
        directive.length = .hh ∧ 128 ≤ byte.toNat := by
    constructor
    · exact fun negative => ⟨negative.eightBits, negative.high⟩
    · rintro ⟨eightBits, high⟩
      exact ⟨by simpa using signed, eightBits, high⟩
  constructor
  case same =>
    intro nonnegative
    have notNegative := noneNegative_singleton.mp nonnegative
    rw [narrowSigned_byte, if_neg (negativeIff.not.mp notNegative)]
  case minus =>
    intro someNegative
    have negative :=
      Classical.not_not.mp (noneNegative_singleton.not.mp someNegative)
    have below : (byte.toNat : Int) - 256 < 0 := by
      have small := byte.toNat_lt
      omega
    have notBelow : ¬ (byte.toNat : Int) < 0 := by
      omega
    rw [count_writeSigned, count_writeSigned, narrowSigned_byte,
      if_pos (negativeIff.mp negative), if_pos below, if_neg notBelow]
    exact Nat.zero_lt_one

/-- A character and the number it is promoted to are written alike, unless that is negative. -/
theorem alters_write?
    {directive : Directive}
    {byte : UInt8}
    {value : Int64}
    (sameNumber : value.toInt = byte.toNat)
    {output other : Bytes}
    (written : directive.write? (.character byte) = some output)
    (writtenNumber : directive.write? (.signed value) = some other) :
    Alters [(⟨.value directive.conversion, directive.length⟩, byte)]
      output other := by
  rcases directive with ⟨flags, width, precision, length, conversion⟩
  cases conversion with
  | decimal =>
      simp only [write?, Option.some.injEq, sameNumber] at written writtenNumber
      subst written writtenNumber
      exact alters_writeSigned (.inl rfl) byte
  | integer =>
      simp only [write?, Option.some.injEq, sameNumber] at written writtenNumber
      subst written writtenNumber
      exact alters_writeSigned (.inr rfl) byte
  | character =>
      have sameByte : UInt8.ofNat (value.toInt % 256).toNat = byte := by
        have below : (byte.toNat : Int) < 256 := by
          exact_mod_cast byte.toNat_lt
        rw [sameNumber, Int.emod_eq_of_lt (by omega) below, Int.toNat_natCast,
          UInt8.ofNat_toNat]
      simp only [write?, Option.some.injEq, sameByte] at written writtenNumber
      subst written writtenNumber
      have notNegative :
          ¬ Request.ReadsNegative ⟨.value .character, length⟩ byte := by
        intro negative
        rcases negative.signed with same | same <;> cases same
      exact
        ⟨fun _ => rfl,
          fun someNegative =>
            absurd (noneNegative_singleton.mpr notNegative) someNegative⟩
  | _ => cases written

end Directive

section Requests

variable
  {request : Request}
  {requests : List Request}
  {arguments promoted : List Argument}
  {replaced : List (Request × UInt8)}

theorem Request.TakesCharacter.accepts
    (takes : request.TakesCharacter)
    (byte : UInt8)
    (value : Int64) :
    request.slot.accepts (.character byte) = true ∧
      request.slot.accepts (.signed value) = true := by
  rcases takes with isSlot | isSlot | isSlot <;> rw [isSlot] <;> exact ⟨rfl, rfl⟩

/-- Slots fail at the same place whether or not characters are replaced. -/
theorem Promotes.firstFailure?_eq
    (promotes : Promotes requests arguments promoted replaced)
    (start : Nat) :
    firstFailure? start (requests.map Request.slot) promoted =
      firstFailure? start (requests.map Request.slot) arguments := by
  induction promotes generalizing start with
  | nil => rfl
  | @keep requests _ _ _ argument later inductionHypothesis =>
      cases requests with
      | nil => rfl
      | cons first rest =>
          simp only [List.tail_cons] at inductionHypothesis
          simp only [List.map_cons, firstFailure?, inductionHypothesis]
  | replace byte value sameNumber takes later inductionHypothesis =>
      obtain ⟨takesCharacter, takesNumber⟩ := takes.accepts byte value
      simp only [List.map_cons, firstFailure?, takesCharacter, takesNumber,
        if_true, inductionHypothesis]

/-- A star takes no character, so its argument is the same. -/
theorem Promotes.star
    {length : LengthModifier}
    (promotes :
      Promotes (⟨.star, length⟩ :: requests) arguments promoted replaced) :
    promoted.head? = arguments.head? ∧
      Promotes requests arguments.tail promoted.tail replaced := by
  cases promotes with
  | nil => exact ⟨rfl, .nil requests⟩
  | keep argument later => exact ⟨rfl, later⟩
  | replace byte value sameNumber takes later =>
      rcases takes with isSlot | isSlot | isSlot <;> cases isSlot

/-- Where no request is left, no character is replaced. -/
theorem Promotes.replaced_eq_nil
    (promotes : Promotes requests arguments promoted replaced)
    (noRequests : requests = []) :
    replaced = [] := by
  induction promotes with
  | nil => rfl
  | keep argument later inductionHypothesis =>
      exact inductionHypothesis (by rw [noRequests]; rfl)
  | replace => cases noRequests

/-- The argument of a width or a precision, if it takes one, is the same. -/
theorem Promotes.amount
    {amount : Amount}
    {length : LengthModifier}
    (promotes :
      Promotes (amount.slots.map (Request.mk · length) ++ requests) arguments
        promoted replaced) :
    (amount = .fromArgument → promoted.head? = arguments.head?) ∧
      Promotes requests (arguments.drop amount.slots.length)
        (promoted.drop amount.slots.length) replaced := by
  cases amount with
  | absent => exact ⟨nofun, promotes⟩
  | fixed value => exact ⟨nofun, promotes⟩
  | fromArgument =>
      obtain ⟨sameHead, later⟩ := promotes.star
      rw [← List.drop_one, ← List.drop_one] at later
      exact ⟨fun _ => sameHead, later⟩

/-- The value of a directive is written alike, and the rest is for later requests. -/
theorem Promotes.value
    {directive : Directive}
    {output other : Bytes}
    (promotes :
      Promotes
        (⟨.value directive.conversion, directive.length⟩ :: requests) arguments
        promoted replaced)
    (written : arguments.head?.bind directive.write? = some output)
    (writtenPromoted : promoted.head?.bind directive.write? = some other) :
    ∃ first second,
      replaced = first ++ second ∧
        Alters first output other ∧
          Promotes requests arguments.tail promoted.tail second := by
  cases promotes with
  | nil => cases written
  | keep argument later =>
      have sameOutput : some output = some other :=
        written.symm.trans writtenPromoted
      cases sameOutput
      exact ⟨[], _, rfl, .refl output, later⟩
  | replace byte value sameNumber takes later =>
      exact
        ⟨[_], _, rfl,
          Directive.alters_write? sameNumber written writtenPromoted, later⟩

end Requests

namespace Directive

variable
  {directive : Directive}
  {arguments promoted : List Argument}

theorem settledWidth_congr
    (sameHead :
      directive.width = .fromArgument → promoted.head? = arguments.head?) :
    directive.settledWidth promoted = directive.settledWidth arguments := by
  unfold settledWidth
  cases given : directive.width with
  | absent | fixed => rfl
  | fromArgument =>
      have same := sameHead given
      cases arguments <;> cases promoted <;> cases same <;> rfl

theorem settledPrecision_congr
    (sameHead :
      directive.precision = .fromArgument → promoted.head? = arguments.head?) :
    directive.settledPrecision promoted =
      directive.settledPrecision arguments := by
  unfold settledPrecision
  cases given : directive.precision with
  | absent | fixed => rfl
  | fromArgument =>
      have same := sameHead given
      cases arguments <;> cases promoted <;> cases same <;> rfl

theorem length_settledWidth
    (directive : Directive)
    (arguments : List Argument) :
    (directive.settledWidth arguments).length = directive.length := by
  unfold settledWidth
  split <;> rfl

theorem length_settledPrecision
    (directive : Directive)
    (arguments : List Argument) :
    (directive.settledPrecision arguments).length = directive.length := by
  unfold settledPrecision
  split <;> rfl

/-- A directive writes its value alike and leaves the other arguments for later requests. -/
theorem exists_alters_rendering?
    {requests : List Request}
    {replaced : List (Request × UInt8)}
    {output other : Bytes}
    (promotes :
      Promotes (directive.requests ++ requests) arguments promoted replaced)
    (rendered : directive.rendering? arguments = some output)
    (renderedPromoted : directive.rendering? promoted = some other) :
    ∃ first second,
      replaced = first ++ second ∧
        Alters first output other ∧
          Promotes requests (arguments.drop directive.slots.length)
            (promoted.drop directive.slots.length) second := by
  let settled :=
    (directive.settledWidth arguments).settledPrecision
      (arguments.drop directive.width.slots.length)
  simp only [Directive.requests, slots, List.map_append, List.append_assoc]
    at promotes
  obtain ⟨sameWidth, afterWidth⟩ := promotes.amount
  obtain ⟨samePrecision, afterPrecision⟩ := afterWidth.amount
  have settledSame :
      (directive.settledWidth promoted).settledPrecision
          (promoted.drop directive.width.slots.length) =
        settled := by
    rw [settledWidth_congr sameWidth]
    apply settledPrecision_congr
    rwa [precision_settledWidth]
  have atValue :
      Promotes (⟨.value settled.conversion, settled.length⟩ :: requests)
        ((arguments.drop directive.width.slots.length).drop
          directive.precision.slots.length)
        ((promoted.drop directive.width.slots.length).drop
          directive.precision.slots.length)
        replaced := by
    rw [conversion_settledPrecision, conversion_settledWidth,
      length_settledPrecision, length_settledWidth]
    exact afterPrecision
  simp only [rendering?, settledSame] at renderedPromoted
  obtain ⟨first, second, parts, alters, later⟩ :=
    atValue.value rendered renderedPromoted
  refine ⟨first, second, parts, alters, ?_⟩
  simpa only [slots, List.length_append, List.length_singleton, List.tail_drop,
    List.drop_drop, Nat.add_assoc] using later

end Directive

/-- What segments write is altered only by characters that are read as negative. -/
theorem Promotes.alters_written?
    {pieces : List Segment}
    {arguments promoted : List Argument}
    {replaced : List (Request × UInt8)}
    {output other : Bytes}
    (promotes :
      Promotes (pieces.flatMap Segment.requests) arguments promoted replaced)
    (written : written? pieces arguments = some output)
    (writtenPromoted : written? pieces promoted = some other) :
    Alters replaced output other := by
  induction pieces generalizing arguments promoted replaced output other with
  | nil =>
      cases written
      cases writtenPromoted
      rw [promotes.replaced_eq_nil rfl]
      exact .refl []
  | cons piece rest inductionHypothesis =>
      cases piece with
      | literal bytes =>
          obtain ⟨_, writtenLater, rfl⟩ := Option.map_eq_some_iff.mp written
          obtain ⟨_, promotedLater, rfl⟩ :=
            Option.map_eq_some_iff.mp writtenPromoted
          exact
            (inductionHypothesis promotes writtenLater promotedLater).append_left
              bytes
      | percent =>
          obtain ⟨_, writtenLater, rfl⟩ := Option.map_eq_some_iff.mp written
          obtain ⟨_, promotedLater, rfl⟩ :=
            Option.map_eq_some_iff.mp writtenPromoted
          exact
            (inductionHypothesis promotes writtenLater promotedLater).append_left
              [ascii '%']
      | directive directive =>
          obtain ⟨bytes, rendered, goesOn⟩ := Option.bind_eq_some_iff.mp written
          obtain ⟨_, writtenLater, rfl⟩ := Option.map_eq_some_iff.mp goesOn
          obtain ⟨otherBytes, renderedPromoted, promotedGoesOn⟩ :=
            Option.bind_eq_some_iff.mp writtenPromoted
          obtain ⟨_, promotedLater, rfl⟩ :=
            Option.map_eq_some_iff.mp promotedGoesOn
          obtain ⟨first, second, rfl, alters, later⟩ :=
            Directive.exists_alters_rendering? promotes rendered
              renderedPromoted
          exact
            alters.append (inductionHypothesis later writtenLater promotedLater)

theorem slots_eq_map_requests
    (template : Bytes) :
    slots template = (requests template).map Request.slot := by
  rw [slots, requests, List.map_flatMap]
  congr 1
  funext piece
  cases piece with
  | literal bytes => rfl
  | percent => rfl
  | directive directive =>
      simp [Segment.slots, Segment.requests, Directive.requests,
        Function.comp_def]

/--
A call with characters replaced by the numbers they are promoted to fails as
the call without does.  It has the same result exactly if that one fails, or no
character that is replaced is read as a negative number.
-/
theorem format_promoted
    {template : Bytes}
    {arguments promoted : List Argument}
    {replaced : List (Request × UInt8)}
    (promotes : Promotes (requests template) arguments promoted replaced) :
    (∀ failure,
        format template promoted = .error failure ↔
          format template arguments = .error failure) ∧
      (format template promoted = format template arguments ↔
        (∃ failure, format template arguments = .error failure) ∨
          NoneNegative replaced) := by
  have sameCheck :
      firstFailure? 0 (slots template) promoted =
        firstFailure? 0 (slots template) arguments := by
    rw [slots_eq_map_requests]
    exact promotes.firstFailure?_eq 0
  have answers := format_answers template arguments
  have answersPromoted := format_answers template promoted
  rw [sameCheck] at answersPromoted
  cases check : firstFailure? 0 (slots template) arguments with
  | some found =>
      rw [check] at answers answersPromoted
      have failed : format template arguments = .error found := answers
      have promotedFailed : format template promoted = .error found :=
        answersPromoted
      rw [failed, promotedFailed]
      exact ⟨fun _ => Iff.rfl, by simp⟩
  | none =>
      rw [check] at answers answersPromoted
      obtain ⟨output, written, formatted⟩ := answers
      obtain ⟨other, writtenPromoted, formattedPromoted⟩ := answersPromoted
      have alters : Alters replaced output other :=
        promotes.alters_written? written writtenPromoted
      rw [formatted, formattedPromoted, Except.ok.injEq, alters.eq_iff]
      exact ⟨by simp, by simp⟩

/-- Characters of 200 that no directive reads as negative, and one of 65 that eight bits hold. -/
theorem format_promoted_threeCharacters :
    let template := Bytes.ofText "%+hd|%-5hhi|%c"
    let arguments : List Argument :=
      [.character 200, .character 65, .character 200]
    let promoted : List Argument := [.signed 200, .signed 65, .signed 200]
    let replaced : List (Request × UInt8) :=
      [(⟨.value .decimal, .h⟩, 200), (⟨.value .integer, .hh⟩, 65),
        (⟨.value .character, .absent⟩, 200)]
    Promotes (requests template) arguments promoted replaced ∧
      NoneNegative replaced ∧
        format template promoted = format template arguments := by
  intro template arguments promoted replaced
  have asked :
      requests template =
        [⟨.value .decimal, .h⟩, ⟨.value .integer, .hh⟩,
          ⟨.value .character, .absent⟩] := by
    decide +kernel
  have promotes :
      Promotes (requests template) arguments promoted replaced := by
    rw [asked]
    exact
      .replace 200 200 (by decide) (.inl rfl) <|
        .replace 65 65 (by decide) (.inr (.inl rfl)) <|
          .replace 200 200 (by decide) (.inr (.inr rfl)) (.nil [])
  have nonnegative : NoneNegative replaced := by
    intro entry member negative
    simp only [replaced, List.mem_cons, List.not_mem_nil, or_false] at member
    rcases member with rfl | rfl | rfl
    · cases negative.eightBits
    · exact absurd negative.high (by decide)
    · cases negative.eightBits
  exact
    ⟨promotes, nonnegative, (format_promoted promotes).2.mpr (.inr nonnegative)⟩

/-- The byte 255 is shown as it is, and the number promoted from it as minus one. -/
theorem format_promoted_highByte :
    let template := Bytes.ofText "%hhd"
    Promotes (requests template) [.character 255] [.signed 255]
        [(⟨.value .decimal, .hh⟩, 255)] ∧
      format template [.character 255] = .ok (Bytes.ofText "255") ∧
        format template [.signed 255] = .ok (Bytes.ofText "-1") ∧
          format template [.signed 255] ≠ format template [.character 255] := by
  intro template
  have pieces :
      segments template =
        [.directive { Directive.plain .decimal with length := .hh }] := by
    decide +kernel
  have asked : requests template = [⟨.value .decimal, .hh⟩] := by
    rw [requests, pieces]
    rfl
  have asItIs : format template [.character 255] = .ok (Bytes.ofText "255") := by
    rw [format, pieces]
    decide +kernel
  have asNumber : format template [.signed 255] = .ok (Bytes.ofText "-1") := by
    rw [format, pieces]
    decide +kernel
  refine ⟨?_, asItIs, asNumber, ?_⟩
  · rw [asked]
    exact .replace 255 255 (by decide) (.inl rfl) (.nil [])
  · rw [asItIs, asNumber]
    decide

end Format

end LibcConformance
