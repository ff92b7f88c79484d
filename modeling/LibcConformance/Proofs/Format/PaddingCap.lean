import LibcConformance.Proofs.Format.IntegerField
import LibcConformance.Proofs.Format.Slots

namespace LibcConformance

/-!
# How much a directive pads

A directive shows a lead and a body, and puts two runs of padding to them: the
zeros that its precision asks for and the fill that its width asks for.  Each
run is cut at 4096 bytes by itself.  So a directive that asks for one of them
only stays within 4096 bytes of padding, but an integer with a width and a
precision can go beyond, up to twice as many.
-/

namespace Format

/-- What a directive shows of an argument: a sign or a mark of the radix, and what follows it. -/
structure Shown where
  lead : Bytes
  body : Bytes
  deriving Repr, DecidableEq

/-- The number of bytes that are shown, without any padding. -/
def Shown.size (shown : Shown) : Nat :=
  shown.lead.length + shown.body.length

namespace Conversion

def isInteger (conversion : Conversion) : Bool :=
  conversion.isSigned || conversion.isUnsigned

end Conversion

namespace Directive

/-- The sign of a value, or the mark of the radix that it is written in. -/
def mark (directive : Directive) (value : Int) : Bytes :=
  if directive.conversion.isSigned then
    directive.signLead value
  else if directive.flags.alternate ∧ value ≠ 0 then
    directive.conversion.alternateLead
  else
    []

/-- A value between its padding; zero has no digits at precision zero. -/
def shownInteger (directive : Directive) (value : Int) : Shown where
  lead := directive.mark value
  body :=
    if value = 0 ∧ directive.precision = .fixed 0 then
      []
    else
      directive.numeral value

/-- What a directive shows of an argument that it takes. -/
def shown (directive : Directive) : Argument → Shown
  | .signed value =>
      if directive.conversion = .character then
        ⟨[], [UInt8.ofNat (value.toInt % 256).toNat]⟩
      else
        directive.shownInteger (directive.taken value.toInt)
  | .unsigned value => directive.shownInteger (directive.taken value.toNat)
  | .character byte =>
      if directive.conversion = .character then
        ⟨[], [byte]⟩
      else
        directive.shownInteger byte.toNat
  | .text bytes =>
      match directive.precision with
      | .fixed limit => ⟨[], bytes.take limit.toNat⟩
      | _ => ⟨[], bytes⟩
  | .pointer address =>
      if address = 0 then
        ⟨[], Bytes.ofText "(nil)"⟩
      else
        ⟨[], Bytes.ofText "0x" ++ Numeral.bytes 16 false address.toNat⟩

/-- The zeros that a precision asks for; it cuts a string, and says nothing to other values. -/
def askedZeros (directive : Directive) (shown : Shown) : Nat :=
  if directive.conversion.isInteger then
    directive.precision.number - shown.body.length
  else
    0

/-- The fill that a width asks for around what is shown, an integer with its zeros. -/
def askedFill (directive : Directive) (shown : Shown) : Nat :=
  directive.width.number -
    if directive.conversion.isInteger then
      directive.integerSize shown.lead shown.body
    else
      shown.size

/-- The bytes of padding around an argument: zeros and fill, each of them cut. -/
def cutPadding (directive : Directive) (argument : Argument) : Nat :=
  min (directive.askedZeros (directive.shown argument)) 4096 +
    min (directive.askedFill (directive.shown argument)) 4096

/-- A directive that cannot ask for zeros and for fill at once. -/
def PadsOnce (directive : Directive) : Prop :=
  directive.conversion.isInteger = false ∨
    directive.width = .absent ∨ directive.precision = .absent

/-- A directive whose stars have taken their arguments. -/
def settled
    (directive : Directive)
    (arguments : List Argument) : Directive :=
  (directive.settledWidth arguments).settledPrecision
    (arguments.drop directive.width.slots.length)

/-- The argument of the value slot of a directive. -/
def valueArgument?
    (directive : Directive)
    (arguments : List Argument) : Option Argument :=
  ((arguments.drop directive.width.slots.length).drop
    directive.precision.slots.length).head?

/-- The number of bytes that a directive shows of its argument. -/
def shownSize
    (directive : Directive)
    (arguments : List Argument) : Nat :=
  match directive.valueArgument? arguments with
  | some argument => ((directive.settled arguments).shown argument).size
  | none => 0

/-- The number of bytes of padding that a directive puts around its argument. -/
def paddingSize
    (directive : Directive)
    (arguments : List Argument) : Nat :=
  match directive.valueArgument? arguments with
  | some argument => (directive.settled arguments).cutPadding argument
  | none => 0

end Directive

/-- The bytes of segments without any padding: literal ones, percent signs and what is shown. -/
def shownLength : List Segment → List Argument → Nat
  | [], _ => 0
  | .literal bytes :: rest, arguments =>
      bytes.length + shownLength rest arguments
  | .percent :: rest, arguments =>
      1 + shownLength rest arguments
  | .directive directive :: rest, arguments =>
      directive.shownSize arguments +
        shownLength rest (arguments.drop directive.slots.length)

/-- The bytes of padding of the directives among segments, one by one. -/
def paddings : List Segment → List Argument → List Nat
  | [], _ => []
  | .literal _ :: rest, arguments => paddings rest arguments
  | .percent :: rest, arguments => paddings rest arguments
  | .directive directive :: rest, arguments =>
      directive.paddingSize arguments ::
        paddings rest (arguments.drop directive.slots.length)

/-- The number of directives among segments. -/
def directiveCount : List Segment → Nat
  | [] => 0
  | .directive _ :: rest => directiveCount rest + 1
  | _ :: rest => directiveCount rest

namespace Directive

variable
  {directive : Directive}
  {argument : Argument}
  {output : Bytes}

theorem length_padding
    (byte : UInt8)
    (count : Nat) :
    (padding byte count).length = min count 4096 :=
  List.length_replicate

/-- An integer is laid out with both runs of padding, each of them cut. -/
theorem length_layoutInteger
    (isInteger : directive.conversion.isInteger = true)
    (value : Int) :
    (directive.layoutInteger (directive.mark value)
        (directive.numeral value)).length =
      (directive.shownInteger value).size +
        min (directive.askedZeros (directive.shownInteger value)) 4096 +
          min (directive.askedFill (directive.shownInteger value)) 4096 := by
  have isZero := IntegerField.numeral_eq_zero_iff directive value
  simp only [layoutInteger, isZero, precisionZeros_eq, fieldWidth_eq]
  simp only [Shown.size, askedFill, askedZeros, isInteger, if_true, shownInteger]
  generalize (if value = 0 ∧ directive.precision = .fixed 0 then []
    else directive.numeral value) = digits
  split_ifs <;>
    simp only [List.length_append, length_padding] <;> omega

theorem length_layoutBody
    (notInteger : directive.conversion.isInteger = false)
    (body : Bytes) :
    (directive.layoutBody body).length =
      (Shown.mk [] body).size +
        min (directive.askedZeros ⟨[], body⟩) 4096 +
          min (directive.askedFill ⟨[], body⟩) 4096 := by
  simp only [layoutBody, fieldWidth_eq, Shown.size, askedFill, askedZeros,
    notInteger, Bool.false_eq_true, if_false, List.length_nil]
  split_ifs <;>
    simp only [List.length_append, length_padding] <;> omega

theorem writeSigned_eq_layoutInteger
    (signed : directive.conversion.isSigned = true)
    (value : Int) :
    directive.writeSigned value =
      directive.layoutInteger (directive.mark value)
        (directive.numeral value) := by
  have decimalDigits :
      directive.conversion.base = 10 ∧
        directive.conversion.uppercase = false := by
    revert signed
    cases directive.conversion <;> decide
  rw [mark, if_pos signed, numeral, decimalDigits.1, decimalDigits.2]
  rfl

theorem writeUnsigned_eq_layoutInteger
    (unsigned : directive.conversion.isUnsigned = true)
    (value : Nat) :
    directive.writeUnsigned value =
      directive.layoutInteger (directive.mark value)
        (directive.numeral value) := by
  have notSigned : directive.conversion.isSigned = false := by
    revert unsigned
    cases directive.conversion <;> decide
  have sameRadix : directive.conversion.base = directive.conversion.radix := by
    cases directive.conversion <;> rfl
  simp [writeUnsigned, mark, notSigned, numeral, sameRadix,
    Conversion.uppercase]

/-- What is written is an integer between its padding, or a body that the width pads. -/
inductive Writes (directive : Directive) : Shown → Bytes → Prop where
  | integer
      (isInteger : directive.conversion.isInteger = true)
      (value : Int) :
      Writes directive (directive.shownInteger value)
        (directive.layoutInteger (directive.mark value)
          (directive.numeral value))
  | body
      (notInteger : directive.conversion.isInteger = false)
      (body : Bytes) :
      Writes directive ⟨[], body⟩ (directive.layoutBody body)

theorem writes_writeSigned
    (signed : directive.conversion.isSigned = true)
    (value : Int) :
    Writes directive (directive.shownInteger value)
      (directive.writeSigned value) := by
  rw [writeSigned_eq_layoutInteger signed]
  refine .integer ?_ value
  rw [Conversion.isInteger, signed, Bool.true_or]

theorem writes_writeUnsigned
    (unsigned : directive.conversion.isUnsigned = true)
    (value : Nat) :
    Writes directive (directive.shownInteger value)
      (directive.writeUnsigned value) := by
  rw [writeUnsigned_eq_layoutInteger unsigned]
  refine .integer ?_ value
  rw [Conversion.isInteger, unsigned, Bool.or_true]

/-- Whatever is written of an argument is what is shown of it, padded. -/
theorem writes_shown
    (written : directive.write? argument = some output) :
    Writes directive (directive.shown argument) output := by
  rcases directive with ⟨flags, width, precision, length, conversion⟩
  cases conversion with
  | decimal | integer =>
      cases argument with
      | signed | unsigned | character =>
          cases written
          exact writes_writeSigned rfl _
      | text | pointer => cases written
  | unsigned | hexadecimal | upperHexadecimal | octal =>
      cases argument with
      | signed | unsigned =>
          cases written
          exact writes_writeUnsigned rfl _
      | character | text | pointer => cases written
  | string =>
      cases argument with
      | text =>
          cases written
          cases precision <;> exact .body rfl _
      | signed | unsigned | character | pointer => cases written
  | character =>
      cases argument with
      | signed | character =>
          cases written
          exact .body rfl _
      | unsigned | text | pointer => cases written
  | pointer =>
      cases argument with
      | pointer address =>
          cases written
          rw [shown, writePointer]
          split_ifs <;> exact .body rfl _
      | signed | unsigned | character | text => cases written

/-- What is written is as long as what is shown and its padding. -/
theorem length_write?
    (written : directive.write? argument = some output) :
    output.length =
      (directive.shown argument).size + directive.cutPadding argument := by
  have writes := writes_shown written
  rw [cutPadding, ← Nat.add_assoc]
  generalize directive.shown argument = shown at writes ⊢
  cases writes with
  | integer isInteger value => exact length_layoutInteger isInteger value
  | body notInteger body => exact length_layoutBody notInteger body

/-- A directive that pads once asks for no zeros or for no fill. -/
theorem PadsOnce.askedZeros_or_askedFill
    (padsOnce : directive.PadsOnce)
    (shown : Shown) :
    directive.askedZeros shown = 0 ∨ directive.askedFill shown = 0 := by
  rcases padsOnce with notInteger | noWidth | noPrecision
  · exact .inl (by simp [askedZeros, notInteger])
  · exact .inr (by simp [askedFill, noWidth, Amount.number])
  · exact .inl (by simp [askedZeros, noPrecision, Amount.number])

theorem cutPadding_le
    (directive : Directive)
    (argument : Argument) :
    directive.cutPadding argument ≤ 8192 := by
  rw [cutPadding]
  omega

theorem PadsOnce.cutPadding_le
    (padsOnce : directive.PadsOnce)
    (argument : Argument) :
    directive.cutPadding argument ≤ 4096 := by
  rw [cutPadding]
  rcases padsOnce.askedZeros_or_askedFill (directive.shown argument) with
    noZeros | noFill
  · omega
  · omega

theorem conversion_settled
    (directive : Directive)
    (arguments : List Argument) :
    (directive.settled arguments).conversion = directive.conversion := by
  rw [settled, conversion_settledPrecision, conversion_settledWidth]

theorem width_settled_of_absent
    (noWidth : directive.width = .absent)
    (arguments : List Argument) :
    (directive.settled arguments).width = .absent := by
  unfold settled settledPrecision settledWidth
  simp only [noWidth]
  split <;> simp [withPrecision, noWidth]

theorem precision_settled_of_absent
    (noPrecision : directive.precision = .absent)
    (arguments : List Argument) :
    (directive.settled arguments).precision = .absent := by
  unfold settled settledPrecision
  simp [noPrecision]

/-- Stars that take their arguments bring no second run of padding. -/
theorem PadsOnce.settled
    (padsOnce : directive.PadsOnce)
    (arguments : List Argument) :
    (directive.settled arguments).PadsOnce := by
  rcases padsOnce with notInteger | noWidth | noPrecision
  · exact .inl (by rw [conversion_settled, notInteger])
  · exact .inr (.inl (width_settled_of_absent noWidth arguments))
  · exact .inr (.inr (precision_settled_of_absent noPrecision arguments))

/-- What a directive writes of its argument is written by its settled form. -/
theorem exists_write?_of_rendering?
    {arguments : List Argument}
    (rendered : directive.rendering? arguments = some output) :
    ∃ argument,
      directive.valueArgument? arguments = some argument ∧
        (directive.settled arguments).write? argument = some output :=
  Option.bind_eq_some_iff.mp rendered

end Directive

theorem written?_of_format
    {template : Bytes}
    {arguments : List Argument}
    {output : Bytes}
    (formatted : format template arguments = .ok output) :
    written? (segments template) arguments = some output :=
  (((format_answers template arguments).eq_ok_iff output).mp formatted).2

section Segments

variable
  {pieces : List Segment}
  {arguments : List Argument}

/-- What segments write is as long as what they show and the padding of their directives. -/
theorem length_written?
    {output : Bytes}
    (written : written? pieces arguments = some output) :
    output.length =
      shownLength pieces arguments + (paddings pieces arguments).sum := by
  induction pieces generalizing arguments output with
  | nil =>
      cases written
      rfl
  | cons piece rest inductionHypothesis =>
      cases piece with
      | literal bytes =>
          obtain ⟨behind, writtenLater, rfl⟩ := Option.map_eq_some_iff.mp written
          rw [List.length_append, shownLength, paddings,
            inductionHypothesis writtenLater, Nat.add_assoc]
      | percent =>
          obtain ⟨behind, writtenLater, rfl⟩ := Option.map_eq_some_iff.mp written
          rw [List.length_cons, shownLength, paddings,
            inductionHypothesis writtenLater]
          omega
      | directive directive =>
          obtain ⟨bytes, rendered, goesOn⟩ := Option.bind_eq_some_iff.mp written
          obtain ⟨behind, writtenLater, rfl⟩ := Option.map_eq_some_iff.mp goesOn
          obtain ⟨argument, isArgument, writtenHere⟩ :=
            Directive.exists_write?_of_rendering? rendered
          have here := Directive.length_write? writtenHere
          have later := inductionHypothesis writtenLater
          rw [List.length_append, shownLength, paddings, List.sum_cons,
            Directive.shownSize, Directive.paddingSize, isArgument]
          dsimp only
          omega

/-- Directives that each keep to a limit of padding keep to it in their sum. -/
theorem sum_paddings_le
    {limit : Nat}
    (keeps :
      ∀ directive,
        Segment.directive directive ∈ pieces →
        ∀ supplied argument,
          (directive.settled supplied).cutPadding argument ≤ limit) :
    (paddings pieces arguments).sum ≤ limit * directiveCount pieces := by
  induction pieces generalizing arguments with
  | nil =>
      exact Nat.zero_le _
  | cons piece rest inductionHypothesis =>
      have later
          (left : List Argument) :
          (paddings rest left).sum ≤ limit * directiveCount rest :=
        inductionHypothesis fun directive member =>
          keeps directive (List.mem_cons_of_mem piece member)
      cases piece with
      | literal | percent => exact later arguments
      | directive directive =>
          have here : directive.paddingSize arguments ≤ limit := by
            rw [Directive.paddingSize]
            split
            · exact keeps directive List.mem_cons_self arguments _
            · exact Nat.zero_le limit
          have behind := later (arguments.drop directive.slots.length)
          rw [paddings, List.sum_cons, directiveCount, Nat.mul_succ, Nat.add_comm]
          exact Nat.add_le_add behind here

end Segments

/--
A directive writes what it shows and its padding, which is zeros and fill, each
of them cut at 4096 bytes; so it stays within 4096 bytes of padding just if both
together do, as they do if it pads once.  The output of a template is as long
as all that is shown and all padding: it keeps to 4096 bytes for each directive
if all of them pad once, and to twice as many in any case.
-/
theorem length_format_le
    (template : Bytes)
    (arguments : List Argument) :
    (∀ (directive : Directive) (argument : Argument) (output : Bytes),
        directive.write? argument = some output →
        (output.length ≤ (directive.shown argument).size + 4096 ↔
            directive.cutPadding argument ≤ 4096) ∧
          (directive.PadsOnce → directive.cutPadding argument ≤ 4096)) ∧
      ∀ output,
        format template arguments = .ok output →
        (output.length ≤
            shownLength (segments template) arguments +
              4096 * directiveCount (segments template) ↔
          (paddings (segments template) arguments).sum ≤
            4096 * directiveCount (segments template)) ∧
          ((∀ directive,
              Segment.directive directive ∈ segments template →
              directive.PadsOnce) →
            output.length ≤
              shownLength (segments template) arguments +
                4096 * directiveCount (segments template)) ∧
          output.length ≤
            shownLength (segments template) arguments +
              8192 * directiveCount (segments template) := by
  constructor
  · intro directive argument output written
    rw [Directive.length_write? written, Nat.add_le_add_iff_left]
    exact ⟨Iff.rfl, fun padsOnce => padsOnce.cutPadding_le argument⟩
  · intro output formatted
    rw [length_written? (written?_of_format formatted), Nat.add_le_add_iff_left,
      Nat.add_le_add_iff_left]
    refine ⟨Iff.rfl, fun padOnce => ?_, ?_⟩
    · exact
        sum_paddings_le fun directive member supplied argument =>
          ((padOnce directive member).settled supplied).cutPadding_le argument
    · exact
        sum_paddings_le fun directive _ supplied argument =>
          (directive.settled supplied).cutPadding_le argument

/-- A width and a precision on directives of their own pad once each. -/
theorem length_format_le_twoFields :
    let template := Bytes.ofText "%5d%.3x"
    let arguments : List Argument := [.signed (-42), .unsigned 10]
    let output := Bytes.ofText "  -4200a"
    let wide := { Directive.plain .decimal with width := .fixed 5 }
    wide.write? (.signed (-42)) = some (Bytes.ofText "  -42") ∧
      wide.PadsOnce ∧
      (Bytes.ofText "  -42").length ≤ 3 + 4096 ∧
      format template arguments = .ok output ∧
      (∀ directive,
        Segment.directive directive ∈ segments template →
        directive.PadsOnce) ∧
      output.length ≤ 4 + 4096 * 2 := by
  intro template arguments output wide
  obtain ⟨one, whole⟩ := length_format_le template arguments
  have written : wide.write? (.signed (-42)) = some (Bytes.ofText "  -42") := by
    decide +kernel
  have pieces :
      segments template =
        [.directive wide,
          .directive
            { Directive.plain .hexadecimal with precision := .fixed 3 }] := by
    decide +kernel
  have formatted : format template arguments = .ok output := by
    rw [format, pieces]
    decide +kernel
  have padOnce :
      ∀ directive,
        Segment.directive directive ∈ segments template →
        directive.PadsOnce := by
    intro directive member
    rw [pieces] at member
    rcases List.mem_pair.mp member with same | same
    · cases same
      exact .inr (.inr rfl)
    · cases same
      exact .inr (.inl rfl)
  have padsOnce : wide.PadsOnce :=
    .inr (.inr rfl)
  obtain ⟨narrowIff, narrowIfOnce⟩ := one wide _ _ written
  have narrow := narrowIff.mpr (narrowIfOnce padsOnce)
  have narrowSize : (wide.shown (.signed (-42))).size = 3 := by
    decide
  rw [narrowSize] at narrow
  have within := (whole output formatted).2.1 padOnce
  have shownHere : shownLength (segments template) arguments = 4 := by
    rw [pieces]
    decide
  rw [shownHere, pieces] at within
  exact ⟨written, padsOnce, narrow, formatted, padOnce, within⟩

/--
One digit at precision two in a field of 4098 bytes takes one zero and 4096
spaces, one byte of padding more than a single run can have.
-/
theorem format_beyondCap :
    let template := Bytes.ofText "%4098.2d"
    ∃ output,
      format template [.signed 1] = .ok output ∧
        directiveCount (segments template) = 1 ∧
          shownLength (segments template) [.signed 1] + 4096 <
            output.length := by
  intro template
  let directive : Directive :=
    { Directive.plain .decimal with
      width := .fixed 4098
      precision := .fixed 2 }
  have pieces : segments template = [.directive directive] := by
    decide +kernel
  have formatted :
      format template [.signed 1] =
        .ok (directive.writeSigned (directive.narrowSigned 1) ++ []) := by
    rw [format, pieces]
    rfl
  have written :
      directive.write? (.signed 1) =
        some (directive.writeSigned (directive.narrowSigned 1)) :=
    rfl
  refine ⟨_, formatted, by rw [pieces]; rfl, ?_⟩
  rw [pieces, List.append_nil, Directive.length_write? written]
  decide

end Format

end LibcConformance
