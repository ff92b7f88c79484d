import LibcConformance.Proofs.Format.IntegerField
import LibcConformance.Proofs.Format.Slots

namespace LibcConformance

/-!
# Fields of strings, characters and addresses

A directive that writes no integer shows a body between spaces.  The body is
the front of a string, one byte, or an address in hexadecimal; only the width
and the minus sign say how many spaces there are and on which side.  The field
is put behind all that the segments in front of the directive write.
-/

namespace Format

/-- The conversions that do not write an integer. -/
def Conversion.isText : Conversion → Bool
  | .string | .character | .pointer => true
  | _ => false

/-- What is shown of an argument that is no integer; a precision cuts strings only. -/
inductive Argument.HasBody (precision : Amount) : Argument → Bytes → Prop where
  | text
      {bytes body : Bytes}
      (inFront : body <+: bytes)
      (whole : precision = .absent → body.length = bytes.length)
      (cut :
        ∀ limit,
          precision = .fixed limit →
          body.length = min bytes.length limit.toNat) :
      HasBody precision (.text bytes) body
  | character
      (byte : UInt8) :
      HasBody precision (.character byte) [byte]
  | number
      {value : Int64}
      {byte : UInt8}
      (congruent : (byte.toNat : Int) ≡ value.toInt [ZMOD 256]) :
      HasBody precision (.signed value) [byte]
  | null :
      HasBody precision (.pointer 0) (Bytes.ofText "(nil)")
  | address
      {address : UInt64}
      {digits : Bytes}
      (notNull : address ≠ 0)
      (shortest : Numeral.IsShortest 16 false digits address.toNat) :
      HasBody precision (.pointer address) (Bytes.ofText "0x" ++ digits)

/-- A field shows a body of an argument as a directive asks for it. -/
structure Directive.ShowsBody
    (directive : Directive)
    (argument : Argument)
    (body field : Bytes) : Prop where
  written : directive.write? argument = some field
  length : field.length = max directive.width.number body.length
  leftJustified :
    directive.flags.leftJustify = true →
      ∃ spaces, field = body ++ List.replicate spaces (ascii ' ')
  rightJustified :
    directive.flags.leftJustify = false →
      ∃ spaces, field = List.replicate spaces (ascii ' ') ++ body
  otherFlags :
    ∀ flags : Flags,
      flags.leftJustify = directive.flags.leftJustify →
      { directive with flags }.write? argument = some field
  appended :
    ∀ (earlier : List Segment) (arguments : List Argument) (output : Bytes),
      formatSegments (.ofList arguments) earlier = .ok output →
      arguments[(earlier.flatMap Segment.slots).length]? = some argument →
      formatSegments (.ofList arguments) (earlier ++ [.directive directive]) =
        .ok (output ++ field)

/-- An argument has one body only, if a precision is not left to an argument. -/
theorem Argument.HasBody.unique
    {precision : Amount}
    {argument : Argument}
    {body other : Bytes}
    (noStar : precision ≠ .fromArgument)
    (first : argument.HasBody precision body)
    (second : argument.HasBody precision other) :
    body = other := by
  cases first with
  | text firstInFront firstWhole firstCut =>
      cases second with
      | text secondInFront secondWhole secondCut =>
          have sameLength : body.length = other.length := by
            cases precision with
            | absent => rw [firstWhole rfl, secondWhole rfl]
            | fixed limit => rw [firstCut limit rfl, secondCut limit rfl]
            | fromArgument => exact absurd rfl noStar
          exact
            (List.prefix_of_prefix_length_le firstInFront secondInFront
              sameLength.le).eq_of_length sameLength
  | character byte =>
      cases second
      rfl
  | @number value byte firstCongruent =>
      cases second with
      | @number _ otherByte secondCongruent =>
          have sameRemainder : (byte.toNat : Int) % 256 = otherByte.toNat % 256 :=
            firstCongruent.trans secondCongruent.symm
          have below := byte.toNat_lt
          have otherBelow := otherByte.toNat_lt
          have sameNumber : byte.toNat = otherByte.toNat := by
            omega
          rw [UInt8.toNat_inj.mp sameNumber]
  | null =>
      cases second with
      | null => rfl
      | address notNull _ => exact absurd rfl notNull
  | address notNull firstShortest =>
      cases second with
      | null => exact absurd rfl notNull
      | address _ secondShortest =>
          rw [firstShortest.unique (by decide) secondShortest]

/-- Segments behind others write with the arguments that those leave. -/
theorem written?_append
    (first second : List Segment)
    (arguments : List Argument) :
    written? (first ++ second) arguments =
      (written? first arguments).bind fun output =>
        (written? second
          (arguments.drop (first.flatMap Segment.slots).length)).map
            (output ++ ·) := by
  induction first generalizing arguments with
  | nil =>
      simp [written?]
  | cons segment rest inductionHypothesis =>
      cases segment with
      | literal bytes =>
          simp only [List.cons_append, written?, inductionHypothesis,
            List.flatMap_cons, Segment.slots, List.nil_append]
          cases written? rest arguments <;> simp [Function.comp_def]
      | percent =>
          simp only [List.cons_append, written?, inductionHypothesis,
            List.flatMap_cons, Segment.slots, List.nil_append]
          cases written? rest arguments <;> simp [Function.comp_def]
      | directive directive =>
          simp only [List.cons_append, written?, inductionHypothesis,
            List.flatMap_cons, Segment.slots, List.length_append,
            ← List.drop_drop]
          cases directive.rendering? arguments with
          | none => rfl
          | some bytes =>
              cases written? rest (arguments.drop directive.slots.length) <;>
                simp [Function.comp_def]

namespace Directive

variable
  {directive : Directive}
  {argument : Argument}
  {body : Bytes}

/-- A body is laid out with as many spaces as it leaves of the width. -/
theorem layoutBody_of_le
    (directive : Directive)
    (body : Bytes)
    (short : directive.width.number - body.length ≤ 4096) :
    directive.layoutBody body =
      if directive.flags.leftJustify then
        body ++
          List.replicate (directive.width.number - body.length) (ascii ' ')
      else
        List.replicate (directive.width.number - body.length) (ascii ' ') ++
          body := by
  rw [layoutBody, fieldWidth_eq, padding_of_le short]

/-- An accepted argument has a body, which is what is laid out under any flags. -/
theorem exists_hasBody
    (isText : directive.conversion.isText = true)
    (accepted : (Slot.value directive.conversion).accepts argument = true) :
    ∃ body,
      argument.HasBody directive.precision body ∧
        ∀ flags : Flags,
          { directive with flags }.write? argument =
            some ({ directive with flags }.layoutBody body) := by
  rcases directive with ⟨flags, width, precision, length, conversion⟩
  cases conversion with
  | string =>
      cases argument with
      | text bytes =>
          cases precision with
          | absent | fromArgument =>
              exact
                ⟨bytes, .text (List.prefix_refl _) (by simp) (by simp),
                  fun _ => rfl⟩
          | fixed limit =>
              refine
                ⟨bytes.take limit.toNat,
                  .text (List.take_prefix _ _) (by simp) ?_, fun _ => rfl⟩
              intro other same
              cases same
              rw [List.length_take, Nat.min_comm]
      | _ => cases accepted
  | character =>
      cases argument with
      | character byte => exact ⟨[byte], .character byte, fun _ => rfl⟩
      | signed value =>
          refine
            ⟨[UInt8.ofNat (value.toInt % 256).toNat], .number ?_, fun _ => rfl⟩
          have nonnegative : 0 ≤ value.toInt % 256 :=
            Int.emod_nonneg _ (by decide)
          have below : value.toInt % 256 < 256 :=
            Int.emod_lt_of_pos _ (by decide)
          have fits : (value.toInt % 256).toNat < UInt8.size := by
            simp only [UInt8.size]
            omega
          rw [UInt8.toNat_ofNat_of_lt' fits, Int.toNat_of_nonneg nonnegative]
          exact Int.mod_modEq _ _
      | _ => cases accepted
  | pointer =>
      cases argument with
      | pointer address =>
          by_cases null : address = 0
          · subst null
            exact ⟨_, .null, fun _ => rfl⟩
          · have shortest :
                Numeral.IsShortest 16 false
                  (Numeral.bytes 16 false address.toNat) address.toNat :=
              Numeral.isShortest_bytes (by decide) (by decide) _
            refine ⟨_, .address null shortest, fun _ => ?_⟩
            simp only [write?, writePointer, if_neg null]
      | _ => cases accepted
  | _ => cases isText

section NoStars

variable
  (noWidthStar : directive.width ≠ .fromArgument)
  (noPrecisionStar : directive.precision ≠ .fromArgument)

include noWidthStar noPrecisionStar

/-- Without stars, a directive has the slot of its value alone. -/
theorem slots_of_ne_star :
    directive.width.slots = [] ∧
      directive.precision.slots = [] ∧
        directive.slots = [.value directive.conversion] := by
  have noWidthSlot : directive.width.slots = [] := by
    cases given : directive.width with
    | fromArgument => exact absurd given noWidthStar
    | absent | fixed => rfl
  have noPrecisionSlot : directive.precision.slots = [] := by
    cases given : directive.precision with
    | fromArgument => exact absurd given noPrecisionStar
    | absent | fixed => rfl
  refine ⟨noWidthSlot, noPrecisionSlot, ?_⟩
  rw [slots, noWidthSlot, noPrecisionSlot]
  rfl

/-- Without stars, a directive writes the first of its arguments as it stands. -/
theorem rendering?_of_ne_star
    (argument : Argument)
    (others : List Argument) :
    directive.rendering? (argument :: others) = directive.write? argument := by
  obtain ⟨noWidthSlot, noPrecisionSlot, _⟩ :=
    slots_of_ne_star noWidthStar noPrecisionStar
  have settled :
      (directive.settledWidth (argument :: others)).settledPrecision
        (argument :: others) = directive := by
    unfold settledWidth settledPrecision
    cases width : directive.width with
    | fromArgument => exact absurd width noWidthStar
    | absent | fixed =>
        cases precision : directive.precision with
        | fromArgument => exact absurd precision noPrecisionStar
        | absent | fixed => rfl
  simp only [rendering?, noWidthSlot, noPrecisionSlot, List.length_nil,
    List.drop_zero, settled, List.head?_cons, Option.bind_some]

/-- Behind segments that write an output, a directive without stars puts what it writes. -/
theorem formatSegments_append_directive
    {field : Bytes}
    (written : directive.write? argument = some field)
    {earlier : List Segment}
    {arguments : List Argument}
    {output : Bytes}
    (formatted : formatSegments (.ofList arguments) earlier = .ok output)
    (next :
      arguments[(earlier.flatMap Segment.slots).length]? = some argument) :
    formatSegments (.ofList arguments) (earlier ++ [.directive directive]) =
      .ok (output ++ field) := by
  obtain ⟨noFailure, writtenEarlier⟩ :=
    ((formatSegments_answers earlier 0 arguments).eq_ok_iff output).mp formatted
  obtain ⟨inRange, isNext⟩ := List.getElem?_eq_some_iff.mp next
  have left := List.drop_eq_getElem_cons inRange
  rw [isNext] at left
  obtain ⟨_, _, oneSlot⟩ := slots_of_ne_star noWidthStar noPrecisionStar
  have accepted :
      (Slot.value directive.conversion).accepts argument = true := by
    rw [← isSome_write?, written]
    rfl
  refine ((formatSegments_answers _ 0 arguments).eq_ok_iff _).mpr ⟨?_, ?_⟩
  · rw [List.flatMap_append, firstFailure?_append, noFailure, left]
    simp [Segment.slots, oneSlot, firstFailure?, accepted]
  · rw [written?_append, writtenEarlier, Option.bind_some, left]
    simp [written?, rendering?_of_ne_star noWidthStar noPrecisionStar, written]

end NoStars

/--
A directive for strings, characters or addresses gives each argument that it
accepts one body.  As long as the fill is not cut, it shows that body in a
field of the width, on the side that the minus sign says, under any other flags
the same, and behind what was written before.
-/
theorem write?_text
    (isText : directive.conversion.isText = true)
    (accepted : (Slot.value directive.conversion).accepts argument = true)
    (noWidthStar : directive.width ≠ .fromArgument)
    (noPrecisionStar : directive.precision ≠ .fromArgument) :
    ∃ body,
      (∀ other,
        argument.HasBody directive.precision other ↔ other = body) ∧
        (directive.width.number - body.length ≤ 4096 →
          ∃ field, directive.ShowsBody argument body field) := by
  obtain ⟨body, hasBody, written⟩ := exists_hasBody isText accepted
  refine ⟨body, fun other => ⟨?_, ?_⟩, fun short => ?_⟩
  · exact fun otherBody => otherBody.unique noPrecisionStar hasBody
  · rintro rfl
    exact hasBody
  · have laidOut
        (flags : Flags)
        (sameSide : flags.leftJustify = directive.flags.leftJustify) :
        { directive with flags }.layoutBody body = directive.layoutBody body := by
      rw [layoutBody_of_le directive body short,
        layoutBody_of_le { directive with flags } body short]
      simp only [sameSide]
    refine ⟨directive.layoutBody body, ?_⟩
    constructor
    case written => exact written directive.flags
    case length =>
      rw [layoutBody_of_le directive body short]
      split
      · rw [List.length_append, List.length_replicate]
        omega
      · rw [List.length_append, List.length_replicate]
        omega
    case leftJustified =>
      intro left
      rw [layoutBody_of_le directive body short, if_pos left]
      exact ⟨_, rfl⟩
    case rightJustified =>
      intro right
      rw [layoutBody_of_le directive body short, if_neg (by simp [right])]
      exact ⟨_, rfl⟩
    case otherFlags =>
      intro flags sameSide
      rw [written flags, laidOut flags sameSide]
    case appended =>
      intro earlier arguments output formatted next
      exact
        formatSegments_append_directive noWidthStar noPrecisionStar
          (written directive.flags) formatted next

/-- Three bytes of a string, a NUL and a space among them, in a field of six. -/
theorem write?_text_cutString :
    let directive : Directive := {
      flags := { Flags.none with leftJustify := true, alternate := true }
      width := .fixed 6
      precision := .fixed 3
      length := .ll
      conversion := .string
    }
    let argument : Argument := .text [97, 0, 32, 98]
    (Slot.value directive.conversion).accepts argument = true ∧
      argument.HasBody directive.precision [97, 0, 32] ∧
        directive.ShowsBody argument [97, 0, 32] [97, 0, 32, 32, 32, 32] := by
  intro directive argument
  have accepted :
      (Slot.value directive.conversion).accepts argument = true :=
    rfl
  obtain ⟨body, isBody, shows⟩ :=
    write?_text rfl accepted (by decide : directive.width ≠ .fromArgument)
      (by decide : directive.precision ≠ .fromArgument)
  have hasBody : argument.HasBody directive.precision [97, 0, 32] := by
    refine .text ⟨[98], rfl⟩ (by decide) ?_
    intro limit same
    cases same
    decide
  have sameBody := (isBody _).mp hasBody
  subst sameBody
  obtain ⟨field, showsField⟩ := shows (by decide)
  have sameField :
      some [97, 0, 32, 32, 32, 32] = some field :=
    Eq.trans (by decide) showsField.written
  cases sameField
  exact ⟨accepted, hasBody, showsField⟩

end Directive

end Format

end LibcConformance
