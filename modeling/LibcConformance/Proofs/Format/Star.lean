import Mathlib
import LibcConformance.Proofs.Format.DecimalQuantity
import LibcConformance.Proofs.Format.OneDirective

namespace LibcConformance

/-!
# Stars and numbers written in their place

A star takes its number from an argument.  The directive that has the number
written in its place takes one argument less and writes the same.  A negative
width is written as a minus sign and its size, a negative precision is left
out, and the width zero turns into a flag, which then has nothing to fill.
-/

namespace Format

/-- An argument by which a number is given: itself, or a word congruent to it. -/
inductive Argument.Gives (number : Int64) : Argument → Prop where
  | signed :
      Gives number (.signed number)
  | unsigned
      (word : UInt64)
      (congruent : (word.toNat : Int) ≡ number.toInt [ZMOD 2 ^ 64]) :
      Gives number (.unsigned word)

/-- A template that is one directive, with its width and precision as they are written. -/
def directiveText
    (run : List Flag)
    (width precision : Bytes)
    (length : LengthModifier)
    (conversion : Conversion) : Bytes :=
  ascii '%' ::
    (run.map Flag.byte ++
      (width ++ (precision ++ (length.bytes ++ [conversion.byte]))))

def starWidth : Bytes :=
  Bytes.ofText "*"

def starPrecision : Bytes :=
  Bytes.ofText ".*"

/-- The size of a width in decimal, behind a minus sign if the width is negative. -/
def writtenWidth (width : Int64) : Bytes :=
  (if width.toInt < 0 then [Flag.leftJustify.byte] else []) ++
    Numeral.bytes 10 false width.toInt.natAbs

/-- A precision in decimal behind its point; a negative one is left out. -/
def writtenPrecision (precision : Int64) : Bytes :=
  if precision.toInt < 0 then
    []
  else
    ascii '.' :: Numeral.bytes 10 false precision.toInt.toNat

/--
Two calls write the same, or both refuse the argument of the value, which
stands at an index of its own in each.
-/
inductive Alike (conversion : Conversion) (first second : Nat) :
    Except FormatError Bytes → Except FormatError Bytes → Prop where
  | writes
      (output : Bytes) :
      Alike conversion first second (.ok output) (.ok output)
  | refuses :
      Alike conversion first second
        (.error (.mismatchedArgument first conversion.byte))
        (.error (.mismatchedArgument second conversion.byte))

theorem Argument.Gives.starNumber
    {number : Int64}
    {argument : Argument}
    (gives : argument.Gives number) :
    argument.starNumber = number.toInt := by
  cases gives with
  | signed => rfl
  | unsigned word congruent =>
      have asNumber :
          word.toInt64.toInt = (word.toNat : Int).bmod (2 ^ 64) := by
        rw [← Int64.toInt_toBitVec, UInt64.toBitVec_toInt64,
          BitVec.toInt_eq_toNat_bmod, UInt64.toNat_toBitVec]
      have sameRemainder :
          (word.toNat : Int) % (2 ^ 64 : Nat) =
            number.toInt % (2 ^ 64 : Nat) :=
        congruent
      rw [Argument.starNumber, asNumber, ← Int.emod_bmod, sameRemainder,
        Int.emod_bmod]
      exact Int64.toInt_bmod number

theorem Supply.nextNumber_of_gives
    {number : Int64}
    {argument : Argument}
    (gives : argument.Gives number)
    (start : Nat)
    (rest : List Argument) :
    Supply.nextNumber ⟨start, argument :: rest⟩ =
      .ok (number.toInt, ⟨start + 1, rest⟩) := by
  rw [← gives.starNumber]
  cases gives with
  | signed => rfl
  | unsigned word congruent => rfl

/-- The size of a 64-bit number fits in a word. -/
theorem natAbs_toInt_lt
    (number : Int64) :
    number.toInt.natAbs < 2 ^ 64 := by
  have lower := number.le_toInt
  have upper := number.toInt_lt
  omega

namespace Directive

theorem alike_writeNext
    {first second : Directive}
    (sameConversion : first.conversion = second.conversion)
    {argument : Argument}
    (sameWriting : first.write? argument = second.write? argument)
    (firstStart secondStart : Nat) :
    Alike second.conversion firstStart secondStart
      ((first.writeNext ⟨firstStart, [argument]⟩).map Prod.fst)
      ((second.writeNext ⟨secondStart, [argument]⟩).map Prod.fst) := by
  rw [writeNext_singleton, writeNext_singleton, sameWriting, sameConversion]
  cases second.write? argument with
  | some output => exact .writes output
  | none => exact .refuses

section Unpadded

variable
  {directive : Directive}
  (noWidth : directive.fieldWidth = 0)

include noWidth

theorem layoutInteger_of_noWidth
    (lead numeral : Bytes) :
    directive.layoutInteger lead numeral =
      let digits :=
        if numeral = [ascii '0'] ∧ directive.precision = .fixed 0 then
          []
        else
          numeral
      lead ++ (padding (ascii '0') (directive.precisionZeros digits) ++ digits) := by
  have nothing : ∀ byte, padding byte 0 = [] := fun _ => rfl
  simp only [layoutInteger, noWidth, Nat.zero_sub, nothing, List.append_nil,
    List.nil_append, ite_self]

theorem layoutBody_of_noWidth
    (body : Bytes) :
    directive.layoutBody body = body := by
  have nothing : ∀ byte, padding byte 0 = [] := fun _ => rfl
  simp only [layoutBody, noWidth, Nat.zero_sub, nothing, List.append_nil,
    List.nil_append, ite_self]

/-- A zero flag does not show where there is no width to fill. -/
theorem write?_of_noWidth
    (zeroPad : Bool)
    (argument : Argument) :
    { directive with
        width := .absent
        flags := { directive.flags with zeroPad } }.write? argument =
      directive.write? argument := by
  let flagged : Directive :=
    { directive with
        width := .absent
        flags := { directive.flags with zeroPad } }
  have noWidthFlagged : flagged.fieldWidth = 0 := rfl
  have sameInteger :
      ∀ lead numeral,
        flagged.layoutInteger lead numeral =
          directive.layoutInteger lead numeral := by
    intro lead numeral
    rw [layoutInteger_of_noWidth noWidthFlagged,
      layoutInteger_of_noWidth noWidth]
    rfl
  have sameBody : ∀ body, flagged.layoutBody body = directive.layoutBody body := by
    intro body
    rw [layoutBody_of_noWidth noWidthFlagged, layoutBody_of_noWidth noWidth]
  have sameSigned :
      ∀ value, flagged.writeSigned value = directive.writeSigned value :=
    fun value => sameInteger _ _
  have sameUnsigned :
      ∀ value, flagged.writeUnsigned value = directive.writeUnsigned value :=
    fun value => sameInteger _ _
  change flagged.write? argument = directive.write? argument
  simp only [write?, sameSigned, sameUnsigned, writeString, writeCharacter,
    writePointer, sameBody]
  rfl

end Unpadded

variable
  {directive : Directive}
  {number : Int64}
  {argument : Argument}

theorem resolveWidth_star
    (isStar : directive.width = .fromArgument)
    (gives : argument.Gives number)
    (start : Nat)
    (rest : List Argument) :
    directive.resolveWidth ⟨start, argument :: rest⟩ =
      .ok (directive.withWidth number.toInt, ⟨start + 1, rest⟩) := by
  rw [resolveWidth, isStar]
  simp only [Supply.nextNumber_of_gives gives, bind, Except.bind, pure,
    Except.pure]

theorem resolvePrecision_star
    (isStar : directive.precision = .fromArgument)
    (gives : argument.Gives number)
    (start : Nat)
    (rest : List Argument) :
    directive.resolvePrecision ⟨start, argument :: rest⟩ =
      .ok (directive.withPrecision number.toInt, ⟨start + 1, rest⟩) := by
  rw [resolvePrecision, isStar]
  simp only [Supply.nextNumber_of_gives gives, bind, Except.bind, pure,
    Except.pure]

end Directive

namespace Spelling

/-- The flags of a directive with a width written behind them. -/
def widthFlags (run : List Flag) (width : Int64) : List Flag :=
  if width.toInt < 0 then
    run ++ [.leftJustify]
  else if width.toInt = 0 then
    run ++ [.zeroPad]
  else
    run

/-- The quantity that is read off a written width. -/
def widthQuantity? (width : Int64) : Option Quantity :=
  if width.toInt = 0 then none else some (.decimal width.toInt.natAbs)

/-- The quantity that is read off a written precision. -/
def precisionQuantity? (precision : Int64) : Option Quantity :=
  if precision.toInt < 0 then none else some (.decimal precision.toInt.toNat)

theorem isWidth_widthQuantity?
    (width : Int64) :
    ∀ quantity ∈ widthQuantity? width, quantity.IsWidth := by
  intro quantity present
  unfold widthQuantity? at present
  split at present
  · cases present
  · rename_i notZero
    cases present
    exact Quantity.isWidth_decimal (Int.natAbs_pos.mpr notZero)

/-- A width written behind flags is spelled by a flag, a quantity or both. -/
theorem append_writtenWidth
    (run : List Flag)
    (width : Int64)
    (tail : Bytes) :
    run.map Flag.byte ++ (writtenWidth width ++ tail) =
      (widthFlags run width).map Flag.byte ++
        (widthBytes (widthQuantity? width) ++ tail) := by
  unfold writtenWidth widthFlags widthQuantity?
  by_cases negative : width.toInt < 0
  · have notZero : width.toInt ≠ 0 := Int.ne_of_lt negative
    simp [negative, notZero, widthBytes, Quantity.decimal, Quantity.bytes]
  · by_cases zero : width.toInt = 0
    · have zeroDigit : Numeral.bytes 10 false 0 = [Flag.zeroPad.byte] := rfl
      simp [zero, widthBytes, zeroDigit]
    · simp [negative, zero, widthBytes, Quantity.decimal, Quantity.bytes]

theorem precisionBytes_precisionQuantity?
    (precision : Int64) :
    precisionBytes (precisionQuantity? precision) =
      writtenPrecision precision := by
  unfold precisionQuantity? writtenPrecision
  split <;> rfl

end Spelling

namespace Directive

open Spelling (widthFlags widthQuantity? precisionQuantity?)

/-- A precision that is taken is the one that is read where it is written. -/
theorem withPrecision_eq
    (directive : Directive)
    (precision : Int64) :
    directive.withPrecision precision.toInt =
      { directive with
          precision :=
            (precisionQuantity? precision).elim .absent Quantity.amount } := by
  have fits : precision.toInt.toNat < 2 ^ 64 := by
    have upper := precision.toInt_lt
    omega
  unfold withPrecision precisionQuantity?
  split
  · rfl
  · rw [Option.elim_some, Quantity.amount_decimal fits]

theorem withWidth_eq_of_ne_zero
    {width : Int64}
    (notZero : width.toInt ≠ 0)
    (run : List Flag)
    (precision : Amount)
    (length : LengthModifier)
    (conversion : Conversion) :
    (Directive.mk (Flags.ofList run).normalized .fromArgument precision length
        conversion).withWidth width.toInt =
      Directive.mk (Flags.ofList (widthFlags run width)).normalized
        ((widthQuantity? width).elim .absent Quantity.amount) precision length
        conversion := by
  unfold withWidth widthFlags widthQuantity?
  rw [if_neg notZero, if_neg notZero, Option.elim_some,
    Quantity.amount_decimal (natAbs_toInt_lt width)]
  by_cases negative : width.toInt < 0
  · simp [negative, Flags.ofList, Flags.normalized]
  · simp [negative]

/-- A width that is taken writes what the written one does, also where it is a zero flag. -/
theorem write?_withWidth
    (run : List Flag)
    (width : Int64)
    (precision : Amount)
    (length : LengthModifier)
    (conversion : Conversion)
    (argument : Argument) :
    ((Directive.mk (Flags.ofList run).normalized .fromArgument precision length
        conversion).withWidth width.toInt).write? argument =
      (Directive.mk (Flags.ofList (widthFlags run width)).normalized
        ((widthQuantity? width).elim .absent Quantity.amount) precision length
        conversion).write? argument := by
  -- Only a width of zero leaves two directives that are not the same.
  by_cases zero : width.toInt = 0
  · let taken : Directive :=
      { flags := (Flags.ofList run).normalized
        width := .fixed 0
        precision, length, conversion }
    have isTaken :
        (Directive.mk (Flags.ofList run).normalized .fromArgument precision
          length conversion).withWidth width.toInt = taken := by
      rw [zero]
      rfl
    have noWidth : taken.fieldWidth = 0 := rfl
    have sameFlags :
        (Flags.ofList (widthFlags run width)).normalized =
          { taken.flags with
              zeroPad :=
                (Flags.ofList (run ++ [.zeroPad])).normalized.zeroPad } := by
      simp [taken, widthFlags, zero, Flags.ofList, Flags.normalized]
    rw [isTaken, sameFlags, widthQuantity?, if_pos zero]
    exact (write?_of_noWidth noWidth _ argument).symm
  · rw [withWidth_eq_of_ne_zero zero]

end Directive

namespace Spelling

theorem widthQuantity?_ne_star
    (width : Int64) :
    widthQuantity? width ≠ some .star := by
  unfold widthQuantity?
  split <;> simp [Quantity.decimal]

theorem precisionQuantity?_ne_star
    (precision : Int64) :
    precisionQuantity? precision ≠ some .star := by
  unfold precisionQuantity?
  split <;> simp [Quantity.decimal]

/--
A directive that takes its stars and then writes what another one writes that
has none is alike to that one.
-/
theorem alike_of_resolve
    (first second : Spelling)
    (noWidthStar : second.width ≠ some .star)
    (noPrecisionStar : second.precision ≠ some .star)
    {arguments : List Argument}
    {settled : Directive}
    {start : Nat}
    {value : Argument}
    (resolved :
      first.directive.resolve (.ofList arguments) =
        .ok (settled, ⟨start, [value]⟩))
    (sameConversion : settled.conversion = second.conversion)
    (sameWriting : settled.write? value = second.directive.write? value) :
    Alike second.conversion start 0
      (format (ascii '%' :: first.bytes) arguments)
      (format (ascii '%' :: second.bytes) [value]) := by
  have firstFormatted :
      format (ascii '%' :: first.bytes) arguments =
        (settled.writeNext ⟨start, [value]⟩).map Prod.fst := by
    rw [format_spelled, Directive.apply, resolved]
    rfl
  have secondFormatted :
      format (ascii '%' :: second.bytes) [value] =
        (second.directive.writeNext ⟨0, [value]⟩).map Prod.fst := by
    rw [format_spelled, Directive.apply,
      resolve_of_ne_star noWidthStar noPrecisionStar]
    rfl
  rw [firstFormatted, secondFormatted]
  exact Directive.alike_writeNext sameConversion sameWriting start 0

section Width

variable
  (run : List Flag)
  (precision : Option Quantity)
  (length : LengthModifier)
  (conversion : Conversion)

/-- A directive whose width is a star. -/
def starred : Spelling where
  flags := run
  width := some .star
  precision := precision
  length := length
  conversion := conversion
  widthIsWidth := by
    intro quantity present
    cases present
    exact ⟨ascii '*', [], rfl, by decide⟩

/-- A directive whose width is written. -/
def inlined (width : Int64) : Spelling where
  flags := widthFlags run width
  width := widthQuantity? width
  precision := precision
  length := length
  conversion := conversion
  widthIsWidth := isWidth_widthQuantity? width

theorem bytes_starred :
    ascii '%' :: (starred run precision length conversion).bytes =
      directiveText run starWidth (precisionBytes precision) length
        conversion :=
  rfl

theorem bytes_inlined
    (width : Int64) :
    ascii '%' :: (inlined run precision length conversion width).bytes =
      directiveText run (writtenWidth width) (precisionBytes precision) length
        conversion := by
  rw [directiveText, append_writtenWidth]
  rfl

end Width

variable
  {run : List Flag}
  {length : LengthModifier}
  {conversion : Conversion}
  {width : Int64}
  {widthArgument : Argument}
  {rest : List Argument}
  {value : Argument}

/--
A star for a width is alike to the width written, if the precisions come to the
same once they are taken.
-/
theorem alike_starred
    (gives : widthArgument.Gives width)
    (starredPrecision inlinedPrecision : Option Quantity)
    (noStar : inlinedPrecision ≠ some .star)
    {start : Nat}
    (settles :
      ∀ directive : Directive,
        directive.precision =
          starredPrecision.elim .absent Quantity.amount →
        directive.resolvePrecision ⟨1, rest⟩ =
          .ok
            ({ directive with
                precision := inlinedPrecision.elim .absent Quantity.amount },
              ⟨start, [value]⟩)) :
    Alike conversion start 0
      (format
        (directiveText run starWidth (precisionBytes starredPrecision) length
          conversion)
        (widthArgument :: rest))
      (format
        (directiveText run (writtenWidth width)
          (precisionBytes inlinedPrecision) length conversion)
        [value]) := by
  let first := starred run starredPrecision length conversion
  let second := inlined run inlinedPrecision length conversion width
  let settled : Directive :=
    { first.directive.withWidth width.toInt with
        precision := inlinedPrecision.elim .absent Quantity.amount }
  have widened :
      first.directive.resolveWidth (.ofList (widthArgument :: rest)) =
        .ok (first.directive.withWidth width.toInt, ⟨1, rest⟩) :=
    Directive.resolveWidth_star rfl gives 0 rest
  have resolved :
      first.directive.resolve (.ofList (widthArgument :: rest)) =
        .ok (settled, ⟨start, [value]⟩) := by
    rw [Directive.resolve, widened]
    exact settles _ rfl
  have starredShape :
      first.directive =
        Directive.mk (Flags.ofList run).normalized .fromArgument
          (starredPrecision.elim .absent Quantity.amount) length conversion :=
    directive_eq first
  have inlinedShape :
      second.directive =
        Directive.mk (Flags.ofList (widthFlags run width)).normalized
          ((widthQuantity? width).elim .absent Quantity.amount)
          (inlinedPrecision.elim .absent Quantity.amount) length conversion :=
    directive_eq second
  have sameWriting :
      settled.write? value = second.directive.write? value := by
    rw [inlinedShape, ← Directive.write?_withWidth]
    simp only [settled, starredShape]
    rfl
  rw [← bytes_starred, ← bytes_inlined]
  exact
    alike_of_resolve first second (widthQuantity?_ne_star width) noStar resolved
      rfl sameWriting

end Spelling

/--
A directive writes its value the same, or refuses it the same, whether its
width and its precision are taken from arguments or written as numbers, both of
them or only one.
-/
theorem format_star
    (run : List Flag)
    (length : LengthModifier)
    (conversion : Conversion)
    {width precision : Int64}
    {widthArgument precisionArgument : Argument}
    (widthGiven : widthArgument.Gives width)
    (precisionGiven : precisionArgument.Gives precision)
    (value : Argument) :
    let text (widthBytes precisionBytes : Bytes) :=
      directiveText run widthBytes precisionBytes length conversion
    Alike conversion 2 0
        (format (text starWidth starPrecision)
          [widthArgument, precisionArgument, value])
        (format (text (writtenWidth width) (writtenPrecision precision))
          [value]) ∧
      (∀ other : Option Quantity,
        other ≠ some .star →
        Alike conversion 1 0
          (format (text starWidth (Spelling.precisionBytes other))
            [widthArgument, value])
          (format (text (writtenWidth width) (Spelling.precisionBytes other))
            [value])) ∧
      ∀ other : Option Quantity,
        other ≠ some .star →
        (∀ quantity ∈ other, quantity.IsWidth) →
        Alike conversion 1 0
          (format (text (Spelling.widthBytes other) starPrecision)
            [precisionArgument, value])
          (format
            (text (Spelling.widthBytes other) (writtenPrecision precision))
            [value]) := by
  intro text
  refine ⟨?_, ?_, ?_⟩
  · rw [← Spelling.precisionBytes_precisionQuantity?]
    refine
      Spelling.alike_starred widthGiven (some .star) _
        (Spelling.precisionQuantity?_ne_star precision) ?_
    intro directive isStar
    rw [Directive.resolvePrecision_star isStar precisionGiven,
      Directive.withPrecision_eq]
  · intro other noStar
    refine Spelling.alike_starred widthGiven other other noStar ?_
    intro directive same
    have ready : directive.precision ≠ .fromArgument := by
      rw [same]
      exact Spelling.amount_ne_fromArgument noStar
    rw [Directive.resolvePrecision_of_ne_star ready, ← same]
  · intro other noStar widthIsWidth
    let first : Spelling :=
      { flags := run, width := other, precision := some .star, length,
        conversion, widthIsWidth }
    let second : Spelling :=
      { flags := run, width := other
        precision := Spelling.precisionQuantity? precision
        length, conversion, widthIsWidth }
    have widthReady : first.directive.width ≠ .fromArgument :=
      Spelling.amount_ne_fromArgument noStar
    have resolved :
        first.directive.resolve (.ofList [precisionArgument, value]) =
          .ok (second.directive, ⟨1, [value]⟩) := by
      rw [Directive.resolve, Directive.resolveWidth_of_ne_star widthReady]
      change first.directive.resolvePrecision _ = _
      rw [Supply.ofList, Directive.resolvePrecision_star rfl precisionGiven,
        Directive.withPrecision_eq]
      rfl
    have noPrecisionStar := Spelling.precisionQuantity?_ne_star precision
    have alike :=
      Spelling.alike_of_resolve first second noStar noPrecisionStar resolved
        rfl rfl
    rw [← Spelling.precisionBytes_precisionQuantity?]
    exact alike

/--
A width of minus five, given as a word, and a precision of three under a zero
flag: together, the width alone, and the precision alone behind a written width.
-/
theorem format_star_minusFive :
    let width : Argument := .unsigned 18446744073709551611
    let precision : Argument := .signed 3
    let value : Argument := .signed 42
    width.Gives (-5) ∧ precision.Gives 3 ∧
      format (Bytes.ofText "%0*.*d") [width, precision, value] =
        .ok (Bytes.ofText "042  ") ∧
      Alike .decimal 2 0
        (format (Bytes.ofText "%0*.*d") [width, precision, value])
        (format (Bytes.ofText "%0-5.3d") [value]) ∧
      Alike .decimal 1 0
        (format (Bytes.ofText "%0*d") [width, value])
        (format (Bytes.ofText "%0-5d") [value]) ∧
      Alike .decimal 1 0
        (format (Bytes.ofText "%08.*d") [precision, value])
        (format (Bytes.ofText "%08.3d") [value]) := by
  intro width precision value
  have widthGiven : width.Gives (-5) := .unsigned _ (by decide)
  have precisionGiven : precision.Gives 3 := .signed
  obtain ⟨both, onlyWidth, onlyPrecision⟩ :=
    format_star [.zeroPad] .absent .decimal widthGiven precisionGiven value
  have eightIsWidth :
      ∀ quantity ∈ some (Quantity.decimal 8), quantity.IsWidth := by
    intro quantity present
    cases present
    exact Quantity.isWidth_decimal (by decide)
  exact
    ⟨widthGiven, precisionGiven, by cbv, both, onlyWidth none (by simp),
      onlyPrecision (some (.decimal 8)) (by simp [Quantity.decimal])
        eightIsWidth⟩

end Format

end LibcConformance
