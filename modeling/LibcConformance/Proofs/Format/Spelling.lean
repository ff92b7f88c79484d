import Mathlib.Data.List.TakeWhile
import Mathlib.Data.Nat.Digits.Defs
import Mathlib.Tactic.SplitIfs
import LibcConformance.Format.Reader
import LibcConformance.Proofs.LeadingRun

namespace LibcConformance

/-!
# How directives are spelled

A directive is spelled as a run of flags, an optional width, an optional
precision behind a point, a length modifier and a conversion letter.  A width
does not begin with a zero, since a zero there is a flag.  Main fact: a text is
read as a directive exactly when it begins with one of its spellings, and the
spelling that a text begins with is unique.
-/

namespace Format

/-- The exact value of a run of decimal digits. -/
def runValue (run : Bytes) : Nat :=
  Nat.ofDigits 10 (run.reverse.map fun digit => digit.toNat - (ascii '0').toNat)

/-- A width or a precision as it is written. -/
inductive Quantity where
  | star
  | number
      (run : Bytes)
      (digits : ∀ byte ∈ run, isDigit byte = true)

namespace Quantity

def bytes : Quantity → Bytes
  | .star => [ascii '*']
  | .number run _ => run

/-- What a quantity asks for; a number is cut at the largest word. -/
def amount : Quantity → Amount
  | .star => .fromArgument
  | .number run _ => .fixed (UInt64.ofNat (min (runValue run) (2 ^ 64 - 1)))

/-- A width is a star or a number, and the number does not begin with a zero. -/
def IsWidth (quantity : Quantity) : Prop :=
  ∃ first rest, quantity.bytes = first :: rest ∧ first ≠ ascii '0'

end Quantity

/-- The parts of a written directive. -/
structure Spelling where
  flags : List Flag
  width : Option Quantity
  precision : Option Quantity
  length : LengthModifier
  conversion : Conversion
  widthIsWidth : ∀ quantity ∈ width, quantity.IsWidth

def Flag.byte (flag : Flag) : UInt8 :=
  ascii flag.character

def Conversion.byte (conversion : Conversion) : UInt8 :=
  ascii conversion.letter

def LengthModifier.bytes (length : LengthModifier) : Bytes :=
  Bytes.ofText length.text

theorem LengthModifier.bytes_eq
    (length : LengthModifier) :
    length.bytes =
      match length with
      | .absent => []
      | .hh => [ascii 'h', ascii 'h']
      | .h => [ascii 'h']
      | .l => [ascii 'l']
      | .ll => [ascii 'l', ascii 'l']
      | .z => [ascii 'z']
      | .t => [ascii 't']
      | .j => [ascii 'j'] := by
  cases length <;> rfl

namespace Spelling

def widthBytes (width : Option Quantity) : Bytes :=
  width.elim [] Quantity.bytes

/-- The bytes of a precision with its point, if there is one. -/
def precisionBytes (precision : Option Quantity) : Bytes :=
  precision.elim [] fun quantity => ascii '.' :: quantity.bytes

def bytes (spelling : Spelling) : Bytes :=
  spelling.flags.map Flag.byte ++
    (widthBytes spelling.width ++
      (precisionBytes spelling.precision ++
        (spelling.length.bytes ++ [spelling.conversion.byte])))

/--
The directive that is spelled.  A plus sign overrides a space, and a minus sign
overrides a zero.
-/
def directive (spelling : Spelling) : Directive where
  flags := {
    leftJustify := .leftJustify ∈ spelling.flags
    forceSign := .forceSign ∈ spelling.flags
    spaceSign := .spaceSign ∈ spelling.flags ∧ .forceSign ∉ spelling.flags
    alternate := .alternate ∈ spelling.flags
    zeroPad := .zeroPad ∈ spelling.flags ∧ .leftJustify ∉ spelling.flags
  }
  width := spelling.width.elim .absent Quantity.amount
  precision := spelling.precision.elim .absent Quantity.amount
  length := spelling.length
  conversion := spelling.conversion

end Spelling

/-- The exact value of a number with one more digit behind it. -/
def exactWithDigit (value : Nat) (digit : UInt8) : Nat :=
  value * 10 + (digit.toNat - (ascii '0').toNat)

/-- A digit behind a saturated number saturates like one behind the exact one. -/
theorem withDigit_saturated
    (value : Nat)
    (digit : UInt8) :
    withDigit (saturated value) digit =
      saturated (exactWithDigit value digit) := by
  have fits : min value (wordSize - 1) < UInt64.size := by
    simp only [wordSize, UInt64.size]
    omega
  simp only [withDigit, saturated, exactWithDigit]
  congr 1
  rw [UInt64.toNat_ofNat_of_lt' fits]
  simp only [wordSize]
  omega

theorem foldl_withDigit
    (run : Bytes)
    (value : Nat) :
    run.foldl withDigit (saturated value) =
      saturated (run.foldl exactWithDigit value) := by
  induction run generalizing value with
  | nil =>
      rfl
  | cons digit rest inductionHypothesis =>
      rw [List.foldl_cons, withDigit_saturated, inductionHypothesis,
        List.foldl_cons]

/-- The number that is read off a run of digits is its value, saturated once. -/
theorem decimalWord_eq
    (run : Bytes) :
    decimalWord run = UInt64.ofNat (min (runValue run) (2 ^ 64 - 1)) := by
  have horner : runValue run = run.foldl exactWithDigit 0 := by
    rw [runValue, Nat.ofDigits_eq_foldr, List.foldr_map,
      List.foldr_reverse]
    congr 1
    funext exact digit
    simp only [exactWithDigit, Nat.cast_id]
    omega
  rw [horner]
  exact foldl_withDigit run 0

theorem Flag.byte_of_ofByte?
    {byte : UInt8}
    {flag : Flag}
    (found : Flag.ofByte? byte = some flag) :
    flag.byte = byte := by
  simpa [Flag.byte] using List.find?_some found

theorem Flag.ofByte?_byte
    (flag : Flag) :
    Flag.ofByte? flag.byte = some flag := by
  cases flag <;> decide

theorem Flag.ofByte?_digit
    {byte : UInt8}
    (digit : isDigit byte = true)
    (notZero : byte ≠ ascii '0') :
    Flag.ofByte? byte = none := by
  rw [Option.eq_none_iff_forall_ne_some]
  intro flag found
  have sameByte := Flag.byte_of_ofByte? found
  subst sameByte
  cases flag with
  | zeroPad => exact notZero rfl
  | leftJustify => exact absurd digit (by decide)
  | forceSign => exact absurd digit (by decide)
  | spaceSign => exact absurd digit (by decide)
  | alternate => exact absurd digit (by decide)

/-- A text that does not begin with a flag. -/
def EndsFlags (text : Bytes) : Prop :=
  ∀ byte ∈ text.head?, Flag.ofByte? byte = none

/-- A text that begins neither with a flag nor with a quantity. -/
def EndsQuantity (text : Bytes) : Prop :=
  ∀ byte ∈ text.head?,
    isDigit byte = false ∧ byte ≠ ascii '*' ∧ Flag.ofByte? byte = none

/-- A run of flags is read up to the first byte that is none. -/
theorem readFlags_append
    (run : List Flag)
    {tail : Bytes}
    (ends : EndsFlags tail) :
    readFlags (run.map Flag.byte ++ tail) = (run, tail) := by
  induction run with
  | nil =>
      cases tail with
      | nil => rfl
      | cons byte rest =>
          have noFlag : Flag.ofByte? byte = none := ends byte rfl
          simp [readFlags, noFlag]
  | cons flag rest inductionHypothesis =>
      simp only [List.map_cons, List.cons_append, readFlags, Flag.ofByte?_byte,
        inductionHypothesis]

/-- What is read as flags spells them, and no flag follows. -/
theorem readFlags_spells
    (text : Bytes) :
    text = (readFlags text).1.map Flag.byte ++ (readFlags text).2 ∧
      EndsFlags (readFlags text).2 := by
  induction text with
  | nil =>
      simp [readFlags, EndsFlags]
  | cons byte rest inductionHypothesis =>
      unfold readFlags
      split
      · rename_i flag found
        refine ⟨?_, inductionHypothesis.2⟩
        simp only [List.map_cons, List.cons_append, Flag.byte_of_ofByte? found]
        exact congrArg (byte :: ·) inductionHypothesis.1
      · rename_i notFound
        refine ⟨rfl, ?_⟩
        intro first member
        cases member
        exact notFound

/-- No digit follows a run of digits that is read. -/
theorem takeWhile_isDigit_append
    {run tail : Bytes}
    (digits : ∀ byte ∈ run, isDigit byte = true)
    (ends : EndsQuantity tail) :
    (run ++ tail).takeWhile isDigit = run ∧
      (run ++ tail).dropWhile isDigit = tail := by
  have noDigit : ∀ byte ∈ tail.head?, isDigit byte = false :=
    fun byte first => (ends byte first).1
  exact ⟨takeWhile_run_append digits noDigit, dropWhile_run_append digits noDigit⟩

theorem readWidth_of_ends
    {tail : Bytes}
    (ends : EndsQuantity tail) :
    readWidth tail = (.absent, tail) := by
  cases tail with
  | nil => rfl
  | cons byte rest =>
      obtain ⟨noDigit, noStar, _⟩ := ends byte rfl
      simp [readWidth, readNumber, noDigit, noStar]

/-- A quantity is read up to the first byte that cannot belong to it. -/
theorem readWidth_append
    {quantity : Quantity}
    {tail : Bytes}
    (nonempty : quantity.bytes ≠ [])
    (ends : EndsQuantity tail) :
    readWidth (quantity.bytes ++ tail) = (quantity.amount, tail) := by
  cases quantity with
  | star =>
      simp [readWidth, Quantity.bytes, Quantity.amount]
  | number run digits =>
      obtain ⟨taken, dropped⟩ := takeWhile_isDigit_append digits ends
      cases run with
      | nil => exact absurd rfl nonempty
      | cons first rest =>
          have firstDigit : isDigit first = true := digits first (by simp)
          have noStar : first ≠ ascii '*' := by
            rintro rfl
            exact absurd firstDigit (by decide)
          rw [Quantity.bytes, List.cons_append, readWidth, if_neg noStar,
            ← List.cons_append, readNumber, taken, dropped]
          simp [Quantity.amount, decimalWord_eq]

theorem readWidth_widthBytes
    {width : Option Quantity}
    (widthIsWidth : ∀ quantity ∈ width, quantity.IsWidth)
    {tail : Bytes}
    (ends : EndsQuantity tail) :
    readWidth (Spelling.widthBytes width ++ tail) =
      (width.elim .absent Quantity.amount, tail) := by
  cases width with
  | none => exact readWidth_of_ends ends
  | some quantity =>
      obtain ⟨first, rest, shape, _⟩ := widthIsWidth quantity rfl
      have nonempty : quantity.bytes ≠ [] := by
        simp [shape]
      exact readWidth_append nonempty ends

/-- What is read as a width spells it, and a quantity that is read has bytes. -/
theorem readWidth_spells
    (text : Bytes) :
    ∃ quantity : Option Quantity,
      text = Spelling.widthBytes quantity ++ (readWidth text).2 ∧
        (readWidth text).1 = quantity.elim .absent Quantity.amount ∧
        ∀ present ∈ quantity, present.bytes ≠ [] := by
  cases text with
  | nil =>
      exact ⟨none, rfl, rfl, by simp⟩
  | cons byte rest =>
      by_cases isStar : byte = ascii '*'
      · subst isStar
        refine ⟨some .star, ?_, ?_, ?_⟩
        · simp [readWidth, Spelling.widthBytes, Quantity.bytes]
        · simp [readWidth, Quantity.amount]
        · simp [Quantity.bytes]
      · by_cases noDigits : (byte :: rest).takeWhile isDigit = []
        · have nothingDropped :
              (byte :: rest).dropWhile isDigit = byte :: rest := by
            have whole :
                (byte :: rest).takeWhile isDigit ++
                    (byte :: rest).dropWhile isDigit =
                  byte :: rest :=
              List.takeWhile_append_dropWhile
            rwa [noDigits, List.nil_append] at whole
          refine ⟨none, ?_, ?_, by simp⟩
          · simp only [readWidth, if_neg isStar, readNumber, nothingDropped]
            rfl
          · simp only [readWidth, if_neg isStar, readNumber, noDigits]
            rfl
        · refine
            ⟨some (.number ((byte :: rest).takeWhile isDigit)
                fun _ member => List.mem_takeWhile_imp member), ?_, ?_, ?_⟩
          · simp only [readWidth, if_neg isStar, readNumber,
              Spelling.widthBytes, Option.elim_some, Quantity.bytes,
              List.takeWhile_append_dropWhile]
          · simp only [readWidth, if_neg isStar, readNumber, if_neg noDigits,
              Option.elim_some, Quantity.amount, decimalWord_eq]
          · simpa [Quantity.bytes] using noDigits

/-- A precision is read back with its point, whatever digits it has. -/
theorem readPrecision_append
    (precision : Option Quantity)
    {tail : Bytes}
    (ends : EndsQuantity tail)
    (noPoint : ∀ byte ∈ tail.head?, byte ≠ ascii '.') :
    readPrecision (Spelling.precisionBytes precision ++ tail) =
      (precision.elim .absent Quantity.amount, tail) := by
  cases precision with
  | none =>
      cases tail with
      | nil => rfl
      | cons byte rest =>
          have notPoint : byte ≠ ascii '.' := noPoint byte rfl
          simp [Spelling.precisionBytes, readPrecision, notPoint]
  | some quantity =>
      simp only [Spelling.precisionBytes, Option.elim_some,
        List.cons_append, readPrecision]
      by_cases empty : quantity.bytes = []
      · cases quantity with
        | star => cases empty
        | number run digits =>
            cases empty
            simp only [Quantity.bytes, List.nil_append, readWidth_of_ends ends]
            rfl
      · rw [readWidth_append empty ends]
        cases quantity <;> simp [Quantity.amount]

theorem readPrecision_spells
    (text : Bytes) :
    ∃ precision : Option Quantity,
      text = Spelling.precisionBytes precision ++ (readPrecision text).2 ∧
        (readPrecision text).1 = precision.elim .absent Quantity.amount := by
  cases text with
  | nil =>
      exact ⟨none, rfl, rfl⟩
  | cons byte rest =>
      by_cases isPoint : byte = ascii '.'
      · subst isPoint
        obtain ⟨quantity, sameText, sameAmount, _⟩ := readWidth_spells rest
        cases quantity with
        | none =>
            refine ⟨some (.number [] (by simp)), ?_, ?_⟩
            · simp only [Spelling.precisionBytes, Option.elim_some,
                Quantity.bytes, readPrecision, if_pos]
              exact congrArg (ascii '.' :: ·) sameText
            · simp only [readPrecision, if_pos, sameAmount]
              rfl
        | some present =>
            refine ⟨some present, ?_, ?_⟩
            · simp only [Spelling.precisionBytes, Option.elim_some,
                readPrecision, if_pos]
              exact congrArg (ascii '.' :: ·) sameText
            · simp only [readPrecision, if_pos, sameAmount, Option.elim_some]
              cases present <;> simp [Quantity.amount]
      · refine ⟨none, ?_, ?_⟩
        · simp [Spelling.precisionBytes, readPrecision, isPoint]
        · simp [readPrecision, isPoint]

theorem readLength_append
    (length : LengthModifier)
    (conversion : Conversion)
    (rest : Bytes) :
    readLength (length.bytes ++ conversion.byte :: rest) =
      (length, conversion.byte :: rest) := by
  have notH : conversion.byte ≠ ascii 'h' := by
    cases conversion <;> decide
  have notL : conversion.byte ≠ ascii 'l' := by
    cases conversion <;> decide
  cases length with
  | absent =>
      have notZ : conversion.byte ≠ ascii 'z' := by
        cases conversion <;> decide
      have notT : conversion.byte ≠ ascii 't' := by
        cases conversion <;> decide
      have notJ : conversion.byte ≠ ascii 'j' := by
        cases conversion <;> decide
      change readLength (conversion.byte :: rest) = _
      simp [readLength, notH, notL, notZ, notT, notJ]
  | hh => rfl
  | h =>
      change readLength (ascii 'h' :: conversion.byte :: rest) = _
      simp [readLength, notH]
  | l =>
      have distinct : ascii 'l' ≠ ascii 'h' := by decide
      change readLength (ascii 'l' :: conversion.byte :: rest) = _
      simp [readLength, distinct, notL]
  | ll => rfl
  | z => rfl
  | t => rfl
  | j => rfl

theorem readLength_spells
    (text : Bytes) :
    text = (readLength text).1.bytes ++ (readLength text).2 := by
  cases text with
  | nil => rfl
  | cons first rest =>
      unfold readLength
      dsimp only
      split_ifs with isH doubled isL doubled isZ isT isJ
      · obtain ⟨after, shape⟩ := List.head?_eq_some_iff.mp doubled
        simp [LengthModifier.bytes_eq, shape, isH]
      · simp [LengthModifier.bytes_eq, isH]
      · obtain ⟨after, shape⟩ := List.head?_eq_some_iff.mp doubled
        simp [LengthModifier.bytes_eq, shape, isL]
      · simp [LengthModifier.bytes_eq, isL]
      · simp [LengthModifier.bytes_eq, isZ]
      · simp [LengthModifier.bytes_eq, isT]
      · simp [LengthModifier.bytes_eq, isJ]
      · simp [LengthModifier.bytes_eq]

theorem readConversion?_cons
    (conversion : Conversion)
    (rest : Bytes) :
    readConversion? (conversion.byte :: rest) = some (conversion, rest) := by
  have found : Conversion.ofByte? conversion.byte = some conversion := by
    cases conversion <;> decide
  simp [readConversion?, found]

theorem readConversion?_spells
    {text rest : Bytes}
    {conversion : Conversion}
    (accepted : readConversion? text = some (conversion, rest)) :
    text = conversion.byte :: rest := by
  cases text with
  | nil => cases accepted
  | cons byte after =>
      obtain ⟨found, foundByte, pair⟩ := Option.map_eq_some_iff.mp accepted
      cases pair
      have sameByte : conversion.byte = byte := by
        simpa [Conversion.byte] using List.find?_some foundByte
      rw [sameByte]

/-- No flag, quantity or point can begin where a length modifier does. -/
theorem ends_beforeLength
    (length : LengthModifier)
    (conversion : Conversion)
    (rest : Bytes) :
    EndsQuantity (length.bytes ++ conversion.byte :: rest) ∧
      ∀ byte ∈ (length.bytes ++ conversion.byte :: rest).head?,
        byte ≠ ascii '.' := by
  have headShape :
      ∃ first after,
        length.bytes ++ conversion.byte :: rest = first :: after ∧
          (isDigit first = false ∧ first ≠ ascii '*' ∧
            Flag.ofByte? first = none) ∧
          first ≠ ascii '.' := by
    cases length with
    | absent =>
        refine ⟨conversion.byte, rest, rfl, ?_⟩
        cases conversion <;> decide
    | hh => exact ⟨ascii 'h', _, rfl, by decide⟩
    | h => exact ⟨ascii 'h', _, rfl, by decide⟩
    | l => exact ⟨ascii 'l', _, rfl, by decide⟩
    | ll => exact ⟨ascii 'l', _, rfl, by decide⟩
    | z => exact ⟨ascii 'z', _, rfl, by decide⟩
    | t => exact ⟨ascii 't', _, rfl, by decide⟩
    | j => exact ⟨ascii 'j', _, rfl, by decide⟩
  obtain ⟨first, after, shape, endsFirst, noPoint⟩ := headShape
  rw [shape]
  constructor
  · intro byte member
    cases member
    exact endsFirst
  · intro byte member
    cases member
    exact noPoint

theorem ends_beforePrecision
    (precision : Option Quantity)
    {tail : Bytes}
    (ends : EndsQuantity tail) :
    EndsQuantity (Spelling.precisionBytes precision ++ tail) := by
  cases precision with
  | none => exact ends
  | some quantity =>
      intro byte member
      cases member
      decide

theorem ends_beforeWidth
    {width : Option Quantity}
    (widthIsWidth : ∀ quantity ∈ width, quantity.IsWidth)
    {tail : Bytes}
    (ends : EndsQuantity tail) :
    EndsFlags (Spelling.widthBytes width ++ tail) := by
  cases width with
  | none =>
      intro byte member
      exact (ends byte member).2.2
  | some quantity =>
      obtain ⟨first, rest, shape, notZero⟩ := widthIsWidth quantity rfl
      simp only [Spelling.widthBytes, Option.elim_some, shape]
      intro byte member
      cases member
      cases quantity with
      | star =>
          cases shape
          decide
      | number run digits =>
          have firstDigit : isDigit first = true :=
            digits first (by
              change run = first :: rest at shape
              simp [shape])
          exact Flag.ofByte?_digit firstDigit notZero

/-- In a run of flags, a plus sign clears a space and a minus sign a zero. -/
theorem Flags.normalized_ofList
    (run : List Flag) :
    (Flags.ofList run).normalized = {
      leftJustify := .leftJustify ∈ run
      forceSign := .forceSign ∈ run
      spaceSign := .spaceSign ∈ run ∧ .forceSign ∉ run
      alternate := .alternate ∈ run
      zeroPad := .zeroPad ∈ run ∧ .leftJustify ∉ run
    } := by
  simp [Flags.ofList, Flags.normalized]

namespace Directive

/-- A spelled directive is read back, whatever follows it. -/
theorem read?_append
    (spelling : Spelling)
    (rest : Bytes) :
    read? (spelling.bytes ++ rest) = some (spelling.directive, rest) := by
  obtain ⟨endsLength, noPoint⟩ :=
    ends_beforeLength spelling.length spelling.conversion rest
  have endsPrecision := ends_beforePrecision spelling.precision endsLength
  have endsWidth := ends_beforeWidth spelling.widthIsWidth endsPrecision
  have shape :
      spelling.bytes ++ rest =
        spelling.flags.map Flag.byte ++
          (Spelling.widthBytes spelling.width ++
            (Spelling.precisionBytes spelling.precision ++
              (spelling.length.bytes ++
                spelling.conversion.byte :: rest))) := by
    simp [Spelling.bytes]
  rw [shape, read?, readFlags_append _ endsWidth]
  dsimp only
  rw [readWidth_widthBytes spelling.widthIsWidth endsPrecision]
  dsimp only
  rw [readPrecision_append _ endsLength noPoint]
  dsimp only
  rw [readLength_append, Flags.normalized_ofList]
  dsimp only
  rw [readConversion?_cons]
  rfl

/-- A directive that is read is spelled by the bytes in front of the rest. -/
theorem read?_spells
    {text rest : Bytes}
    {directive : Directive}
    (accepted : read? text = some (directive, rest)) :
    ∃ spelling : Spelling,
      text = spelling.bytes ++ rest ∧ spelling.directive = directive := by
  obtain ⟨flagsText, endsFlags⟩ := readFlags_spells text
  rcases flagsRead : readFlags text with ⟨run, afterFlags⟩
  rw [flagsRead] at flagsText endsFlags
  obtain ⟨width, widthText, widthAmount, widthNonempty⟩ :=
    readWidth_spells afterFlags
  rcases widthRead : readWidth afterFlags with ⟨widthFound, afterWidth⟩
  rw [widthRead] at widthText widthAmount
  obtain ⟨precision, precisionText, precisionAmount⟩ :=
    readPrecision_spells afterWidth
  rcases precisionRead : readPrecision afterWidth with
    ⟨precisionFound, afterPrecision⟩
  rw [precisionRead] at precisionText precisionAmount
  have lengthText := readLength_spells afterPrecision
  rcases lengthRead : readLength afterPrecision with ⟨length, afterLength⟩
  rw [lengthRead] at lengthText
  simp only [read?, flagsRead, widthRead, precisionRead, lengthRead,
    Option.map_eq_some_iff] at accepted
  obtain ⟨⟨conversion, after⟩, letter, pair⟩ := accepted
  cases pair
  have letterText := readConversion?_spells letter
  have widthIsWidth : ∀ quantity ∈ width, quantity.IsWidth := by
    intro quantity present
    cases present
    obtain ⟨first, others, shape⟩ :=
      List.exists_cons_of_ne_nil (widthNonempty quantity rfl)
    refine ⟨first, others, shape, ?_⟩
    rintro rfl
    have zeroIsNoFlag : Flag.ofByte? (ascii '0') = none := by
      apply endsFlags
      rw [widthText]
      simp [Spelling.widthBytes, shape]
    exact absurd zeroIsNoFlag (by decide)
  refine
    ⟨{ flags := run, width, precision, length, conversion, widthIsWidth },
      ?_, ?_⟩
  · rw [flagsText, widthText, precisionText, lengthText, letterText]
    simp [Spelling.bytes]
  · simp only at widthAmount precisionAmount
    rw [widthAmount, precisionAmount, Flags.normalized_ofList]
    rfl

/-- Of all spellings, at most one stands at the front of a text. -/
theorem spelling_bytes_unique
    {text : Bytes}
    {first second : Spelling}
    (firstInFront : first.bytes <+: text)
    (secondInFront : second.bytes <+: text) :
    first.bytes = second.bytes := by
  obtain ⟨afterFirst, firstText⟩ := firstInFront
  obtain ⟨afterSecond, secondText⟩ := secondInFront
  have sameReading :
      some (first.directive, afterFirst) =
        some (second.directive, afterSecond) := by
    rw [← read?_append first afterFirst, ← read?_append second afterSecond,
      firstText, secondText]
  have sameRest : afterFirst = afterSecond := by
    injection sameReading with samePair
    exact congrArg Prod.snd samePair
  rw [← secondText, sameRest] at firstText
  exact List.append_cancel_right firstText

/-- A directive spans exactly the bytes that spell it. -/
theorem readSpan?_eq_some_iff
    {text : Bytes}
    {directive : Directive}
    {span : Nat} :
    readSpan? text = some (directive, span) ↔
      ∃ spelling : Spelling,
        spelling.bytes <+: text ∧
          spelling.bytes.length = span ∧ spelling.directive = directive := by
  simp only [readSpan?, Option.map_eq_some_iff, Prod.exists, Prod.mk.injEq]
  constructor
  · rintro ⟨found, rest, accepted, rfl, rfl⟩
    obtain ⟨spelling, rfl, sameDirective⟩ := read?_spells accepted
    exact ⟨spelling, List.prefix_append _ _, by simp, sameDirective⟩
  · rintro ⟨spelling, ⟨rest, rfl⟩, rfl, rfl⟩
    have accepted := read?_append spelling rest
    exact ⟨spelling.directive, rest, accepted, rfl, by simp⟩

theorem readSpan?_of_read?
    {text rest : Bytes}
    {directive : Directive}
    (accepted : read? text = some (directive, rest)) :
    ∃ body,
      text = body ++ rest ∧
        readSpan? (body ++ rest) = some (directive, body.length) := by
  obtain ⟨spelling, rfl, rfl⟩ := read?_spells accepted
  refine ⟨spelling.bytes, rfl, readSpan?_eq_some_iff.mpr ?_⟩
  exact ⟨spelling, List.prefix_append _ _, rfl, rfl⟩

/--
A text is read as a directive that spans some of its bytes exactly when those
bytes spell that directive.  They alone decide, whatever follows them, and no
other front of the text spells a directive.
-/
theorem readSpan?_iff_spelled
    (text : Bytes)
    (directive : Directive)
    (span : Nat) :
    (readSpan? text = some (directive, span) ↔
      ∃ spelling : Spelling,
        spelling.bytes <+: text ∧
          spelling.bytes.length = span ∧ spelling.directive = directive) ∧
      (∀ other,
        readSpan? text = some (directive, span) →
          readSpan? (text.take span ++ other) = some (directive, span)) ∧
      ∀ first second : Spelling,
        first.bytes <+: text →
        second.bytes <+: text →
        first.bytes = second.bytes := by
  refine ⟨readSpan?_eq_some_iff, ?_, fun _ _ => spelling_bytes_unique⟩
  intro other accepted
  obtain ⟨spelling, ⟨rest, rfl⟩, rfl, rfl⟩ :=
    readSpan?_eq_some_iff.mp accepted
  rw [List.take_left, readSpan?_eq_some_iff]
  exact ⟨spelling, List.prefix_append _ _, rfl, rfl⟩

/-- A directive with every part, read in front of two different texts. -/
theorem readSpan?_fullySpelled :
    let directive : Directive := {
      flags := { Flags.none with leftJustify := true }
      width := .fixed 8
      precision := .fixed 3
      length := .l
      conversion := .hexadecimal
    }
    readSpan? (Bytes.ofText "-08.3lx%d") = some (directive, 7) ∧
      readSpan? (Bytes.ofText "-08.3lx" ++ Bytes.ofText "x") =
        some (directive, 7) := by
  intro directive
  have accepted :
      readSpan? (Bytes.ofText "-08.3lx%d") = some (directive, 7) := by
    decide
  have sameFront :=
    (readSpan?_iff_spelled (Bytes.ofText "-08.3lx%d") directive 7).2.1
  exact ⟨accepted, sameFront (Bytes.ofText "x") accepted⟩

end Directive

end Format

end LibcConformance
