import LibcConformance.Proofs.Format.DecimalQuantity

namespace LibcConformance

/-!
# Canonical forms of directives

Not every directive can be read.  A plus sign has cleared a space in what is
read, a minus sign has cleared a zero, and a width is never the number zero,
because a zero there is a flag.  A directive that obeys these rules has a
canonical form, which is read back as that directive whatever follows it.  So
the rules describe exactly what reading can yield.
-/

namespace Format

/-- The parts of a directive, with any byte in the place of its letter. -/
structure DirectiveParts where
  flags : Flags
  width : Amount
  precision : Amount
  length : LengthModifier
  letter : UInt8
  deriving Repr, DecidableEq

def Directive.parts (directive : Directive) : DirectiveParts where
  flags := directive.flags
  width := directive.width
  precision := directive.precision
  length := directive.length
  letter := directive.conversion.byte

namespace Amount

/-- A number in decimal, or a star. -/
def canonical : Amount → Bytes
  | .absent => []
  | .fixed value => Numeral.bytes 10 false value.toNat
  | .fromArgument => [ascii '*']

/-- A precision has a point in front of it, if there is one. -/
def canonicalPrecision (precision : Amount) : Bytes :=
  if precision = .absent then [] else ascii '.' :: precision.canonical

def quantity? : Amount → Option Quantity
  | .absent => none
  | .fixed value => some (.decimal value.toNat)
  | .fromArgument => some .star

end Amount

namespace DirectiveParts

/-- The letter is one of a conversion, no flag is overridden, and the width is not zero. -/
structure IsNormal (parts : DirectiveParts) : Prop where
  letter : parts.letter ∈ Bytes.ofText "diuxXoscp"
  oneSign :
    ¬ (parts.flags.forceSign = true ∧ parts.flags.spaceSign = true)
  oneFill :
    ¬ (parts.flags.leftJustify = true ∧ parts.flags.zeroPad = true)
  widthNotZero : parts.width ≠ .fixed 0

/-- The flags that are set, the width, the precision, the modifier and the letter. -/
def canonical (parts : DirectiveParts) : Bytes :=
  parts.flags.toList.map Flag.byte ++
    (parts.width.canonical ++
      (parts.precision.canonicalPrecision ++
        (parts.length.bytes ++ [parts.letter])))

end DirectiveParts

theorem Conversion.exists_byte_eq_iff
    (letter : UInt8) :
    (∃ conversion : Conversion, conversion.byte = letter) ↔
      letter ∈ Bytes.ofText "diuxXoscp" := by
  have letters : Bytes.ofText "diuxXoscp" = all.map Conversion.byte := by
    decide
  rw [letters, List.mem_map]
  constructor
  · rintro ⟨conversion, isLetter⟩
    exact ⟨conversion, by cases conversion <;> decide, isLetter⟩
  · rintro ⟨conversion, _, isLetter⟩
    exact ⟨conversion, isLetter⟩

/-- Flags that override none of each other are those of the list of them. -/
theorem Flags.normalized_ofList_toList
    {flags : Flags}
    (oneSign : ¬ (flags.forceSign = true ∧ flags.spaceSign = true))
    (oneFill : ¬ (flags.leftJustify = true ∧ flags.zeroPad = true)) :
    (ofList flags.toList).normalized = flags := by
  rcases flags with ⟨leftJustify, forceSign, spaceSign, alternate, zeroPad⟩
  revert leftJustify forceSign spaceSign alternate zeroPad
  decide

/-- A run of digits that does not begin with a zero stands for a positive number. -/
theorem runValue_pos
    {first : UInt8}
    {rest : Bytes}
    (digit : isDigit first = true)
    (notZero : first ≠ ascii '0') :
    0 < runValue (first :: rest) := by
  have leading : 0 < first.toNat - (ascii '0').toNat := by
    have atLeast : ascii '0' ≤ first := by
      simp only [isDigit, Bool.and_eq_true, decide_eq_true_eq] at digit
      exact digit.1
    have above : ascii '0' < first :=
      UInt8.lt_of_le_of_ne atLeast notZero.symm
    exact Nat.sub_pos_of_lt (UInt8.lt_iff_toNat_lt.mp above)
  rw [runValue, List.reverse_cons, List.map_append, List.map_singleton,
    Nat.ofDigits_append, Nat.ofDigits_singleton]
  have place : 0 < 10 ^ (rest.reverse.map fun digit =>
      digit.toNat - (ascii '0').toNat).length :=
    Nat.pow_pos (by decide)
  exact Nat.add_pos_right _ (Nat.mul_pos place leading)

/-- A width that is spelled is not the number zero. -/
theorem Quantity.IsWidth.amount_ne_zero
    {quantity : Quantity}
    (isWidth : quantity.IsWidth) :
    quantity.amount ≠ .fixed 0 := by
  obtain ⟨first, rest, shape, notZero⟩ := isWidth
  cases quantity with
  | star => simp [amount]
  | number run digits =>
      change run = first :: rest at shape
      subst shape
      have positive : 0 < runValue (first :: rest) :=
        runValue_pos (digits first List.mem_cons_self) notZero
      have fits : min (runValue (first :: rest)) (2 ^ 64 - 1) < 2 ^ 64 := by
        omega
      rw [amount, ne_eq, Amount.fixed.injEq, ← UInt64.toNat_inj,
        UInt64.toNat_ofNat_of_lt' fits, UInt64.toNat_zero]
      omega

namespace Amount

theorem widthBytes_quantity?
    (amount : Amount) :
    Spelling.widthBytes amount.quantity? = amount.canonical := by
  cases amount <;> rfl

theorem precisionBytes_quantity?
    (amount : Amount) :
    Spelling.precisionBytes amount.quantity? = amount.canonicalPrecision := by
  cases amount <;> rfl

/-- An amount is what its quantity asks for. -/
theorem elim_quantity?
    (amount : Amount) :
    amount.quantity?.elim .absent Quantity.amount = amount := by
  cases amount with
  | absent => rfl
  | fixed value =>
      rw [quantity?, Option.elim_some, Quantity.amount_decimal value.toNat_lt,
        UInt64.ofNat_toNat]
  | fromArgument => rfl

theorem isWidth_quantity?
    {width : Amount}
    (notZero : width ≠ .fixed 0) :
    ∀ quantity ∈ width.quantity?, quantity.IsWidth := by
  intro quantity present
  cases width with
  | absent => cases present
  | fixed value =>
      cases present
      have positive : 0 < value.toNat := by
        rw [Nat.pos_iff_ne_zero, ← UInt64.toNat_zero, ne_eq, UInt64.toNat_inj]
        rintro rfl
        exact notZero rfl
      exact Quantity.isWidth_decimal positive
  | fromArgument =>
      cases present
      exact ⟨ascii '*', [], rfl, by decide⟩

end Amount

namespace DirectiveParts

/-- The canonical form of normal parts spells a directive that has them. -/
theorem IsNormal.exists_spelling
    {parts : DirectiveParts}
    (normal : parts.IsNormal) :
    ∃ spelling : Spelling,
      spelling.bytes = parts.canonical ∧ spelling.directive.parts = parts := by
  rcases parts with ⟨flags, width, precision, length, letter⟩
  obtain ⟨conversion, isLetter⟩ :=
    (Conversion.exists_byte_eq_iff letter).mpr normal.letter
  have sameFlags :=
    Flags.normalized_ofList_toList normal.oneSign normal.oneFill
  rw [Flags.normalized_ofList] at sameFlags
  refine
    ⟨{ flags := flags.toList
       width := width.quantity?
       precision := precision.quantity?
       length, conversion
       widthIsWidth := Amount.isWidth_quantity? normal.widthNotZero }, ?_, ?_⟩
  · simp only [Spelling.bytes, canonical, Amount.widthBytes_quantity?,
      Amount.precisionBytes_quantity?, isLetter]
  · simp only [Directive.parts, Spelling.directive, Amount.elim_quantity?,
      isLetter, sameFlags]

/-- Whatever is spelled has normal parts. -/
theorem isNormal_of_spelling
    (spelling : Spelling) :
    spelling.directive.parts.IsNormal where
  letter := (Conversion.exists_byte_eq_iff _).mp ⟨spelling.conversion, rfl⟩
  oneSign := by
    simp only [Directive.parts, Spelling.directive, decide_eq_true_eq]
    rintro ⟨forced, _, notForced⟩
    exact notForced forced
  oneFill := by
    simp only [Directive.parts, Spelling.directive, decide_eq_true_eq]
    rintro ⟨justified, _, notJustified⟩
    exact notJustified justified
  widthNotZero := by
    simp only [Directive.parts, Spelling.directive]
    cases given : spelling.width with
    | none => simp
    | some quantity =>
        exact (spelling.widthIsWidth quantity given).amount_ne_zero

/--
The directives that a text can be read as are those with normal parts, and the
canonical form of normal parts is read back in full, whatever follows it.
-/
theorem readSpan?_canonical
    (parts : DirectiveParts) :
    ((∃ text directive span,
        Directive.readSpan? text = some (directive, span) ∧
          directive.parts = parts) ↔
      parts.IsNormal) ∧
      (parts.IsNormal →
        ∃ directive,
          directive.parts = parts ∧
            ∀ rest,
              Directive.readSpan? (parts.canonical ++ rest) =
                some (directive, parts.canonical.length)) := by
  have readBack :
      parts.IsNormal →
        ∃ directive,
          directive.parts = parts ∧
            ∀ rest,
              Directive.readSpan? (parts.canonical ++ rest) =
                some (directive, parts.canonical.length) := by
    intro normal
    obtain ⟨spelling, spells, sameParts⟩ := normal.exists_spelling
    refine ⟨spelling.directive, sameParts, fun rest => ?_⟩
    rw [← spells]
    exact
      Directive.readSpan?_eq_some_iff.mpr
        ⟨spelling, List.prefix_append _ _, rfl, rfl⟩
  refine ⟨⟨?_, ?_⟩, readBack⟩
  · rintro ⟨text, directive, span, accepted, rfl⟩
    obtain ⟨spelling, _, _, rfl⟩ :=
      Directive.readSpan?_eq_some_iff.mp accepted
    exact isNormal_of_spelling spelling
  · intro normal
    obtain ⟨directive, sameParts, accepted⟩ := readBack normal
    exact ⟨parts.canonical ++ [], directive, _, accepted [], sameParts⟩

/-- The largest width, written in full in front of a digit and another letter. -/
theorem readSpan?_canonical_largestWidth :
    let parts : DirectiveParts := {
      flags := { Flags.none with forceSign := true, zeroPad := true }
      width := .fixed 18446744073709551615
      precision := .fixed 0
      length := .hh
      letter := ascii 'x'
    }
    parts.IsNormal ∧
      parts.canonical = Bytes.ofText "+018446744073709551615.0hhx" ∧
        ∃ directive,
          directive.parts = parts ∧
            Directive.readSpan? (parts.canonical ++ Bytes.ofText "5d") =
              some (directive, parts.canonical.length) := by
  intro parts
  have normal : parts.IsNormal := ⟨by decide, by decide, by decide, by decide⟩
  obtain ⟨directive, sameParts, accepted⟩ :=
    (readSpan?_canonical parts).2 normal
  exact ⟨normal, by decide +kernel, directive, sameParts, accepted _⟩

end DirectiveParts

end Format

end LibcConformance
