import LibcConformance.Proofs.Format.IntegerField

namespace LibcConformance

/-!
# Octal numbers in the alternate form

The alternate form of an octal number has to begin with a zero, and a precision
that already brings zeros needs no other.  What is written does begin with a
zero and has as many digits as it should, unless the precision asks for more
digits than the number has: then the zero comes on top of them.  At precision
zero, zero has no digit at all.
-/

namespace Format

/-- A field without the spaces in front of it and behind it. -/
def withoutSpaces (field : Bytes) : Bytes :=
  let behind := field.dropWhile (· = ascii ' ')
  (behind.reverse.dropWhile (· = ascii ' ')).reverse

/-- The octal digits of a number behind one zero; of zero, that one alone. -/
def leastOctalCount (value : Nat) : Nat :=
  (Nat.digits 8 value).length + 1

namespace Directive

/-- Digits of a number that begin with a zero, and are no more than asked for. -/
structure LeadsWithZero
    (directive : Directive)
    (value : Nat)
    (shown : Bytes) : Prop where
  denotes : Numeral.Denotes 8 false shown value
  zeroFirst : shown.head? = some (ascii '0')
  counted :
    ¬ directive.ZeroFills →
      shown.length = max directive.precision.number (leastOctalCount value)
  filled :
    directive.ZeroFills →
      shown.length = max directive.width.number (leastOctalCount value)

/-- The precision asks for no zeros in front of a number, and for a digit of zero. -/
structure PrecisionFits
    (directive : Directive)
    (value : Nat) : Prop where
  ofZero : value = 0 → directive.precision ≠ .fixed 0
  ofPositive :
    0 < value → directive.precision.number ≤ (Nat.digits 8 value).length

end Directive

/-- No digit of a numeral is a space. -/
theorem ne_space_of_denotes
    {shown : Bytes}
    {value : Nat}
    (denotes : Numeral.Denotes 8 false shown value) :
    ∀ byte ∈ shown, byte ≠ ascii ' ' := by
  obtain ⟨digits, bounded, rfl, _⟩ := denotes
  intro byte member
  obtain ⟨digit, inDigits, rfl⟩ := List.mem_map.mp member
  have below := bounded digit inDigits
  interval_cases digit <;> decide

/-- Spaces are taken away up to the first byte that is none. -/
theorem dropWhile_spaces_append
    {field : Bytes}
    (noSpaceFirst : field.head? ≠ some (ascii ' '))
    (count : Nat) :
    (List.replicate count (ascii ' ') ++ field).dropWhile (· = ascii ' ') =
      field := by
  refine dropWhile_run_append (by simp) fun first isFirst => ?_
  apply decide_eq_false
  rintro rfl
  exact noSpaceFirst isFirst

/-- Spaces around digits are taken away, and nothing else is. -/
theorem withoutSpaces_surrounded
    {shown : Bytes}
    (noSpaces : ∀ byte ∈ shown, byte ≠ ascii ' ')
    (before after : Nat) :
    withoutSpaces
        (List.replicate before (ascii ' ') ++ shown ++
          List.replicate after (ascii ' ')) =
      shown := by
  cases shown with
  | nil => simp [withoutSpaces]
  | cons first rest =>
      let shown := first :: rest
      have firstShown :
          (shown ++ List.replicate after (ascii ' ')).head? ≠
            some (ascii ' ') := by
        simpa [shown] using noSpaces first List.mem_cons_self
      have lastShown : shown.reverse.head? ≠ some (ascii ' ') := by
        intro isSpace
        have member : ascii ' ' ∈ shown.reverse := List.mem_of_head? isSpace
        exact noSpaces _ (List.mem_reverse.mp member) rfl
      rw [withoutSpaces, List.append_assoc,
        dropWhile_spaces_append firstShown, List.reverse_append,
        List.reverse_replicate, dropWhile_spaces_append lastShown,
        List.reverse_reverse]

namespace Directive

variable
  {directive : Directive}

/-- Uncut, an integer is laid out as its lead, zeros and digits between spaces. -/
theorem exists_layoutInteger_eq
    (narrow : directive.width.number ≤ 4096)
    (precise : directive.precision.number ≤ 4096)
    (lead numeral : Bytes) :
    let digits :=
      if numeral = [ascii '0'] ∧ directive.precision = .fixed 0 then
        []
      else
        numeral
    ∃ before zeros after,
      directive.layoutInteger lead numeral =
          List.replicate before (ascii ' ') ++
            (lead ++ (List.replicate zeros (ascii '0') ++ digits)) ++
              List.replicate after (ascii ' ') ∧
        (¬ directive.ZeroFills →
          zeros = directive.precision.number - digits.length) ∧
          (directive.ZeroFills →
            zeros = directive.width.number - (lead.length + digits.length)) := by
  intro digits
  let zeros := directive.precision.number - digits.length
  let fill := directive.width.number - directive.integerSize lead digits
  have fewZeros : zeros ≤ 4096 := (Nat.sub_le _ _).trans precise
  have shortFill : fill ≤ 4096 := (Nat.sub_le _ _).trans narrow
  have laidOut :
      directive.layoutInteger lead numeral =
        if directive.flags.leftJustify then
          lead ++ (List.replicate zeros (ascii '0') ++ digits) ++
            List.replicate fill (ascii ' ')
        else if directive.flags.zeroPad ∧ directive.precision = .absent then
          lead ++ List.replicate fill (ascii '0') ++
            (List.replicate zeros (ascii '0') ++ digits)
        else
          List.replicate fill (ascii ' ') ++ lead ++
            (List.replicate zeros (ascii '0') ++ digits) := by
    rw [← padding_of_le fewZeros, ← padding_of_le shortFill,
      ← padding_of_le shortFill, layoutInteger]
    simp only [precisionZeros_eq, fieldWidth_eq]
    rfl
  rw [laidOut]
  cases left : directive.flags.leftJustify with
  | true =>
      refine ⟨0, zeros, fill, by simp, fun _ => rfl, fun zeroFills => ?_⟩
      rw [zeroFills.notLeft] at left
      cases left
  | false =>
      by_cases flagged :
          directive.flags.zeroPad = true ∧ directive.precision = .absent
      · have zeroFills : directive.ZeroFills := ⟨flagged.1, left, flagged.2⟩
        have noZeros : zeros = 0 := by
          simp only [zeros, flagged.2, Amount.number, Nat.zero_sub]
        have size :
            directive.integerSize lead digits = lead.length + digits.length := by
          simp only [integerSize, flagged.2]
        refine ⟨0, fill, 0, ?_, fun none => absurd zeroFills none, fun _ => ?_⟩
        · simp [flagged, noZeros]
        · simp only [fill, size]
      · refine ⟨fill, zeros, 0, ?_, fun _ => rfl, fun zeroFills => ?_⟩
        · simp [flagged]
        · exact absurd ⟨zeroFills.flagged, zeroFills.noPrecision⟩ flagged

/-- The digits of an octal number without zeros in front; at precision zero, zero has none. -/
def octalDigits (directive : Directive) (value : Nat) : Bytes :=
  if value = 0 ∧ directive.precision = .fixed 0 then
    []
  else
    Numeral.bytes 8 false value

theorem denotes_octalDigits
    (directive : Directive)
    (value : Nat) :
    Numeral.Denotes 8 false (directive.octalDigits value) value := by
  unfold octalDigits
  split
  · rename_i suppressed
    rw [suppressed.1]
    exact Numeral.denotes_nil
  · exact Numeral.denotes_bytes (by decide) (by decide) value

/-- Between its spaces, the alternate form of a number is its digits behind zeros. -/
theorem exists_withoutSpaces_writeUnsigned_eq
    (isOctal : directive.conversion = .octal)
    (alternate : directive.flags.alternate = true)
    (narrow : directive.width.number ≤ 4096)
    (precise : directive.precision.number ≤ 4096)
    (value : Nat) :
    let mark := if value = 0 then 0 else 1
    let digits := directive.octalDigits value
    ∃ zeros,
      withoutSpaces (directive.writeUnsigned value) =
          List.replicate (mark + zeros) (ascii '0') ++ digits ∧
        (¬ directive.ZeroFills →
          zeros = directive.precision.number - digits.length) ∧
          (directive.ZeroFills →
            zeros = directive.width.number - (mark + digits.length)) := by
  intro mark digits
  have written :
      directive.writeUnsigned value =
        directive.layoutInteger (List.replicate mark (ascii '0'))
          (Numeral.bytes 8 false value) := by
    by_cases isZero : value = 0
    · simp [writeUnsigned, isOctal, isZero, mark, Conversion.radix]
    · simp [writeUnsigned, isOctal, alternate, isZero, mark, Conversion.radix,
        Conversion.alternateLead]
      rfl
  obtain ⟨before, zeros, after, laidOut, counted, filled⟩ :=
    exists_layoutInteger_eq narrow precise (List.replicate mark (ascii '0'))
      (Numeral.bytes 8 false value)
  have isZeroDigit : Numeral.bytes 8 false value = [ascii '0'] ↔ value = 0 :=
    Numeral.bytes_eq_zero_iff (by decide) (by decide) value
  simp only [isZeroDigit, List.length_replicate] at laidOut counted filled
  refine ⟨zeros, ?_, counted, filled⟩
  have denotes :
      Numeral.Denotes 8 false
        (List.replicate (mark + zeros) (ascii '0') ++ digits) value :=
    (denotes_octalDigits directive value).zeros (by decide) _
  rw [written, laidOut, ← List.append_assoc (List.replicate mark _),
    List.replicate_append_replicate]
  exact withoutSpaces_surrounded (ne_space_of_denotes denotes) before after

/-- A precision that is there turns the filling with zeros off. -/
theorem not_zeroFills_of_number_pos
    (asked : 0 < directive.precision.number) :
    ¬ directive.ZeroFills := by
  intro zeroFills
  rw [zeroFills.noPrecision] at asked
  exact absurd asked (Nat.lt_irrefl 0)

section AlternateOctal

variable
  (isOctal : directive.conversion = .octal)
  (alternate : directive.flags.alternate = true)
  (narrow : directive.width.number ≤ 4096)
  (precise : directive.precision.number ≤ 4096)

include isOctal alternate narrow precise

theorem denotes_withoutSpaces_writeUnsigned
    (value : Nat) :
    Numeral.Denotes 8 false (withoutSpaces (directive.writeUnsigned value))
      value := by
  obtain ⟨zeros, isShown, _⟩ :=
    exists_withoutSpaces_writeUnsigned_eq isOctal alternate narrow precise value
  rw [isShown]
  exact (denotes_octalDigits directive value).zeros (by decide) _

theorem withoutSpaces_writeUnsigned_of_suppressed
    (suppressed : directive.precision = .fixed 0) :
    withoutSpaces (directive.writeUnsigned 0) = [] := by
  obtain ⟨zeros, isShown, counted, _⟩ :=
    exists_withoutSpaces_writeUnsigned_eq isOctal alternate narrow precise 0
  have noDigits : directive.octalDigits 0 = [] := by
    rw [octalDigits, if_pos ⟨rfl, suppressed⟩]
  have noZeroFill : ¬ directive.ZeroFills := by
    intro zeroFills
    rw [zeroFills.noPrecision] at suppressed
    cases suppressed
  have noZeros : zeros = 0 := by
    rw [counted noZeroFill, suppressed, noDigits]
    rfl
  rw [isShown, noDigits, noZeros]
  rfl

theorem leadsWithZero_zero
    (shows : directive.precision ≠ .fixed 0) :
    directive.LeadsWithZero 0 (withoutSpaces (directive.writeUnsigned 0)) := by
  obtain ⟨zeros, isShown, counted, filled⟩ :=
    exists_withoutSpaces_writeUnsigned_eq isOctal alternate narrow precise 0
  have oneDigit : directive.octalDigits 0 = [ascii '0'] := by
    rw [octalDigits, if_neg fun both => shows both.2]
    rfl
  rw [oneDigit] at isShown counted filled
  have count :
      (withoutSpaces (directive.writeUnsigned 0)).length = zeros + 1 := by
    simp [isShown]
  have least : leastOctalCount 0 = 1 := rfl
  constructor
  case denotes =>
    exact
      denotes_withoutSpaces_writeUnsigned isOctal alternate narrow precise 0
  case zeroFirst =>
    rw [isShown, ← List.replicate_one, List.replicate_append_replicate]
    rfl
  case counted =>
    intro noZeroFill
    have isCount : zeros = directive.precision.number - 1 := counted noZeroFill
    omega
  case filled =>
    intro zeroFills
    have isCount : zeros = directive.width.number - 1 := filled zeroFills
    omega

/-- A positive number is written with one zero more than its precision brings. -/
theorem length_withoutSpaces_writeUnsigned
    {value : Nat}
    (positive : 0 < value) :
    let shown := withoutSpaces (directive.writeUnsigned value)
    let count := (Nat.digits 8 value).length
    shown.head? = some (ascii '0') ∧
      (¬ directive.ZeroFills →
        shown.length = max directive.precision.number count + 1) ∧
        (directive.ZeroFills →
          shown.length = max directive.width.number (count + 1)) := by
  intro shown count
  obtain ⟨zeros, isShown, counted, filled⟩ :=
    exists_withoutSpaces_writeUnsigned_eq isOctal alternate narrow precise value
  have notZero : value ≠ 0 := Nat.ne_of_gt positive
  have allDigits : (directive.octalDigits value).length = count := by
    rw [octalDigits, if_neg fun both => notZero both.1]
    exact Numeral.length_bytes (by decide) (by decide) positive
  simp only [if_neg notZero, allDigits] at isShown counted filled
  have length : shown.length = 1 + zeros + count := by
    simp [shown, isShown, allDigits]
  refine ⟨?_, fun noZeroFill => ?_, fun zeroFills => ?_⟩
  · simp [shown, isShown, Nat.add_comm 1, List.replicate_succ]
  · have isCount := counted noZeroFill
    omega
  · have isCount := filled zeroFills
    omega

/--
Unless padding is cut, the alternate form of an octal number denotes it between
its spaces.  It leads with a zero in the least number of digits exactly if the
precision fits.  If not, a positive number has one digit more than the precision
asks for, and zero has none.
-/
theorem writeUnsigned_alternateOctal
    (value : Nat) :
    let shown := withoutSpaces (directive.writeUnsigned value)
    Numeral.Denotes 8 false shown value ∧
      (directive.LeadsWithZero value shown ↔ directive.PrecisionFits value) ∧
        (¬ directive.PrecisionFits value →
          shown.length =
            if value = 0 then 0 else directive.precision.number + 1) := by
  intro shown
  have denotes : Numeral.Denotes 8 false shown value :=
    denotes_withoutSpaces_writeUnsigned isOctal alternate narrow precise value
  refine ⟨denotes, ?_⟩
  rcases Nat.eq_zero_or_pos value with rfl | positive
  · by_cases suppressed : directive.precision = .fixed 0
    · have nothing : shown = [] :=
        withoutSpaces_writeUnsigned_of_suppressed isOctal alternate narrow
          precise suppressed
      have unfit : ¬ directive.PrecisionFits 0 :=
        fun fits => fits.ofZero rfl suppressed
      refine ⟨⟨fun leads => ?_, fun fits => absurd fits unfit⟩, ?_⟩
      · have zeroFirst := leads.zeroFirst
        rw [nothing] at zeroFirst
        cases zeroFirst
      · intro _
        rw [nothing, if_pos rfl, List.length_nil]
    · have fits : directive.PrecisionFits 0 :=
        ⟨fun _ => suppressed, fun impossible => absurd impossible (by decide)⟩
      have leads :=
        leadsWithZero_zero isOctal alternate narrow precise suppressed
      exact ⟨⟨fun _ => fits, fun _ => leads⟩, fun unfit => absurd fits unfit⟩
  · let count := (Nat.digits 8 value).length
    obtain ⟨zeroFirst, counted, filled⟩ :
        shown.head? = some (ascii '0') ∧
          (¬ directive.ZeroFills →
            shown.length = max directive.precision.number count + 1) ∧
            (directive.ZeroFills →
              shown.length = max directive.width.number (count + 1)) :=
      length_withoutSpaces_writeUnsigned isOctal alternate narrow precise
        positive
    have notZero : value ≠ 0 := Nat.ne_of_gt positive
    have fitsIff :
        directive.PrecisionFits value ↔
          directive.precision.number ≤ count :=
      ⟨fun fits => fits.ofPositive positive,
        fun few => ⟨fun isZero => absurd isZero notZero, fun _ => few⟩⟩
    rw [fitsIff, if_neg notZero]
    refine ⟨⟨fun leads => ?_, fun few => ?_⟩, fun tooMany => ?_⟩
    · by_contra tooMany
      have noZeroFill : ¬ directive.ZeroFills :=
        not_zeroFills_of_number_pos (by omega)
      have asked :
          shown.length = max directive.precision.number (count + 1) :=
        leads.counted noZeroFill
      have shownCount := counted noZeroFill
      omega
    · refine ⟨denotes, zeroFirst, fun noZeroFill => ?_, filled⟩
      have shownCount := counted noZeroFill
      change shown.length = max directive.precision.number (count + 1)
      omega
    · have shownCount :=
        counted (not_zeroFills_of_number_pos (by omega))
      omega

end AlternateOctal

/-- Eight at precision two is short enough for the zero in front of it. -/
theorem writeUnsigned_alternateOctal_fits :
    let directive : Directive := {
      flags := { Flags.none with alternate := true }
      width := .fixed 6
      precision := .fixed 2
      length := .absent
      conversion := .octal
    }
    directive.width.number ≤ 4096 ∧
      directive.precision.number ≤ 4096 ∧
        directive.writeUnsigned 8 = Bytes.ofText "   010" ∧
          directive.LeadsWithZero 8
            (withoutSpaces (directive.writeUnsigned 8)) := by
  intro directive
  have narrow : directive.width.number ≤ 4096 := by decide
  have precise : directive.precision.number ≤ 4096 := by decide
  obtain ⟨_, leadsIff, _⟩ :=
    writeUnsigned_alternateOctal (rfl : directive.conversion = .octal) rfl narrow
      precise 8
  have fits : directive.PrecisionFits 8 :=
    ⟨by decide, fun _ => by simp [directive, Amount.number]⟩
  exact ⟨narrow, precise, by decide, leadsIff.mpr fits⟩

/--
Eight at precision five has a sixth digit, and zero at precision zero has none,
where five digits and one would do.
-/
theorem writeUnsigned_alternateOctal_beyondPrecision :
    let atPrecision (precision : UInt64) : Directive := {
      flags := { Flags.none with alternate := true }
      width := .absent
      precision := .fixed precision
      length := .absent
      conversion := .octal
    }
    (atPrecision 5).writeUnsigned 8 = Bytes.ofText "000010" ∧
      ¬ (atPrecision 5).LeadsWithZero 8
          (withoutSpaces ((atPrecision 5).writeUnsigned 8)) ∧
      (atPrecision 0).writeUnsigned 0 = [] ∧
        ¬ (atPrecision 0).LeadsWithZero 0
            (withoutSpaces ((atPrecision 0).writeUnsigned 0)) := by
  intro atPrecision
  have sixDigits : (atPrecision 5).writeUnsigned 8 = Bytes.ofText "000010" := by
    decide
  have noDigits : (atPrecision 0).writeUnsigned 0 = [] := by
    decide
  refine ⟨sixDigits, fun leads => ?_, noDigits, fun leads => ?_⟩
  · have noZeroFill : ¬ (atPrecision 5).ZeroFills := by
      intro zeroFills
      exact absurd zeroFills.flagged (by decide)
    have counted := leads.counted noZeroFill
    rw [sixDigits] at counted
    simp [leastOctalCount, atPrecision, Amount.number] at counted
    revert counted
    decide
  · have zeroFirst := leads.zeroFirst
    rw [noDigits] at zeroFirst
    cases zeroFirst

end Directive

end Format

end LibcConformance
