import LibcConformance.Proofs.Format.Slots

namespace LibcConformance

/-!
# Templates of one directive

A spelled directive behind a percent sign makes a template of one segment.
What it writes is what the directive writes once its stars are taken, and where
it has none its arguments begin with the value.
-/

namespace Format

namespace Directive

variable
  {directive : Directive}

theorem resolveWidth_of_ne_star
    (noStar : directive.width ≠ .fromArgument)
    (supply : Supply) :
    directive.resolveWidth supply = .ok (directive, supply) := by
  unfold resolveWidth
  cases given : directive.width with
  | fromArgument => exact absurd given noStar
  | absent => rfl
  | fixed value => rfl

theorem resolvePrecision_of_ne_star
    (noStar : directive.precision ≠ .fromArgument)
    (supply : Supply) :
    directive.resolvePrecision supply = .ok (directive, supply) := by
  unfold resolvePrecision
  cases given : directive.precision with
  | fromArgument => exact absurd given noStar
  | absent => rfl
  | fixed value => rfl

/-- The last argument is written, or refused at its index. -/
theorem writeNext_singleton
    (directive : Directive)
    (start : Nat)
    (argument : Argument) :
    (directive.writeNext ⟨start, [argument]⟩).map Prod.fst =
      match directive.write? argument with
      | some output => .ok output
      | none =>
          .error (.mismatchedArgument start directive.conversion.byte) := by
  simp only [writeNext, Supply.next, bind, Except.bind]
  cases directive.write? argument <;> rfl

end Directive

theorem plain_of_isDigit
    {byte : UInt8}
    (digit : isDigit byte = true) :
    byte ≠ 0 ∧ byte ≠ ascii '%' := by
  constructor <;> rintro rfl <;> exact absurd digit (by decide)

theorem Quantity.plain_of_mem_bytes
    (quantity : Quantity) :
    ∀ byte ∈ quantity.bytes, byte ≠ 0 ∧ byte ≠ ascii '%' := by
  intro byte member
  cases quantity with
  | star =>
      cases List.mem_singleton.mp member
      decide
  | number run digits => exact plain_of_isDigit (digits byte member)

namespace Spelling

theorem directive_eq
    (spelling : Spelling) :
    spelling.directive =
      { flags := (Flags.ofList spelling.flags).normalized
        width := spelling.width.elim .absent Quantity.amount
        precision := spelling.precision.elim .absent Quantity.amount
        length := spelling.length
        conversion := spelling.conversion } := by
  rw [Flags.normalized_ofList]
  rfl

/-- Neither a NUL nor a percent sign stands in a spelled directive. -/
theorem plain_of_mem_bytes
    (spelling : Spelling) :
    ∀ byte ∈ spelling.bytes, byte ≠ 0 ∧ byte ≠ ascii '%' := by
  intro byte member
  simp only [bytes, List.mem_append, List.mem_map, List.mem_singleton]
    at member
  rcases member with ⟨flag, _, rfl⟩ | inWidth | inPrecision | inLength | rfl
  · cases flag <;> decide
  · cases given : spelling.width with
    | none => simp [widthBytes, given] at inWidth
    | some quantity =>
        rw [given] at inWidth
        exact quantity.plain_of_mem_bytes byte inWidth
  · cases given : spelling.precision with
    | none => simp [precisionBytes, given] at inPrecision
    | some quantity =>
        rw [given] at inPrecision
        rcases List.mem_cons.mp inPrecision with rfl | inQuantity
        · decide
        · exact quantity.plain_of_mem_bytes byte inQuantity
  · rw [LengthModifier.bytes_eq] at inLength
    cases given : spelling.length <;>
      simp only [given, List.mem_cons, List.not_mem_nil, or_false, or_self]
        at inLength <;>
      subst inLength <;>
      decide
  · cases spelling.conversion <;> decide

/-- A spelled directive behind a percent sign is the only segment of its template. -/
theorem segments_spelled
    (spelling : Spelling) :
    segments (ascii '%' :: spelling.bytes) =
      [.directive spelling.directive] := by
  have plain := spelling.plain_of_mem_bytes
  have noNul :
      Bytes.cString (ascii '%' :: spelling.bytes) =
        ascii '%' :: spelling.bytes := by
    rw [Bytes.cString, List.takeWhile_eq_self_iff]
    intro byte member
    rcases List.mem_cons.mp member with rfl | inBody
    · decide
    · simpa using (plain byte inBody).1
  have accepted := Directive.read?_append spelling []
  rw [List.append_nil] at accepted
  rw [segments, noNul]
  cases shape : spelling.bytes with
  | nil =>
      have lettered : spelling.conversion.byte ∈ spelling.bytes := by
        simp [bytes]
      rw [shape] at lettered
      cases lettered
  | cons second after =>
      rw [shape] at plain accepted
      have notPercent : isPercent second = false := by
        simpa [isPercent] using (plain second (by simp)).2
      rw [segmentsOfText, if_pos (by decide)]
      simp only [notPercent, Bool.false_eq_true, if_false]
      split
      · rename_i directive remaining found
        rw [accepted] at found
        cases found
        rw [segmentsOfText]
      · rename_i rejected
        rw [accepted] at rejected
        cases rejected

theorem format_spelled
    (spelling : Spelling)
    (arguments : List Argument) :
    format (ascii '%' :: spelling.bytes) arguments =
      (spelling.directive.apply (.ofList arguments)).map Prod.fst := by
  rw [format, segments_spelled, formatSegments]
  cases spelling.directive.apply (.ofList arguments) with
  | error failure => rfl
  | ok taken =>
      change Except.ok (taken.1 ++ []) = Except.ok taken.1
      rw [List.append_nil]

theorem amount_ne_fromArgument
    {quantity : Option Quantity}
    (noStar : quantity ≠ some .star) :
    quantity.elim .absent Quantity.amount ≠ .fromArgument := by
  intro isStar
  cases quantity with
  | none => cases isStar
  | some present =>
      cases present with
      | star => exact noStar rfl
      | number run digits => cases isStar

/-- A directive without stars is resolved as it stands. -/
theorem resolve_of_ne_star
    {spelling : Spelling}
    (noWidthStar : spelling.width ≠ some .star)
    (noPrecisionStar : spelling.precision ≠ some .star)
    (supply : Supply) :
    spelling.directive.resolve supply = .ok (spelling.directive, supply) := by
  have widthReady : spelling.directive.width ≠ .fromArgument :=
    amount_ne_fromArgument noWidthStar
  have precisionReady : spelling.directive.precision ≠ .fromArgument :=
    amount_ne_fromArgument noPrecisionStar
  rw [Directive.resolve, Directive.resolveWidth_of_ne_star widthReady]
  exact Directive.resolvePrecision_of_ne_star precisionReady supply

end Spelling

end Format

end LibcConformance
