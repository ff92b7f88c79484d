import LibcConformance.Proofs.Json.StringReadBack

namespace LibcConformance.Json

/-!
# Compact forms fit one line

The compact form of a value, of a float too, has no control character: all
that is written around its strings are digits, signs, letters and brackets.
-/

theorem noControl_digits
    (size : Nat) :
    NoControl (Nat.toDigits 10 size) := by
  intro character member
  have digit : character.isDigit = true :=
    Nat.isDigit_of_mem_toDigits (by decide) (by decide) member
  simp only [Char.isDigit, Bool.and_eq_true, decide_eq_true_eq] at digit
  have least : '0'.toNat ≤ character.toNat :=
    UInt32.le_iff_toNat_le.mp digit.1
  exact Nat.le_trans (by decide) least

theorem noControl_integer
    (value : Int) :
    NoControl (Value.integer value).compactCharacters := by
  rw [Value.compactCharacters, Int.toString_eq_repr, Int.repr_eq_if]
  by_cases nonnegative : 0 ≤ value
  · rw [if_pos nonnegative, Nat.toList_repr]
    exact noControl_digits value.toNat
  · rw [if_neg nonnegative, String.toList_append, Nat.toList_repr]
    exact (noControl_digits (-value).toNat).cons (by decide)

theorem noControl_compactItems
    {items : List Value}
    (items_noControl : ∀ item ∈ items, NoControl item.compactCharacters) :
    NoControl (compactItems items) := by
  induction items with
  | nil =>
      simp [compactItems, NoControl]
  | cons item later inductionHypothesis =>
      have first := items_noControl item List.mem_cons_self
      have behind :=
        inductionHypothesis fun other member =>
          items_noControl other (List.mem_cons_of_mem item member)
      cases later with
      | nil =>
          rwa [compactItems]
      | cons next others =>
          rw [compactItems]
          · exact first.append (behind.cons (by decide))
          · simp

theorem noControl_compactMembers
    {members : List (String × Value)}
    (values_noControl :
      ∀ member ∈ members, NoControl member.2.compactCharacters) :
    NoControl (compactMembers members) := by
  induction members with
  | nil =>
      simp [compactMembers, NoControl]
  | cons member later inductionHypothesis =>
      have first := values_noControl member List.mem_cons_self
      have named :
          NoControl (quoted member.1 ++ ':' :: member.2.compactCharacters) :=
        (noControl_quoted member.1).append (first.cons (by decide))
      have behind :=
        inductionHypothesis fun other isLater =>
          values_noControl other (List.mem_cons_of_mem member isLater)
      cases later with
      | nil =>
          rwa [compactMembers]
      | cons next others =>
          rw [compactMembers]
          · exact named.append (behind.cons (by decide))
          · simp

theorem noControl_array
    {items : List Value}
    (items_noControl : ∀ item ∈ items, NoControl item.compactCharacters) :
    NoControl (Value.array items).compactCharacters := by
  have inside := noControl_compactItems items_noControl
  rw [Value.compactCharacters]
  exact (inside.cons (by decide)).append (noControl_nil.cons (by decide))

theorem noControl_object
    {members : List (String × Value)}
    (values_noControl :
      ∀ member ∈ members, NoControl member.2.compactCharacters) :
    NoControl (Value.object members).compactCharacters := by
  have inside := noControl_compactMembers values_noControl
  rw [Value.compactCharacters]
  exact (inside.cons (by decide)).append (noControl_nil.cons (by decide))

section Floats

theorem NoControl.of_subset
    {part text : List Char}
    (printed : NoControl text)
    (within : part ⊆ text) :
    NoControl part :=
  fun character member => printed character (within member)

theorem noControl_zeros
    (count : Nat) :
    NoControl (List.replicate count '0') := by
  intro character member
  rw [List.eq_of_mem_replicate member]
  decide

theorem noControl_layout
    (decimal : Binary64.Decimal) :
    NoControl (Binary64.layout decimal).toList := by
  have digits : NoControl (Numeral.digits 10 decimal.digits) :=
    noControl_digits decimal.digits
  have front
      (count : Nat) :
      NoControl ((Numeral.digits 10 decimal.digits).take count) :=
    digits.of_subset (List.take_subset count _)
  have back
      (count : Nat) :
      NoControl ((Numeral.digits 10 decimal.digits).drop count) :=
    digits.of_subset (List.drop_subset count _)
  have exponential
      {fraction : List Char}
      {sign : String}
      (fractionPrinted : NoControl fraction)
      (signPrinted : NoControl sign.toList)
      (size : Nat) :
      NoControl
        (String.ofList ((Numeral.digits 10 decimal.digits).take 1 ++ fraction) ++
          "e" ++ sign ++ toString size).toList := by
    have exponent : NoControl (toString size).toList := by
      rw [Nat.toString_eq_repr, Nat.toList_repr]
      exact noControl_digits size
    simp only [String.toList_append, String.toList_ofList]
    exact
      ((((front 1).append fractionPrinted).append (by decide)).append
        signPrinted).append exponent
  rw [Binary64.layout]
  split_ifs
  · rw [String.toList_ofList]
    exact (digits.append (noControl_zeros _)).append (by decide)
  · rw [String.toList_ofList]
    exact (front _).append ((back _).cons (by decide))
  · rw [String.toList_ofList]
    exact (NoControl.append (by decide) (noControl_zeros _)).append digits
  · exact exponential ((back 1).cons (by decide)) (by decide) _
  · exact exponential ((back 1).cons (by decide)) (by decide) _
  · exact exponential noControl_nil (by decide) _
  · exact exponential noControl_nil (by decide) _

theorem noControl_float
    (bits : UInt64) :
    NoControl (Value.float bits).compactCharacters := by
  have behind := noControl_layout (Binary64.shortest bits)
  rw [Value.compactCharacters, Binary64.text]
  split_ifs
  · rw [String.toList_append]
    exact NoControl.append (by decide) behind
  · rwa [String.empty_append]

end Floats

/-- The compact form of every value is without control characters. -/
theorem Value.noControl_compactCharacters
    (value : Value) :
    NoControl value.compactCharacters := by
  match value with
  | .null =>
      rw [Value.compactCharacters]
      decide
  | .bool value =>
      rw [Value.compactCharacters]
      cases value <;> decide
  | .integer value =>
      exact noControl_integer value
  | .float bits =>
      exact noControl_float bits
  | .string text =>
      rw [Value.compactCharacters]
      exact noControl_quoted text
  | .array items =>
      exact noControl_array fun item isItem => item.noControl_compactCharacters
  | .object members =>
      exact
        noControl_object fun member isMember => member.2.noControl_compactCharacters
termination_by sizeOf value
decreasing_by
  · have smaller := List.sizeOf_lt_of_mem isItem
    rw [array.sizeOf_spec]
    omega
  · have smaller := List.sizeOf_lt_of_mem isMember
    rw [Prod.mk.sizeOf_spec] at smaller
    rw [object.sizeOf_spec]
    omega

end LibcConformance.Json
