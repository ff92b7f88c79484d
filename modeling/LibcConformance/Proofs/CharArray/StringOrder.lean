import LibcConformance.Proofs.CharArray.Terminated

namespace LibcConformance

/-!
# The order of strings

A comparison goes through two arrays place by place until it finds an answer,
and reads NULs behind their ends.  Its answer is the difference of the first
bytes in which the two strings differ, so that its sign is their lexicographic
order.  A bound cuts both strings, and no longer matters once they differ in
front of it.
-/

namespace Bytes

/-- The byte at a place of an array; behind the end there are NULs. -/
def byteAt
    (bytes : Bytes)
    (place : Nat) : UInt8 :=
  bytes.getD place 0

@[simp] theorem byteAt_nil
    (place : Nat) :
    byteAt [] place = 0 :=
  rfl

@[simp] theorem byteAt_cons_zero
    (byte : UInt8)
    (rest : Bytes) :
    byteAt (byte :: rest) 0 = byte :=
  rfl

@[simp] theorem byteAt_cons_succ
    (byte : UInt8)
    (rest : Bytes)
    (place : Nat) :
    byteAt (byte :: rest) (place + 1) = byteAt rest place :=
  rfl

/-- The string of an array starts with the byte of the array. -/
theorem byteAt_zero_cString
    (bytes : Bytes) :
    bytes.cString.byteAt 0 = bytes.byteAt 0 := by
  cases bytes with
  | nil =>
      rfl
  | cons byte rest =>
      by_cases isNul : byte = 0
      · subst isNul
        rfl
      · rw [cString_cons_of_ne isNul, byteAt_cons_zero, byteAt_cons_zero]

theorem byteAt_zero_take_cString
    (bytes : Bytes)
    (count : Nat) :
    Bytes.byteAt (bytes.cString.take (count + 1)) 0 = bytes.byteAt 0 := by
  rw [← byteAt_zero_cString bytes]
  cases bytes.cString <;> rfl

theorem cString_eq_nil_of_byteAt
    {bytes : Bytes}
    (isNul : bytes.byteAt 0 = 0) :
    bytes.cString = [] := by
  cases bytes with
  | nil =>
      rfl
  | cons byte rest =>
      rw [byteAt_cons_zero] at isNul
      subst isNul
      rfl

/-- The difference of the bytes at a place of two strings. -/
def differenceAt
    (left right : Bytes)
    (place : Nat) : Int :=
  (left.byteAt place).toNat - (right.byteAt place).toNat

/-- Two strings differ at a place, and at none before it. -/
structure DifferFirstAt
    (left right : Bytes)
    (place : Nat) : Prop where
  differ : left.byteAt place ≠ right.byteAt place
  agree : ∀ earlier < place, left.byteAt earlier = right.byteAt earlier

theorem differFirstAt_zero
    {left right : Bytes}
    (differ : left.byteAt 0 ≠ right.byteAt 0) :
    DifferFirstAt left right 0 where
  differ := differ
  agree := fun earlier before => absurd before (Nat.not_lt_zero earlier)

theorem DifferFirstAt.cons
    {left right : Bytes}
    {place : Nat}
    (differ : DifferFirstAt left right place)
    (byte : UInt8) :
    DifferFirstAt (byte :: left) (byte :: right) (place + 1) where
  differ := differ.differ
  agree := by
    intro earlier before
    cases earlier with
    | zero =>
        rfl
    | succ earlier =>
        exact differ.agree earlier (Nat.lt_of_succ_lt_succ before)

end Bytes

namespace CharArray

/-- What a comparison finds at a place: an answer, or nothing if it has to go on. -/
def round?
    (left right : Bytes)
    (place : Nat) : Option Int :=
  if left.byteAt place ≠ right.byteAt place then
    some (left.differenceAt right place)
  else if left.byteAt place = 0 then
    some 0
  else
    none

/-- What a comparison finds in its first rounds. -/
def rounds?
    (left right : Bytes)
    (count : Nat) : Option Int :=
  (List.range count).findSome? (round? left right)

section Rounds

variable
  {left right : Bytes}
  {count : Nat}
  {answer : Int}

theorem round?_eq_none_iff
    {place : Nat} :
    round? left right place = none ↔
      left.byteAt place = right.byteAt place ∧ left.byteAt place ≠ 0 := by
  by_cases differ : left.byteAt place = right.byteAt place
  · by_cases isNul : right.byteAt place = 0 <;> simp [round?, differ, isNul]
  · simp [round?, differ]

/-- A round that finds nothing has a byte of both arrays in front of it. -/
theorem exists_cons_of_round?
    (found : round? left right 0 = none) :
    ∃ byte lefts rights,
      left = byte :: lefts ∧ right = byte :: rights ∧ byte ≠ 0 := by
  obtain ⟨agree, notNul⟩ := round?_eq_none_iff.mp found
  cases left with
  | nil =>
      exact absurd rfl notNul
  | cons first lefts =>
      cases right with
      | nil =>
          exact absurd agree notNul
      | cons second rights =>
          rw [Bytes.byteAt_cons_zero] at agree notNul
          rw [Bytes.byteAt_cons_zero] at agree
          exact ⟨first, lefts, rights, rfl, by rw [agree], notNul⟩

/-- After a round that finds nothing, a comparison goes on behind it. -/
theorem rounds?_succ
    (left right : Bytes)
    (count : Nat) :
    rounds? left right (count + 1) =
      (round? left right 0).or (rounds? left.tail right.tail count) := by
  have behind :
      round? left right ∘ Nat.succ = round? left.tail right.tail := by
    funext place
    cases left <;> cases right <;> rfl
  rw [rounds?, List.range_succ_eq_map, List.findSome?_cons, List.findSome?_map,
    behind]
  cases round? left right 0 <;> rfl

theorem strncmp_succ
    (left right : Bytes)
    (count : Nat) :
    strncmp left right (count + 1) =
      (round? left right 0).getD (strncmp left.tail right.tail count) := by
  cases left with
  | nil =>
      cases right with
      | nil =>
          rfl
      | cons second rights =>
          by_cases isNul : second = 0
          · subst isNul
            rfl
          · simp [strncmp, round?, Bytes.differenceAt, Ne.symm isNul]
  | cons first lefts =>
      cases right with
      | nil =>
          by_cases isNul : first = 0
          · subst isNul
            rfl
          · simp [strncmp, round?, Bytes.differenceAt, isNul]
      | cons second rights =>
          by_cases same : first = second
          · by_cases isNul : second = 0 <;>
              simp [strncmp, round?, same, isNul]
          · simp [strncmp, round?, Bytes.differenceAt, same]

/-- Under a bound the answer is what as many rounds find, and zero if that is nothing. -/
theorem strncmp_eq_rounds?
    (left right : Bytes)
    (count : Nat) :
    strncmp left right count = (rounds? left right count).getD 0 := by
  induction count generalizing left right with
  | zero =>
      cases left <;> rfl
  | succ count inductionHypothesis =>
      rw [strncmp_succ, rounds?_succ, inductionHypothesis]
      cases round? left right 0 <;> rfl

/-- What has been found stays the answer. -/
theorem rounds?_of_le
    (found : rounds? left right count = some answer)
    {bound : Nat}
    (within : count ≤ bound) :
    rounds? left right bound = some answer := by
  obtain ⟨more, rfl⟩ := Nat.exists_eq_add_of_le within
  rw [rounds?, List.range_add, List.findSome?_append, ← rounds?, found,
    Option.some_or]

/-- There is an answer no later than where the shorter array ends. -/
theorem exists_rounds?
    (reach : min left.length right.length < count) :
    ∃ answer, rounds? left right count = some answer := by
  induction count generalizing left right with
  | zero =>
      exact absurd reach (Nat.not_lt_zero _)
  | succ count inductionHypothesis =>
      rw [rounds?_succ]
      cases found : round? left right 0 with
      | some answer =>
          exact ⟨answer, rfl⟩
      | none =>
          obtain ⟨byte, lefts, rights, rfl, rfl, -⟩ := exists_cons_of_round? found
          rw [List.length_cons, List.length_cons, Nat.add_min_add_right] at reach
          exact inductionHypothesis (Nat.lt_of_succ_lt_succ reach)

theorem strcmp_eq_of_rounds?
    (found : rounds? left right count = some answer) :
    strcmp left right = answer := by
  let bound := max count left.length
  have foundLater : rounds? left right (bound + 1) = some answer :=
    rounds?_of_le found (by omega)
  rw [← strncmp_succ_eq_strcmp left right (by omega : left.length ≤ bound),
    strncmp_eq_rounds?, foundLater, Option.getD_some]

/-- A comparison ends, with its answer, no later than where the shorter array does. -/
theorem rounds?_eq_strcmp
    (reach : min left.length right.length < count) :
    rounds? left right count = some (strcmp left right) := by
  obtain ⟨answer, found⟩ := exists_rounds? reach
  rw [found, strcmp_eq_of_rounds? found]

/-- An answer other than zero does not change under a larger bound, nor without one. -/
theorem strncmp_of_ne_zero
    (notZero : strncmp left right count ≠ 0) :
    (∀ larger ≥ count, strncmp left right larger = strncmp left right count) ∧
      strcmp left right = strncmp left right count := by
  cases found : rounds? left right count with
  | none =>
      rw [strncmp_eq_rounds?, found] at notZero
      exact absurd rfl notZero
  | some answer =>
      have atBound : strncmp left right count = answer := by
        rw [strncmp_eq_rounds?, found, Option.getD_some]
      refine ⟨fun larger within => ?_, ?_⟩
      · rw [atBound, strncmp_eq_rounds?, rounds?_of_le found within,
          Option.getD_some]
      · rw [atBound, strcmp_eq_of_rounds? found]

theorem strcmp_eq_getD_round?
    (left right : Bytes) :
    strcmp left right =
      (round? left right 0).getD (strcmp left.tail right.tail) := by
  have tailShort : left.tail.length ≤ left.length := by
    rw [List.length_tail]
    exact Nat.sub_le _ _
  rw [← strncmp_succ_eq_strcmp left right (Nat.le_succ left.length),
    strncmp_succ, strncmp_succ_eq_strcmp _ _ tailShort]

end Rounds

section Strings

variable
  {left right : Bytes}
  {count : Nat}

/-- If the first round ends a comparison, both strings are empty or they start differently. -/
theorem strcmp_cases_of_round?
    (found : round? left right 0 ≠ none) :
    left.cString = right.cString ∨
      Bytes.DifferFirstAt left.cString right.cString 0 ∧
        strcmp left right = Bytes.differenceAt left.cString right.cString 0 := by
  by_cases agree : left.byteAt 0 = right.byteAt 0
  · have isNul : left.byteAt 0 = 0 := by
      by_contra notNul
      exact found (round?_eq_none_iff.mpr ⟨agree, notNul⟩)
    left
    rw [Bytes.cString_eq_nil_of_byteAt isNul,
      Bytes.cString_eq_nil_of_byteAt (agree ▸ isNul)]
  · right
    constructor
    · apply Bytes.differFirstAt_zero
      rwa [Bytes.byteAt_zero_cString, Bytes.byteAt_zero_cString]
    · rw [strcmp_eq_getD_round?, round?, if_pos agree, Option.getD_some,
        Bytes.differenceAt, Bytes.differenceAt, Bytes.byteAt_zero_cString,
        Bytes.byteAt_zero_cString]

/-- Strings that are not the same differ first at some place, and the answer is how they do. -/
theorem strcmp_cases
    (left right : Bytes) :
    left.cString = right.cString ∨
      ∃ place,
        Bytes.DifferFirstAt left.cString right.cString place ∧
          strcmp left right =
            Bytes.differenceAt left.cString right.cString place := by
  by_cases found : round? left right 0 = none
  · obtain ⟨byte, lefts, rights, rfl, rfl, notNul⟩ := exists_cons_of_round? found
    rw [strcmp_eq_getD_round?, found, Option.getD_none,
      Bytes.cString_cons_of_ne notNul, Bytes.cString_cons_of_ne notNul]
    rcases strcmp_cases lefts rights with same | ⟨place, differ, answer⟩
    · exact .inl (congrArg (byte :: ·) same)
    · exact .inr ⟨place + 1, differ.cons byte, answer⟩
  · rcases strcmp_cases_of_round? found with same | ⟨differ, answer⟩
    · exact .inl same
    · exact .inr ⟨0, differ, answer⟩
termination_by left.length

theorem round?_swap
    (left right : Bytes)
    (place : Nat) :
    round? right left place = (round? left right place).map (-·) := by
  by_cases agree : left.byteAt place = right.byteAt place
  · by_cases isNul : right.byteAt place = 0 <;> simp [round?, agree, isNul]
  · simp only [round?, Bytes.differenceAt, ne_eq, agree, Ne.symm agree,
      not_false_eq_true, if_true, Option.map_some, Int.neg_sub]

theorem strncmp_swap
    (left right : Bytes)
    (count : Nat) :
    strncmp right left count = -strncmp left right count := by
  induction count generalizing left right with
  | zero =>
      cases left <;> cases right <;> rfl
  | succ count inductionHypothesis =>
      rw [strncmp_succ, strncmp_succ, round?_swap, inductionHypothesis]
      cases round? left right 0 <;> rfl

theorem strcmp_swap
    (left right : Bytes) :
    strcmp right left = -strcmp left right := by
  let bound := max left.length right.length
  rw [← strncmp_succ_eq_strcmp left right (Nat.le_max_left _ _ : _ ≤ bound),
    ← strncmp_succ_eq_strcmp right left (Nat.le_max_right _ _ : _ ≤ bound),
    strncmp_swap]

/-- Under a bound the strings are compared as if they were cut there. -/
theorem strncmp_eq_strcmp_take
    (left right : Bytes)
    (count : Nat) :
    strncmp left right count =
      strcmp (left.cString.take count) (right.cString.take count) := by
  induction count generalizing left right with
  | zero =>
      cases left <;> rfl
  | succ count inductionHypothesis =>
      have sameRound :
          round? (left.cString.take (count + 1))
              (right.cString.take (count + 1)) 0 =
            round? left right 0 := by
        simp only [round?, Bytes.differenceAt, Bytes.byteAt_zero_take_cString]
      rw [strncmp_succ, strcmp_eq_getD_round?, sameRound]
      cases found : round? left right 0 with
      | some answer =>
          rfl
      | none =>
          obtain ⟨byte, lefts, rights, rfl, rfl, notNul⟩ :=
            exists_cons_of_round? found
          rw [Bytes.cString_cons_of_ne notNul, Bytes.cString_cons_of_ne notNul]
          exact inductionHypothesis lefts rights

theorem strcmp_neg_iff
    (left right : Bytes) :
    strcmp left right < 0 ↔ left.cString < right.cString := by
  rw [← Int.compare_eq_lt, compare_strcmp, Bytes.order_eq_compareOfLessAndEq,
    compareOfLessAndEq_eq_lt]

theorem strncmp_neg_iff
    (left right : Bytes)
    (count : Nat) :
    strncmp left right count < 0 ↔
      left.cString.take count < right.cString.take count := by
  rw [← Int.compare_eq_lt, compare_strncmp, Bytes.order_eq_compareOfLessAndEq,
    compareOfLessAndEq_eq_lt]

end Strings

/-- A comparison that changing its operands negates, and whose signs are both transitive. -/
structure IsOrdering
    (comparison : Bytes → Bytes → Int) : Prop where
  swap :
    ∀ left right,
      comparison right left = -comparison left right
  below :
    ∀ first second third,
      comparison first second < 0 →
        comparison second third < 0 →
          comparison first third < 0
  above :
    ∀ first second third,
      comparison first second > 0 →
        comparison second third > 0 →
          comparison first third > 0

/-- A comparison that is negative for operands in the order of some strings is an ordering. -/
theorem isOrdering_of_neg_iff
    {comparison : Bytes → Bytes → Int}
    {shown : Bytes → Bytes}
    (swap :
      ∀ left right,
        comparison right left = -comparison left right)
    (negative_iff :
      ∀ left right,
        comparison left right < 0 ↔ shown left < shown right) :
    IsOrdering comparison where
  swap := swap
  below := by
    intro first second third lower higher
    rw [negative_iff] at lower higher ⊢
    exact List.lt_trans lower higher
  above := by
    intro first second third higher lower
    have positive_iff
        (left right : Bytes) :
        comparison left right > 0 ↔ shown right < shown left := by
      rw [← negative_iff, swap left right, gt_iff_lt, Int.neg_lt_zero_iff]
    rw [positive_iff] at higher lower ⊢
    exact List.lt_trans lower higher

theorem isOrdering_strcmp :
    IsOrdering strcmp :=
  isOrdering_of_neg_iff strcmp_swap strcmp_neg_iff

theorem isOrdering_strncmp
    (count : Nat) :
    IsOrdering (strncmp · · count) :=
  isOrdering_of_neg_iff (strncmp_swap · · count) (strncmp_neg_iff · · count)

/--
A comparison ends no later than where the shorter array does.  It answers zero
for equal strings and else the difference of the first bytes in which they
differ; its sign is their lexicographic order, and so it is under a bound for
the strings that are cut there.  Once a bound lets a difference be seen, a
larger one or none changes nothing.
-/
theorem strcmp_strncmp_lexicographic
    (left right : Bytes) :
    (∀ count > min left.length right.length,
        rounds? left right count = some (strcmp left right)) ∧
      (left.cString = right.cString → strcmp left right = 0) ∧
      (left.cString ≠ right.cString →
        ∃ place,
          Bytes.DifferFirstAt left.cString right.cString place ∧
            strcmp left right =
              Bytes.differenceAt left.cString right.cString place) ∧
      (strcmp left right < 0 ↔ left.cString < right.cString) ∧
      (strcmp left right > 0 ↔ right.cString < left.cString) ∧
      IsOrdering strcmp ∧
      ∀ count,
        strncmp left right count = (rounds? left right count).getD 0 ∧
          strncmp left right count =
            strcmp (left.cString.take count) (right.cString.take count) ∧
          IsOrdering (strncmp · · count) ∧
          (strncmp left right count = 0 ↔
            left.cString.take count = right.cString.take count) ∧
          (strncmp left right count ≠ 0 →
            (∀ larger ≥ count,
                strncmp left right larger = strncmp left right count) ∧
              strcmp left right = strncmp left right count) := by
  refine
    ⟨fun count reach => rounds?_eq_strcmp reach,
      (strcmp_eq_zero_iff left right).mpr,
      (strcmp_cases left right).resolve_left,
      strcmp_neg_iff left right, ?_, isOrdering_strcmp, fun count => ?_⟩
  · rw [← strcmp_neg_iff, strcmp_swap left right, gt_iff_lt, Int.neg_lt_zero_iff]
  · exact
      ⟨strncmp_eq_rounds? left right count,
        strncmp_eq_strcmp_take left right count, isOrdering_strncmp count,
        strncmp_eq_zero_iff left right count, strncmp_of_ne_zero⟩

/--
An array without a NUL and one with bytes behind its NUL: their strings agree in
one byte and differ in the next, which is above 127, and a third string that both
go on from is below them.
-/
theorem strcmp_strncmp_lexicographic_highByte :
    let left : Bytes := [97, 255, 0, 1]
    let right : Bytes := [97, 98]
    left.cString ≠ right.cString ∧
      rounds? left right 3 = some (strcmp left right) ∧
      Bytes.DifferFirstAt left.cString right.cString 1 ∧
      strcmp left right = 157 ∧
      strcmp right left = -157 ∧
      strncmp left right 1 = 0 ∧
      strncmp left right 2 ≠ 0 ∧
      (∀ larger ≥ 2, strncmp left right larger = 157) ∧
      strcmp [97] left < 0 := by
  intro left right
  have different : left.cString ≠ right.cString := by
    decide
  have notZero : strncmp left right 2 ≠ 0 := by
    decide
  obtain ⟨ends, -, first, -, -, ordering, bounded⟩ :=
    strcmp_strncmp_lexicographic left right
  obtain ⟨place, differ, answer⟩ := first different
  obtain ⟨-, -, -, -, keeps⟩ := bounded 2
  have second : place = 1 := by
    have notBehind : ¬ 1 < place := fun behind =>
      absurd (differ.agree 1 behind) (by decide)
    have notInFront : place ≠ 0 := by
      rintro rfl
      exact differ.differ rfl
    omega
  subst second
  exact
    ⟨different, ends 3 (by decide), differ, answer,
      (ordering.swap left right).trans (congrArg Neg.neg answer),
      ((bounded 1).2.2.2.1).mpr rfl, notZero, (keeps notZero).1,
      ordering.below [97] right left (by decide) (by decide)⟩

end CharArray

end LibcConformance
