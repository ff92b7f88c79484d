import Mathlib.Data.List.DropRight
import LibcConformance.CharArray.Session
import LibcConformance.Proofs.CharArray.Terminated

namespace LibcConformance.CharArray

/-!
# Strings through copies and appends

An array that strings are copied to and appended to holds the string that was
copied last and everything that was appended since.  A call whose string does
not fit with its terminator is refused and leaves the array alone, and no byte
behind the highest terminator is ever written.
-/

/-- A call that leaves a string in an array. -/
inductive StringCall where
  | copy (source : Bytes)
  | append (source : Bytes)
  deriving Repr, DecidableEq

namespace StringCall

/-- What the call reads its string from. -/
def source : StringCall → Bytes
  | .copy source => source
  | .append source => source

/-- Whether the call keeps the string that the array holds. -/
def isAppend : StringCall → Bool
  | .copy _ => false
  | .append _ => true

/-- The call on the only array of a session. -/
def call : StringCall → Call
  | .copy source => ⟨0, .strcpy (.bytes source)⟩
  | .append source => ⟨0, .strcat (.bytes source)⟩

/-- The string that the call makes of the one that the array holds. -/
def product
    (held : Bytes) : StringCall → Bytes
  | .copy source => source.cString
  | .append source => held ++ source.cString

/-- What the call answers once it has left a string: a copy counts the terminator too. -/
def count
    (product : Bytes) : StringCall → Nat
  | .copy _ => product.length + 1
  | .append _ => product.length

/-- The place of the terminator that the call has written. -/
def terminator? : StringCall → Answer → Option Nat
  | .copy _, .count count => some (count - 1)
  | .append _, .count count => some count
  | _, _ => none

end StringCall

/-- The calls that are not refused. -/
def acceptedCalls
    (calls : List StringCall)
    (answers : List Answer) : List StringCall :=
  ((calls.zip answers).filter (·.2 ≠ .refused)).map (·.1)

/-- The places of the terminators that calls have written. -/
def terminators
    (calls : List StringCall)
    (answers : List Answer) : List Nat :=
  (calls.zip answers).filterMap fun step => step.1.terminator? step.2

/--
The string that calls leave: what was copied last, or the initial string if nothing
was, and everything that was appended since.
-/
def heldBy
    (initial : Bytes)
    (calls : List StringCall) : Bytes :=
  ((calls.rdropWhile StringCall.isAppend).getLast?.elim initial (·.source.cString)) ++
    (calls.rtakeWhile StringCall.isAppend).flatMap (·.source.cString)

section Calls

variable
  {array : Bytes}
  {call : StringCall}

/-- A string that leaves no room for its terminator is refused. -/
theorem StringCall.run_of_length_le
    (short : array.length ≤ (call.product array.cString).length) :
    call.call.run [array] = (.refused, [array]) := by
  cases call with
  | copy source =>
      have refused : strcpy array source = ⟨none, array⟩ := if_pos short
      simp [StringCall.call, Call.run, Action.run, Source.read, contents, refused,
        Outcome.map, Answer.ofOption]
  | append source =>
      have refused : strcat array source = ⟨none, array⟩ := if_pos short
      simp [StringCall.call, Call.run, Action.run, Source.read, contents, refused,
        Outcome.map, Answer.ofOption]

/-- A string that fits is written over the front of the array, with its terminator. -/
theorem StringCall.run_of_lt_length
    (fits : (call.product array.cString).length < array.length) :
    let product := call.product array.cString
    call.call.run [array] =
      (.count (call.count product),
        [product ++ 0 :: array.drop (product.length + 1)]) := by
  have notShort := Nat.not_le_of_lt fits
  cases call with
  | copy source =>
      have written :
          strcpy array source =
            ⟨some (source.cString.length + 1),
              source.cString ++ 0 :: array.drop (source.cString.length + 1)⟩ :=
        if_neg notShort
      simp [StringCall.call, Call.run, Action.run, Source.read, contents, written,
        Outcome.map, Answer.ofOption, StringCall.count, StringCall.product]
  | append source =>
      let joined := array.cString ++ source.cString
      have written :
          strcat array source =
            ⟨some joined.length, joined ++ 0 :: array.drop (joined.length + 1)⟩ :=
        if_neg notShort
      simp [StringCall.call, Call.run, Action.run, Source.read, contents, written,
        Outcome.map, Answer.ofOption, StringCall.count, StringCall.product, joined]

theorem StringCall.zero_notMem_product
    (array : Bytes)
    (call : StringCall) :
    0 ∉ call.product array.cString := by
  cases call with
  | copy source =>
      exact Bytes.zero_notMem_cString source
  | append source =>
      rw [product, List.mem_append, not_or]
      exact ⟨Bytes.zero_notMem_cString array, Bytes.zero_notMem_cString source⟩

/-- The string that a call has left is the one that the array then holds. -/
theorem StringCall.cString_written
    (array rest : Bytes)
    (call : StringCall) :
    (call.product array.cString ++ 0 :: rest).cString = call.product array.cString := by
  rw [Bytes.cString_append_nul, Bytes.cString_eq_self (zero_notMem_product array call)]

theorem StringCall.terminator?_count
    (call : StringCall)
    (product : Bytes) :
    call.terminator? (.count (call.count product)) = some product.length := by
  cases call <;> rfl

end Calls

/--
What a call does to an array, by its answer: nothing if it is refused, which it is
just when its string does not fit, and else its string and a terminator stand in front.
-/
structure StringCall.Leaves
    (call : StringCall)
    (before : Bytes)
    (answer : Answer)
    (after : Bytes) : Prop where
  refused_iff :
    answer = .refused ↔ before.length < (call.product before.cString).length + 1
  unchanged : answer = .refused → after = before
  counted :
    answer ≠ .refused → answer = .count (call.count (call.product before.cString))
  written :
    answer ≠ .refused →
      after =
        call.product before.cString ++
          0 :: before.drop ((call.product before.cString).length + 1)

theorem StringCall.exists_leaves
    (call : StringCall)
    (before : Bytes) :
    ∃ answer after,
      call.call.run [before] = (answer, [after]) ∧ call.Leaves before answer after := by
  rcases Nat.lt_or_ge (call.product before.cString).length before.length with
    fits | short
  · refine
      ⟨_, _, run_of_lt_length fits,
        { refused_iff := ?_, unchanged := ?_
          counted := fun _ => rfl, written := fun _ => rfl }⟩
    · exact iff_of_false Answer.noConfusion (Nat.not_lt_of_le fits)
    · exact Answer.noConfusion
  · exact
      ⟨_, _, run_of_length_le short,
        { refused_iff := iff_of_true rfl (Nat.lt_succ_of_le short)
          unchanged := fun _ => rfl
          counted := fun accepted => absurd rfl accepted
          written := fun accepted => absurd rfl accepted }⟩

section Effects

variable
  {before after : Bytes}
  {answer : Answer}
  {call : StringCall}

theorem StringCall.Leaves.length_eq
    (leaves : call.Leaves before answer after) :
    after.length = before.length := by
  by_cases refused : answer = .refused
  · rw [leaves.unchanged refused]
  · have fits := mt leaves.refused_iff.mpr refused
    rw [leaves.written refused]
    simp only [List.length_append, List.length_cons, List.length_drop]
    omega

theorem StringCall.Leaves.cString_eq
    (leaves : call.Leaves before answer after) :
    after.cString =
      if answer = .refused then before.cString else call.product before.cString := by
  split
  · rename_i refused
    rw [leaves.unchanged refused]
  · rename_i accepted
    rw [leaves.written accepted, cString_written]

/-- Behind the terminator that a call writes, if it writes one, nothing changes. -/
theorem StringCall.Leaves.getElem?_eq
    (leaves : call.Leaves before answer after)
    {place : Nat}
    (above : ∀ terminator ∈ call.terminator? answer, terminator < place) :
    after[place]? = before[place]? := by
  by_cases refused : answer = .refused
  · rw [leaves.unchanged refused]
  · have behind : (call.product before.cString).length < place := by
      rw [leaves.counted refused, terminator?_count] at above
      exact above _ rfl
    rw [leaves.written refused, List.getElem?_append_right (Nat.le_of_lt behind)]
    obtain ⟨offset, rfl⟩ := Nat.exists_eq_add_of_lt behind
    rw [Nat.add_assoc, Nat.add_sub_cancel_left, List.getElem?_cons_succ,
      List.getElem?_drop]
    congr 1
    omega

end Effects

section Runs

theorem mem_terminators_cons
    {call : StringCall}
    {calls : List StringCall}
    {answer : Answer}
    {answers : List Answer}
    {place : Nat} :
    place ∈ terminators (call :: calls) (answer :: answers) ↔
      place ∈ call.terminator? answer ∨ place ∈ terminators calls answers := by
  simp [terminators, List.mem_filterMap]

/-- What a run of calls leaves of the array that it starts from. -/
structure RunLeaves
    (initial : Bytes)
    (calls : List StringCall)
    (answers : List Answer)
    (after : Bytes) : Prop where
  length_eq : after.length = initial.length
  held :
    after.cString =
      (acceptedCalls calls answers).foldl (fun held call => call.product held)
        initial.cString
  above :
    ∀ place,
      (∀ terminator ∈ terminators calls answers, terminator < place) →
        after[place]? = initial[place]?

theorem exists_runLeaves
    (initial : Bytes)
    (calls : List StringCall) :
    ∃ answers after,
      runCalls [initial] (calls.map StringCall.call) = (answers, [after]) ∧
        RunLeaves initial calls answers after := by
  induction calls generalizing initial with
  | nil =>
      exact ⟨[], initial, rfl, ⟨rfl, rfl, fun _ _ => rfl⟩⟩
  | cons call rest inductionHypothesis =>
      obtain ⟨answer, next, ran, leaves⟩ := call.exists_leaves initial
      obtain ⟨answers, after, ranRest, rests⟩ := inductionHypothesis next
      refine
        ⟨answer :: answers, after, ?_,
          { length_eq := rests.length_eq.trans leaves.length_eq
            held := ?_, above := ?_ }⟩
      · rw [List.map_cons, runCalls, ran]
        simp only [ranRest]
      · rw [rests.held, leaves.cString_eq]
        by_cases refused : answer = .refused <;>
          simp [acceptedCalls, refused]
      · intro place above
        simp only [mem_terminators_cons] at above
        have aboveRest :
            ∀ terminator ∈ terminators rest answers, terminator < place :=
          fun terminator member => above terminator (.inr member)
        have aboveFirst :
            ∀ terminator ∈ call.terminator? answer, terminator < place :=
          fun terminator written => above terminator (.inl written)
        rw [rests.above place aboveRest, leaves.getElem?_eq aboveFirst]

/-- Taking calls one by one comes to the last copy and the appends after it. -/
theorem foldl_product
    (initial : Bytes)
    (calls : List StringCall) :
    calls.foldl (fun held call => call.product held) initial = heldBy initial calls := by
  induction calls using List.reverseRecOn with
  | nil =>
      simp [heldBy]
  | append_singleton calls call inductionHypothesis =>
      rw [List.foldl_append, inductionHypothesis, List.foldl_cons, List.foldl_nil]
      cases call with
      | copy source =>
          have notAppend : ¬ (StringCall.copy source).isAppend = true :=
            Bool.false_ne_true
          rw [StringCall.product, heldBy, List.rdropWhile_concat_neg _ _ _ notAppend,
            List.rtakeWhile_concat_neg _ _ _ notAppend, List.getLast?_concat]
          simp [StringCall.source]
      | append source =>
          have isAppend : (StringCall.append source).isAppend = true := rfl
          rw [heldBy, heldBy, List.rdropWhile_concat_pos _ _ _ isAppend,
            List.rtakeWhile_concat_pos _ _ _ isAppend, List.flatMap_append]
          simp [StringCall.product, StringCall.source]

end Runs

/--
Copies and appends in any order: each is refused just when its string does not fit
with its terminator, and then changes nothing; at the end the array holds the
string copied last and what was appended since, and behind the highest terminator
that was written every byte is as it was.
-/
theorem runCalls_heldBy
    (initial : Bytes)
    (calls : List StringCall) :
    ∃ answers after,
      runCalls [initial] (calls.map StringCall.call) = (answers, [after]) ∧
        after.length = initial.length ∧
        after.cString = heldBy initial.cString (acceptedCalls calls answers) ∧
        (∀ place,
          (∀ terminator ∈ terminators calls answers, terminator < place) →
            after[place]? = initial[place]?) ∧
        ∀ front call later,
          calls = front ++ call :: later →
            ∃ earlier before answer next,
              runCalls [initial] (front.map StringCall.call) = (earlier, [before]) ∧
                answers[front.length]? = some answer ∧
                call.call.run [before] = (answer, [next]) ∧
                call.Leaves before answer next := by
  obtain ⟨answers, after, ran, leaves⟩ := exists_runLeaves initial calls
  refine
    ⟨answers, after, ran, leaves.length_eq,
      leaves.held.trans (foldl_product _ _), leaves.above, ?_⟩
  rintro front call later rfl
  obtain ⟨earlier, before, ranFront, -⟩ := exists_runLeaves initial front
  obtain ⟨answer, next, ranCall, leavesCall⟩ := call.exists_leaves before
  refine ⟨earlier, before, answer, next, ranFront, ?_, ranCall, leavesCall⟩
  have answered :=
    getElem?_answers_runCalls [initial] (front.map StringCall.call) call.call
      (later.map StringCall.call)
  rw [← List.map_cons, ← List.map_append, ran, ranFront, ranCall, List.length_map] at answered
  exact answered

/--
An array without a terminator takes no append; after a copy and an append that fit,
one that does not fit changes nothing, and the bytes behind the highest terminator
are still the initial ones.
-/
theorem runCalls_heldBy_unterminated :
    let initial : Bytes := [1, 2, 3, 4, 5, 6]
    let front : List StringCall := [.append [], .copy [97, 98, 0, 99], .append [100, 0]]
    let last : StringCall := .append [7, 8, 9]
    ∃ answers after,
      runCalls [initial] ((front ++ [last]).map StringCall.call) = (answers, [after]) ∧
        answers = [.refused, .count 3, .count 3, .refused] ∧
        after.cString = [97, 98, 100] ∧
        after[4]? = some 5 ∧
        last.Leaves after .refused after := by
  intro initial front last
  obtain ⟨answers, after, ran, -, held, above, steps⟩ :=
    runCalls_heldBy initial (front ++ [last])
  have computed :
      runCalls [initial] ((front ++ [last]).map StringCall.call) =
        ([.refused, .count 3, .count 3, .refused], [[97, 98, 100, 0, 5, 6]]) := by
    decide
  rw [computed, Prod.mk.injEq] at ran
  obtain ⟨rfl, sameArray⟩ := ran
  obtain rfl := List.singleton_inj.mp sameArray
  obtain ⟨earlier, before, answer, next, ranFront, answered, ranLast, leaves⟩ :=
    steps front last [] rfl
  obtain rfl := Option.some.inj answered
  have same := leaves.unchanged rfl
  have kept : before = [97, 98, 100, 0, 5, 6] :=
    List.singleton_inj.mp (Prod.ext_iff.mp ranFront).2.symm
  subst kept
  rw [same] at leaves
  exact ⟨_, _, computed, rfl, held, above 4 (by decide), leaves⟩

end LibcConformance.CharArray
