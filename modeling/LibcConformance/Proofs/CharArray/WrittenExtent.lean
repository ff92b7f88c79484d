import LibcConformance.CharArray.Session
import LibcConformance.Proofs.CharArray.Terminated
import LibcConformance.Proofs.Format.Destination

namespace LibcConformance.CharArray

/-!
# The places that calls write to

The answer of a call tells which places of its array it may have written: a
stretch that lies inside the array, and none at all if the call is refused or
fails.  Every other byte is as it was, in its own array and in all others.  So
over a run of calls a byte keeps its value unless one of the stretches holds its place.
-/

/-- The places of an array from a first one on, up to one that is no longer among them. -/
structure Extent where
  start : Nat
  stop : Nat
  deriving Repr, DecidableEq

/-- Whether a place is none of an extent's. -/
def Extent.Misses
    (extent : Extent)
    (place : Nat) : Prop :=
  place < extent.start ∨ extent.stop ≤ place

/-- The places that an action may have written, by the array before it and its answer. -/
def Action.extent
    (before : Bytes) : Action → Answer → Extent
  | .memset _ _, .count written => ⟨0, written⟩
  | .memcpy _ _, .count written => ⟨0, written⟩
  | .memmove _ _, .count written => ⟨0, written⟩
  | .memmoveWithin target _ count, .count _ => ⟨target, target + count⟩
  | .strcpy _, .count written => ⟨0, written⟩
  | .strncpy _ _, .count written => ⟨0, written⟩
  | .strcat _, .count length => ⟨strlen before, length + 1⟩
  | .sprintf _ _, .count length => ⟨0, length + 1⟩
  | .snprintf bound _ _, .count length =>
      if bound = 0 then ⟨0, 0⟩ else ⟨0, min length (bound - 1) + 1⟩
  | _, _ => ⟨0, 0⟩

/-- What an action answers that cuts its count to its arrays. -/
def Action.cutCount?
    (arrays : List Bytes)
    (before : Bytes) : Action → Option Nat
  | .memset _ count => some (min count before.length)
  | .strncpy _ count => some (min count before.length)
  | .memcpy source count =>
      some (min count (min before.length (source.read arrays).length))
  | .memmove source count =>
      some (min count (min before.length (source.read arrays).length))
  | _ => none

/-- A write to an array that an extent inside it holds. -/
structure Extent.Holds
    (extent : Extent)
    (before after : Bytes) : Prop where
  ordered : extent.start ≤ extent.stop
  inside : extent.stop ≤ before.length
  length_eq : after.length = before.length
  outside : ∀ place, extent.Misses place → after[place]? = before[place]?

section Writes

variable
  {before written : Bytes}
  {start stop : Nat}

/-- Bytes put in the place of as many change nothing elsewhere. -/
theorem Extent.holds_overlay
    (fits : start + written.length ≤ before.length) :
    Extent.Holds ⟨start, start + written.length⟩ before (before.overlay written start) where
  ordered := Nat.le_add_right _ _
  inside := fits
  length_eq := by
    simp only [Bytes.overlay, List.length_append, List.length_take, List.length_drop]
    omega
  outside := by
    intro place misses
    rcases misses with front | behind
    · change place < start at front
      have inFront : place < (before.take start).length := by
        rw [List.length_take]
        omega
      rw [Bytes.overlay, List.append_assoc, List.getElem?_append_left inFront,
        List.getElem?_take_of_lt front]
    · have frontLength :
          (before.take start ++ written).length = start + written.length := by
        rw [List.length_append, List.length_take,
          Nat.min_eq_left (Nat.le_of_add_right_le fits)]
      rw [Bytes.overlay,
        List.getElem?_append_right (frontLength ▸ behind), frontLength,
        List.getElem?_drop, Nat.add_sub_cancel' behind]

theorem Extent.holds_front
    (fits : written.length ≤ before.length) :
    Extent.Holds ⟨0, written.length⟩ before (written ++ before.drop written.length) := by
  have fitsBehind : 0 + written.length ≤ before.length := by
    rwa [Nat.zero_add]
  simpa [Bytes.overlay] using Extent.holds_overlay fitsBehind

theorem Extent.holds_terminated
    {text : Bytes}
    (fits : text.length < before.length) :
    Extent.Holds ⟨0, text.length + 1⟩ before
      (text ++ 0 :: before.drop (text.length + 1)) := by
  have terminatedFits : text.terminated.length ≤ before.length := by
    simpa [Bytes.terminated] using fits
  simpa [Bytes.terminated] using Extent.holds_front terminatedFits

theorem Extent.holds_unchanged
    (before : Bytes) :
    Extent.Holds ⟨0, 0⟩ before before where
  ordered := Nat.le_refl 0
  inside := Nat.zero_le _
  length_eq := rfl
  outside := fun _ _ => rfl

end Writes

/-- The string of an array is what the array begins with. -/
theorem cString_eq_take
    (array : Bytes) :
    array.cString = array.take (strlen array) :=
  List.prefix_iff_eq_take.mp (List.takeWhile_prefix _)

section Actions

variable
  (arrays : List Bytes)
  (before : Bytes)

/-- An outcome that writes no more than the action that answers it announces. -/
def Action.KeepsTo
    (action : Action)
    (outcome : Outcome Answer) : Prop :=
  (action.extent before outcome.answer).Holds before outcome.array

theorem Action.keepsTo_memset
    (value : UInt8)
    (count : Nat) :
    Action.KeepsTo before (.memset value count)
      ((CharArray.memset before value count).map .count) := by
  have fits : (List.replicate (min count before.length) value).length ≤ before.length := by
    simp
  have held := Extent.holds_front fits
  rwa [List.length_replicate] at held

theorem Action.keepsTo_memcpy
    (source : Source)
    (count : Nat) :
    Action.KeepsTo before (.memcpy source count)
      ((CharArray.memcpy before (source.read arrays) count).map .count) := by
  let extent := min count (min before.length (source.read arrays).length)
  have taken : ((source.read arrays).take extent).length = extent := by
    simp only [List.length_take, extent]
    omega
  have fits : ((source.read arrays).take extent).length ≤ before.length := by
    rw [taken]
    omega
  have held := Extent.holds_front fits
  rwa [taken] at held

theorem Action.keepsTo_memmoveWithin
    (target source count : Nat) :
    Action.KeepsTo before (.memmoveWithin target source count)
      ((CharArray.memmoveWithin before target source count).map .ofOption) := by
  rw [CharArray.memmoveWithin]
  split
  · exact Extent.holds_unchanged before
  · rename_i within
    have moved : ((before.drop source).take count).length = count := by
      simp only [List.length_take, List.length_drop]
      omega
    have fits : target + ((before.drop source).take count).length ≤ before.length := by
      rw [moved]
      omega
    have held := Extent.holds_overlay fits
    rwa [Bytes.overlay, moved] at held

theorem Action.keepsTo_strcpy
    (source : Source) :
    Action.KeepsTo before (.strcpy source)
      ((CharArray.strcpy before (source.read arrays)).map .ofOption) := by
  simp only [CharArray.strcpy]
  split
  · exact Extent.holds_unchanged before
  · rename_i fits
    exact Extent.holds_terminated (Nat.lt_of_not_le fits)

theorem Action.keepsTo_strncpy
    (source : Source)
    (count : Nat) :
    Action.KeepsTo before (.strncpy source count)
      ((CharArray.strncpy before (source.read arrays) count).map .count) := by
  let extent := min count before.length
  let text := (source.read arrays).cString.take extent
  have padded : (Bytes.zeroPadded text extent).length = extent := by
    simp only [Bytes.zeroPadded, List.length_append, List.length_replicate,
      List.length_take, text]
    omega
  have fits : (Bytes.zeroPadded text extent).length ≤ before.length := by
    rw [padded]
    omega
  have held := Extent.holds_front fits
  rwa [padded] at held

/-- An append leaves the string that the array holds as it is. -/
theorem Action.keepsTo_strcat
    (source : Source) :
    Action.KeepsTo before (.strcat source)
      ((CharArray.strcat before (source.read arrays)).map .ofOption) := by
  let text := (source.read arrays).cString
  simp only [CharArray.strcat]
  split
  · exact Extent.holds_unchanged before
  · rename_i fits
    have fitsBehind : strlen before + text.terminated.length ≤ before.length := by
      simp only [List.length_append] at fits
      simp only [strlen, Bytes.terminated, List.length_append, List.length_singleton, text]
      omega
    have stop :
        strlen before + text.terminated.length =
          (before.cString ++ text).length + 1 := by
      simp [strlen, Bytes.terminated, Nat.add_assoc]
    have held := Extent.holds_overlay fitsBehind
    have shape :
        before.cString ++ text.terminated ++
            before.drop ((before.cString ++ text).length + 1) =
          before.cString ++ text ++ 0 :: before.drop ((before.cString ++ text).length + 1) := by
      simp [Bytes.terminated]
    rw [Bytes.overlay, ← cString_eq_take, stop, shape] at held
    exact held

theorem Action.keepsTo_sprintf
    (template : Bytes)
    (arguments : List Format.Argument) :
    Action.KeepsTo before (.sprintf template arguments)
      ((Format.sprintf before template arguments).map .ofExcept) := by
  cases formatted : Format.format template arguments with
  | error failure =>
      rw [Format.sprintf_of_error formatted]
      exact Extent.holds_unchanged before
  | ok output =>
      rcases Nat.lt_or_ge output.length before.length with fits | short
      · rw [Format.sprintf_of_lt_length formatted fits]
        exact Extent.holds_terminated fits
      · rw [Format.sprintf_of_length_le formatted short]
        exact Extent.holds_unchanged before

theorem Action.keepsTo_snprintf
    (bound : Nat)
    (template : Bytes)
    (arguments : List Format.Argument) :
    Action.KeepsTo before (.snprintf bound template arguments)
      ((Format.snprintf before bound template arguments).map .ofExcept) := by
  rcases Nat.lt_or_ge before.length bound with beyond | within
  · rw [Format.snprintf_of_length_lt beyond]
    exact Extent.holds_unchanged before
  · cases formatted : Format.format template arguments with
    | error failure =>
        rw [Format.snprintf_of_error within formatted]
        exact Extent.holds_unchanged before
    | ok output =>
        rcases Nat.eq_zero_or_pos bound with zero | positive
        · subst zero
          rw [Format.snprintf_zero formatted]
          exact Extent.holds_unchanged before
        · rw [Format.snprintf_of_pos within positive formatted]
          have kept : (output.take (bound - 1)).length = min output.length (bound - 1) := by
            rw [List.length_take, Nat.min_comm]
          have fits : (output.take (bound - 1)).length < before.length := by
            rw [kept]
            omega
          have held := Extent.holds_terminated fits
          rw [kept] at held
          simpa [Action.KeepsTo, Action.extent, Outcome.map, Answer.ofExcept,
            Nat.ne_of_gt positive, kept] using held

/-- An action that answers no count announces no places. -/
theorem Action.extent_of_ne_count
    (action : Action)
    {answer : Answer}
    (noCount : ∀ count, answer ≠ .count count) :
    action.extent before answer = ⟨0, 0⟩ := by
  cases answer with
  | count count => exact absurd rfl (noCount count)
  | _ => cases action <;> rfl

/-- An action writes no more than it announces. -/
theorem Action.keepsTo_run
    (action : Action) :
    action.KeepsTo before (action.run arrays before) := by
  cases action with
  | memset value count => exact keepsTo_memset before value count
  | memcpy source count => exact keepsTo_memcpy arrays before source count
  | memmove source count => exact keepsTo_memcpy arrays before source count
  | memmoveWithin target source count =>
      exact keepsTo_memmoveWithin before target source count
  | strcpy source => exact keepsTo_strcpy arrays before source
  | strncpy source count => exact keepsTo_strncpy arrays before source count
  | strcat source => exact keepsTo_strcat arrays before source
  | sprintf template arguments => exact keepsTo_sprintf before template arguments
  | snprintf bound template arguments =>
      exact keepsTo_snprintf before bound template arguments

/-- An action that answers no count leaves its array as it is. -/
theorem Action.array_of_ne_count
    (action : Action)
    (noCount : ∀ count, (action.run arrays before).answer ≠ .count count) :
    (action.run arrays before).array = before := by
  have keeps := keepsTo_run arrays before action
  rw [KeepsTo, extent_of_ne_count before action noCount] at keeps
  exact List.ext_getElem? fun place => keeps.outside place (.inr (Nat.zero_le place))

theorem Action.answer_of_cutCount?
    (action : Action) :
    ∀ count ∈ action.cutCount? arrays before,
      (action.run arrays before).answer = .count count := by
  intro count isCut
  cases action with
  | memset _ _ | memcpy _ _ | memmove _ _ | strncpy _ _ =>
      obtain rfl := Option.some.inj isCut
      rfl
  | _ => cases isCut

end Actions

/-- What a call does to arrays: it changes its own one, and no more of it than it announces. -/
structure Call.Frames
    (call : Call)
    (before : List Bytes)
    (answer : Answer)
    (after : List Bytes) : Prop where
  lengths : after.map List.length = before.map List.length
  others : ∀ index, index ≠ call.destination → after[index]? = before[index]?
  own :
    (call.action.extent (contents before call.destination) answer).Holds
      (contents before call.destination) (contents after call.destination)
  cut :
    ∀ count ∈ call.action.cutCount? before (contents before call.destination),
      answer = .count count
  unchanged : (∀ count, answer ≠ .count count) → after = before

section Calls

variable
  (call : Call)
  (before : List Bytes)

theorem contents_set
    (index : Nat)
    {array : Bytes}
    (sameLength : array.length = (contents before index).length) :
    contents (before.set index array) index = array := by
  rw [contents, List.getD_eq_getElem?_getD, List.getElem?_set_self']
  cases stands : before[index]? with
  | some old =>
      rfl
  | none =>
      rw [contents, List.getD_eq_getElem?_getD, stands] at sameLength
      exact (List.length_eq_zero_iff.mp sameLength).symm

theorem set_contents
    (index : Nat) :
    before.set index (contents before index) = before := by
  refine List.ext_getElem? fun place => ?_
  rw [List.getElem?_set]
  split
  · rename_i same
    subst same
    split
    · rename_i within
      rw [contents, List.getD_eq_getElem _ _ within, List.getElem?_eq_getElem within]
    · rename_i beyond
      rw [List.getElem?_eq_none (Nat.le_of_not_lt beyond)]
  · rfl

theorem Call.frames_run :
    call.Frames before (call.run before).1 (call.run before).2 := by
  have keeps := Action.keepsTo_run before (contents before call.destination) call.action
  have sameLength := keeps.length_eq
  refine
    { lengths := ?lengths, others := ?others, own := ?own
      cut := Action.answer_of_cutCount? before _ call.action, unchanged := ?unchanged }
  case lengths =>
    rw [Call.run, List.map_set, sameLength, ← List.map_set, set_contents]
  case others =>
    intro index different
    exact List.getElem?_set_ne (Ne.symm different)
  case own =>
    rw [Call.run, contents_set before call.destination sameLength]
    exact keeps
  case unchanged =>
    intro noCount
    rw [Call.run, Action.array_of_ne_count before _ call.action noCount, set_contents]

end Calls

section Runs

/-- The arrays that the calls of a run name, each with the places that its call announces. -/
def announced
    (arrays : List Bytes) : List Call → List (Nat × Extent)
  | [] => []
  | call :: rest =>
      let (answer, after) := call.run arrays
      (call.destination, call.action.extent (contents arrays call.destination) answer) ::
        announced after rest

theorem lengths_runCalls
    (arrays : List Bytes)
    (calls : List Call) :
    (runCalls arrays calls).2.map List.length = arrays.map List.length := by
  induction calls generalizing arrays with
  | nil =>
      rfl
  | cons call rest inductionHypothesis =>
      exact (inductionHypothesis _).trans (call.frames_run arrays).lengths

/-- A call leaves a byte alone that its announced places miss, and every byte of other arrays. -/
theorem Call.Frames.getElem?_contents
    {call : Call}
    {before after : List Bytes}
    {answer : Answer}
    (frames : call.Frames before answer after)
    {index place : Nat}
    (misses :
      index = call.destination →
        (call.action.extent (contents before call.destination) answer).Misses place) :
    (contents after index)[place]? = (contents before index)[place]? := by
  by_cases isOwn : index = call.destination
  · rw [isOwn]
    exact frames.own.outside place (misses isOwn)
  · rw [contents, contents, List.getD_eq_getElem?_getD, List.getD_eq_getElem?_getD,
      frames.others index isOwn]

/-- Over a run a byte keeps its value unless a call on its array announces its place. -/
theorem getElem?_contents_runCalls
    {arrays : List Bytes}
    {calls : List Call}
    {index place : Nat}
    (misses :
      ∀ extent, (index, extent) ∈ announced arrays calls → extent.Misses place) :
    (contents (runCalls arrays calls).2 index)[place]? =
      (contents arrays index)[place]? := by
  induction calls generalizing arrays with
  | nil =>
      rfl
  | cons call rest inductionHypothesis =>
      have later :=
        inductionHypothesis fun extent member =>
          misses extent (List.mem_cons_of_mem _ member)
      refine later.trans ((call.frames_run arrays).getElem?_contents fun isOwn => ?_)
      subst isOwn
      exact misses _ List.mem_cons_self

end Runs

/--
In any run of calls on any arrays, no array changes its length, and each call
changes only its own array, only at the places that it announces, which lie inside
the array, and nothing at all if it answers no count.  So a byte keeps its value
over the run unless a call announces its place.
-/
theorem runCalls_frames
    (arrays : List Bytes)
    (calls : List Call) :
    (runCalls arrays calls).2.map List.length = arrays.map List.length ∧
      (∀ front call later,
        calls = front ++ call :: later →
          ∃ earlier before answer after,
            runCalls arrays front = (earlier, before) ∧
              call.run before = (answer, after) ∧
              (runCalls arrays calls).1[front.length]? = some answer ∧
              call.Frames before answer after) ∧
      ∀ index place,
        (∀ extent, (index, extent) ∈ announced arrays calls → extent.Misses place) →
          (contents (runCalls arrays calls).2 index)[place]? =
            (contents arrays index)[place]? := by
  refine
    ⟨lengths_runCalls arrays calls, ?_, fun _ _ => getElem?_contents_runCalls⟩
  rintro front call later rfl
  exact
    ⟨_, _, _, _, rfl, rfl, getElem?_answers_runCalls arrays front call later,
      call.frames_run _⟩

/--
A move whose offset is the largest word is refused, an append that fits writes from the end
of the string on, and a copy is cut to the shorter array; the last byte of the
longer array is in no extent.
-/
theorem runCalls_frames_twoArrays :
    let arrays : List Bytes := [[1, 2, 0, 4, 5], [6, 7]]
    let move : Call := ⟨0, .memmoveWithin 0xffffffffffffffff 0 1⟩
    let append : Call := ⟨0, .strcat (.bytes [8, 0, 8])⟩
    let copy : Call := ⟨1, .memcpy (.array 0) 9⟩
    let ran := runCalls arrays [move, append, copy]
    ran = ([.refused, .count 3, .count 2], [[1, 2, 8, 0, 5], [1, 2]]) ∧
      announced arrays [move, append, copy] =
        [(0, ⟨0, 0⟩), (0, ⟨2, 4⟩), (1, ⟨0, 2⟩)] ∧
      (contents ran.2 0)[4]? = some 5 ∧
      append.Frames arrays (.count 3) [[1, 2, 8, 0, 5], [6, 7]] := by
  intro arrays move append copy ran
  obtain ⟨-, steps, kept⟩ := runCalls_frames arrays [move, append, copy]
  have announcedPlaces :
      announced arrays [move, append, copy] =
        [(0, ⟨0, 0⟩), (0, ⟨2, 4⟩), (1, ⟨0, 2⟩)] := by
    decide
  obtain ⟨earlier, before, answer, after, ranFront, ranAppend, -, frames⟩ :=
    steps [move] append [copy] rfl
  have afterMove : runCalls arrays [move] = ([.refused], arrays) := by
    decide
  rw [afterMove] at ranFront
  obtain ⟨-, rfl⟩ := Prod.mk.inj ranFront
  have appended :
      append.run arrays = (.count 3, [[1, 2, 8, 0, 5], [6, 7]]) := by
    decide
  rw [appended] at ranAppend
  obtain ⟨rfl, rfl⟩ := Prod.mk.inj ranAppend
  refine ⟨by decide, announcedPlaces, ?_, frames⟩
  refine (kept 0 4 fun extent member => ?_).trans rfl
  rw [announcedPlaces] at member
  have cases : extent = ⟨0, 0⟩ ∨ extent = ⟨2, 4⟩ := by
    simpa using member
  rcases cases with rfl | rfl
  · exact .inr (by decide)
  · exact .inr (by decide)

end LibcConformance.CharArray
