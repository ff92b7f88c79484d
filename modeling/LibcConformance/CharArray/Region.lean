import LibcConformance.Bytes

namespace LibcConformance

/-!
# Filling, copying and comparing regions of arrays

A call sees its destination array as a byte list and answers with an
`Outcome`: the value it returns and the contents of the array afterwards.  The
array never changes length, and a count beyond an array's end is cut to it, so
every call is total.  Moves inside one array take two offsets and are refused
when either range leaves the array.
-/

/-- What a call answers, and the contents of its destination array afterwards. -/
structure Outcome (Answer : Type) where
  answer : Answer
  array : Bytes
  deriving Repr, DecidableEq

/-- An outcome with its answer seen as something else. -/
def Outcome.map {Answer Result : Type} (view : Answer → Result) (outcome : Outcome Answer) :
    Outcome Result :=
  { answer := view outcome.answer, array := outcome.array }

namespace Bytes

/-- The lexicographic order of two byte sequences, bytes compared as unsigned numbers. -/
def order : Bytes → Bytes → Ordering
  | [], [] => .eq
  | [], _ :: _ => .lt
  | _ :: _, [] => .gt
  | left :: lefts, right :: rights =>
      (compare left right).then (order lefts rights)

end Bytes

namespace CharArray

/-- Sets the first `count` bytes of the array, and answers how many there were to set. -/
def memset (destination : Bytes) (value : UInt8) (count : Nat) : Outcome Nat :=
  let extent := min count destination.length
  { answer := extent
    array := List.replicate extent value ++ destination.drop extent }

/-- Copies up to `count` bytes from the source, as far as both arrays reach. -/
def memcpy (destination source : Bytes) (count : Nat) : Outcome Nat :=
  let extent := min count (min destination.length source.length)
  { answer := extent
    array := source.take extent ++ destination.drop extent }

/-- Moves between two arrays, which never share bytes, so that it copies. -/
def memmove (destination source : Bytes) (count : Nat) : Outcome Nat :=
  memcpy destination source count

/--
Moves `count` bytes inside one array, from offset `source` to offset `target`;
the ranges may overlap.  Refuses ranges that leave the array.
-/
def memmoveWithin (array : Bytes) (target source count : Nat) : Outcome (Option Nat) :=
  if source + count > array.length ∨ target + count > array.length then
    { answer := none, array := array }
  else
    { answer := some count
      array :=
        array.take target ++ (array.drop source).take count ++
          array.drop (target + count) }

/-- Compares the first `count` bytes, as far as both arrays reach. -/
def memcmp (left right : Bytes) (count : Nat) : Ordering :=
  let extent := min count (min left.length right.length)
  Bytes.order (left.take extent) (right.take extent)

/-- Copying keeps the length of the destination. -/
theorem length_memcpy (destination source : Bytes) (count : Nat) :
    (memcpy destination source count).array.length = destination.length := by
  simp only [memcpy, List.length_append, List.length_take, List.length_drop]
  omega

end CharArray

end LibcConformance
