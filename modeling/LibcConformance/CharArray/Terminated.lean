import LibcConformance.CharArray.Region

namespace LibcConformance

/-!
# NUL-terminated strings in arrays

The string in an array ends before its first NUL.  An array without a NUL is
read as if one followed its last byte, and no routine writes past the end of
its destination: a copy that does not fit, with its terminator, is refused and
changes nothing.
-/

namespace CharArray

/-- The number of bytes before the first NUL. -/
def strlen (array : Bytes) : Nat :=
  array.cString.length

/--
Compares two strings and answers the difference of the first two bytes that
differ, a string's end counting as a NUL; equal strings answer zero.
-/
def strcmp : Bytes → Bytes → Int
  | [], [] => 0
  | [], right :: _ => -(right.toNat : Int)
  | left :: _, [] => left.toNat
  | left :: lefts, right :: rights =>
      if left = right then
        if left = 0 then 0 else strcmp lefts rights
      else
        (left.toNat : Int) - right.toNat

/-- Compares as `strcmp` does, but looks at no more than `count` bytes of each string. -/
def strncmp : Bytes → Bytes → Nat → Int
  | _, _, 0 => 0
  | [], [], _ + 1 => 0
  | [], right :: _, _ + 1 => -(right.toNat : Int)
  | left :: _, [], _ + 1 => left.toNat
  | left :: lefts, right :: rights, count + 1 =>
      if left = right then
        if left = 0 then 0 else strncmp lefts rights count
      else
        (left.toNat : Int) - right.toNat

/--
Copies a string and its terminator, and answers how many bytes it wrote.
Refused when the array is too small for both.
-/
def strcpy (destination source : Bytes) : Outcome (Option Nat) :=
  let text := source.cString
  if destination.length ≤ text.length then
    { answer := none, array := destination }
  else
    { answer := some (text.length + 1)
      array := text ++ 0 :: destination.drop (text.length + 1) }

/--
Writes the first `count` bytes of the array: the string cut to that many bytes,
and NULs after it.  A string of `count` bytes or more is left unterminated.
-/
def strncpy (destination source : Bytes) (count : Nat) : Outcome Nat :=
  let extent := min count destination.length
  let text := source.cString.take extent
  { answer := extent
    array := Bytes.zeroPadded text extent ++ destination.drop extent }

/--
Appends a string to the one in the array, and answers the length of the result.
Refused when the array is too small for the result and its terminator.
-/
def strcat (destination source : Bytes) : Outcome (Option Nat) :=
  let joined := destination.cString ++ source.cString
  if destination.length ≤ joined.length then
    { answer := none, array := destination }
  else
    { answer := some joined.length
      array := joined ++ 0 :: destination.drop (joined.length + 1) }

end CharArray

end LibcConformance
