namespace LibcConformance

/-!
# White space

The code points with the Unicode property White_Space, as ranges in ascending
order, and what is left of a text without them at its ends.
-/

namespace WhiteSpace

/-- The first and the last code point of each range. -/
def ranges : List (Nat × Nat) :=
  [(0x0009, 0x000d), (0x0020, 0x0020), (0x0085, 0x0085), (0x00a0, 0x00a0), (0x1680, 0x1680),
    (0x2000, 0x200a), (0x2028, 0x2029), (0x202f, 0x202f), (0x205f, 0x205f), (0x3000, 0x3000)]

/-- Whether a character is white space. -/
def contains (character : Char) : Bool :=
  ranges.any fun (first, last) => first ≤ character.toNat && character.toNat ≤ last

/-- A text without the white space in front of it and behind it. -/
def trim (text : List Char) : List Char :=
  ((text.dropWhile contains).reverse.dropWhile contains).reverse

end WhiteSpace

end LibcConformance
