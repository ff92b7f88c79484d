import LibcConformance.Bytes

namespace LibcConformance

/-!
# SHA-256

A message is padded to whole blocks of sixty-four bytes, and each block is
mixed into eight words that start from fixed values.
-/

namespace Sha256

/-- The eight words that blocks are mixed into. -/
structure State where
  a : UInt32
  b : UInt32
  c : UInt32
  d : UInt32
  e : UInt32
  f : UInt32
  g : UInt32
  h : UInt32
  deriving Repr, DecidableEq

/-- The fractional parts of the square roots of the first eight primes. -/
def initial : State :=
  ⟨0x6a09e667, 0xbb67ae85, 0x3c6ef372, 0xa54ff53a, 0x510e527f, 0x9b05688c, 0x1f83d9ab, 0x5be0cd19⟩

/-- The fractional parts of the cube roots of the first sixty-four primes. -/
def roundConstants : List UInt32 :=
  [0x428a2f98, 0x71374491, 0xb5c0fbcf, 0xe9b5dba5, 0x3956c25b, 0x59f111f1, 0x923f82a4, 0xab1c5ed5,
    0xd807aa98, 0x12835b01, 0x243185be, 0x550c7dc3, 0x72be5d74, 0x80deb1fe, 0x9bdc06a7, 0xc19bf174,
    0xe49b69c1, 0xefbe4786, 0x0fc19dc6, 0x240ca1cc, 0x2de92c6f, 0x4a7484aa, 0x5cb0a9dc, 0x76f988da,
    0x983e5152, 0xa831c66d, 0xb00327c8, 0xbf597fc7, 0xc6e00bf3, 0xd5a79147, 0x06ca6351, 0x14292967,
    0x27b70a85, 0x2e1b2138, 0x4d2c6dfc, 0x53380d13, 0x650a7354, 0x766a0abb, 0x81c2c92e, 0x92722c85,
    0xa2bfe8a1, 0xa81a664b, 0xc24b8b70, 0xc76c51a3, 0xd192e819, 0xd6990624, 0xf40e3585, 0x106aa070,
    0x19a4c116, 0x1e376c08, 0x2748774c, 0x34b0bcb5, 0x391c0cb3, 0x4ed8aa4a, 0x5b9cca4f, 0x682e6ff3,
    0x748f82ee, 0x78a5636f, 0x84c87814, 0x8cc70208, 0x90befffa, 0xa4506ceb, 0xbef9a3f7, 0xc67178f2]

/-- Turns a word to the right. -/
def rotate (word amount : UInt32) : UInt32 :=
  (word >>> amount) ||| (word <<< (32 - amount))

/-- The low bytes of a number, as many as asked for, most significant first. -/
def bigEndian : Nat → Nat → Bytes
  | 0, _ => []
  | count + 1, value => bigEndian count (value / 256) ++ [UInt8.ofNat value]

/-- A message with a one bit, zeros and its length in bits behind it, in whole blocks. -/
def padded (message : Bytes) : Bytes :=
  let zeros := (119 - message.length % 64) % 64
  message ++ 0x80 :: List.replicate zeros 0 ++ bigEndian 8 (8 * message.length)

/-- Words of four bytes each, most significant first. -/
def words : Bytes → List UInt32
  | first :: second :: third :: fourth :: rest =>
      ((first.toUInt32 <<< 24) ||| (second.toUInt32 <<< 16) ||| (third.toUInt32 <<< 8) |||
        fourth.toUInt32) :: words rest
  | _ => []

/-- The word that follows sixteen words of a schedule, given latest first. -/
def nextWord (latest : List UInt32) : UInt32 :=
  let two := latest.getD 1 0
  let fifteen := latest.getD 14 0
  let small := rotate fifteen 7 ^^^ rotate fifteen 18 ^^^ (fifteen >>> 3)
  let large := rotate two 17 ^^^ rotate two 19 ^^^ (two >>> 10)
  latest.getD 15 0 + small + latest.getD 6 0 + large

/-- Adds words to a schedule that is given latest first. -/
def extended : Nat → List UInt32 → List UInt32
  | 0, latest => latest
  | count + 1, latest => extended count (nextWord latest :: latest)

/-- The sixty-four words of a block. -/
def schedule (block : List UInt32) : List UInt32 :=
  (extended 48 block.reverse).reverse

/-- Mixes a constant and a word of the schedule into a state. -/
def round (state : State) (key : UInt32 × UInt32) : State :=
  let large := rotate state.e 6 ^^^ rotate state.e 11 ^^^ rotate state.e 25
  let choice := (state.e &&& state.f) ^^^ (~~~state.e &&& state.g)
  let first := state.h + large + choice + key.1 + key.2
  let small := rotate state.a 2 ^^^ rotate state.a 13 ^^^ rotate state.a 22
  let majority := (state.a &&& state.b) ^^^ (state.a &&& state.c) ^^^ (state.b &&& state.c)
  { a := first + (small + majority)
    b := state.a
    c := state.b
    d := state.c
    e := state.d + first
    f := state.e
    g := state.f
    h := state.g }

/-- Mixes a block into a state. -/
def compress (state : State) (block : List UInt32) : State :=
  let mixed := (roundConstants.zip (schedule block)).foldl round state
  { a := state.a + mixed.a
    b := state.b + mixed.b
    c := state.c + mixed.c
    d := state.d + mixed.d
    e := state.e + mixed.e
    f := state.f + mixed.f
    g := state.g + mixed.g
    h := state.h + mixed.h }

/-- Mixes blocks of sixteen words into a state, at most as many as given. -/
def compressAll : Nat → State → List UInt32 → State
  | 0, state, _ => state
  | count + 1, state, message =>
      compressAll count (compress state (message.take 16)) (message.drop 16)

/-- The words of a state in order. -/
def State.toList (state : State) : List UInt32 :=
  [state.a, state.b, state.c, state.d, state.e, state.f, state.g, state.h]

/-- The digest of a message. -/
def digest (message : Bytes) : Bytes :=
  let blocks := words (padded message)
  (compressAll (blocks.length / 16) initial blocks).toList.flatMap fun word =>
    bigEndian 4 word.toNat

/-- The digest of a message in lowercase hexadecimal. -/
def hexDigest (message : Bytes) : String :=
  (digest message).toHex

example :
    hexDigest (Bytes.ofText "abc") =
      "ba7816bf8f01cfea414140de5dae2223b00361a396177a9cb410ff61f20015ad" := by
  decide +kernel

end Sha256

end LibcConformance
