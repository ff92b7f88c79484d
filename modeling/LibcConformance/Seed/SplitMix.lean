namespace LibcConformance

/-!
# The SplitMix generator

The state of the generator walks through the words by a fixed odd step, and
each word it draws is its new state with the bits mixed.
-/

/-- A generator by its state, which starts as the seed. -/
structure SplitMix where
  state : UInt64
  deriving Repr, DecidableEq

namespace SplitMix

/-- The step from one state to the next. -/
def increment : UInt64 :=
  0x9e3779b97f4a7c15

/-- Mixes the bits of a state, one to one. -/
def mix (state : UInt64) : UInt64 :=
  let first := (state ^^^ (state >>> 30)) * 0xbf58476d1ce4e5b9
  let second := (first ^^^ (first >>> 27)) * 0x94d049bb133111eb
  second ^^^ (second >>> 31)

/-- Draws a word. -/
def next (generator : SplitMix) : UInt64 × SplitMix :=
  let state := generator.state + increment
  (mix state, ⟨state⟩)

/-- The letters and digits that payloads are made of. -/
def alphabet : List Char :=
  "abcdefghijklmnopqrstuvwxyzABCDEFGHIJKLMNOPQRSTUVWXYZ0123456789".toList

/-- The letter or digit that a word stands for. -/
def letter (word : UInt64) : Char :=
  alphabet.getD (word.toNat % alphabet.length) 'a'

/-- Draws letters and digits, one word for each. -/
def letters : Nat → SplitMix → List Char × SplitMix
  | 0, generator => ([], generator)
  | count + 1, generator =>
      let (word, advanced) := generator.next
      let (rest, last) := letters count advanced
      (letter word :: rest, last)

/-- Draws a text of letters and digits. -/
def alphanumeric (count : Nat) (generator : SplitMix) : String × SplitMix :=
  let (drawn, last) := letters count generator
  (String.ofList drawn, last)

/-- As many letters are drawn as asked for. -/
theorem length_letters (count : Nat) (generator : SplitMix) :
    (letters count generator).1.length = count := by
  induction count generalizing generator with
  | zero => rfl
  | succ count inductionHypothesis =>
      simp [letters, inductionHypothesis]

end SplitMix

end LibcConformance
