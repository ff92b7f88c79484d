import LibcConformance.Format.Directive

namespace LibcConformance

/-!
# Reading a directive

The text after a percent sign is read from left to right: a run of flags, a
width, a precision behind a point, a length modifier and a conversion letter.
Each step answers what it read and the bytes that follow.  Numbers of any
length are read; those that do not fit are taken as the largest word.  Main
fact: a directive that is read leaves a shorter text behind.
-/

namespace Format

/-- Whether a byte is an ASCII decimal digit. -/
def isDigit (byte : UInt8) : Bool :=
  ascii '0' ≤ byte && byte ≤ ascii '9'

/-- The word with the given value, or the largest word when there is none. -/
def saturated (value : Nat) : UInt64 :=
  UInt64.ofNat (min value (wordSize - 1))

/-- A number with one more decimal digit behind it. -/
def withDigit (number : UInt64) (digit : UInt8) : UInt64 :=
  saturated (number.toNat * 10 + (digit.toNat - (ascii '0').toNat))

/-- The number that a run of decimal digits stands for, saturated at every digit. -/
def decimalWord (run : Bytes) : UInt64 :=
  run.foldl withDigit 0

/-- Reads a run of flags. -/
def readFlags : Bytes → List Flag × Bytes
  | [] => ([], [])
  | byte :: rest =>
      match Flag.ofByte? byte with
      | some flag =>
          let (run, after) := readFlags rest
          (flag :: run, after)
      | none => ([], byte :: rest)

/-- Reads a run of digits, and answers its value if there are any. -/
def readNumber (text : Bytes) : Option UInt64 × Bytes :=
  let run := text.takeWhile isDigit
  (if run = [] then none else some (decimalWord run), text.dropWhile isDigit)

/-- Reads a width: a star, a number or nothing. -/
def readWidth (text : Bytes) : Amount × Bytes :=
  match text with
  | [] => (.absent, [])
  | byte :: rest =>
      if byte = ascii '*' then
        (.fromArgument, rest)
      else
        let (number, after) := readNumber text
        (number.elim .absent .fixed, after)

/-- Reads a precision behind its point; a point with no number after it means zero. -/
def readPrecision (text : Bytes) : Amount × Bytes :=
  match text with
  | [] => (.absent, [])
  | byte :: rest =>
      if byte = ascii '.' then
        let (amount, after) := readWidth rest
        (if amount = .absent then .fixed 0 else amount, after)
      else
        (.absent, text)

/-- Reads a length modifier; a doubled letter is one modifier. -/
def readLength (text : Bytes) : LengthModifier × Bytes :=
  match text with
  | [] => (.absent, [])
  | first :: rest =>
      let doubled := rest.head? = some first
      if first = ascii 'h' then
        if doubled then (.hh, rest.tail) else (.h, rest)
      else if first = ascii 'l' then
        if doubled then (.ll, rest.tail) else (.l, rest)
      else if first = ascii 'z' then
        (.z, rest)
      else if first = ascii 't' then
        (.t, rest)
      else if first = ascii 'j' then
        (.j, rest)
      else
        (.absent, text)

/-- Reads a conversion letter. -/
def readConversion? : Bytes → Option (Conversion × Bytes)
  | [] => none
  | byte :: rest => (Conversion.ofByte? byte).map (·, rest)

namespace Directive

/--
Reads the directive that a text starts with, and answers it with the bytes that
follow.  There is none when the letter after the optional parts is missing or
is no conversion.
-/
def read? (text : Bytes) : Option (Directive × Bytes) :=
  let (run, afterFlags) := readFlags text
  let (width, afterWidth) := readWidth afterFlags
  let (precision, afterPrecision) := readPrecision afterWidth
  let (length, afterLength) := readLength afterPrecision
  (readConversion? afterLength).map fun (conversion, rest) =>
    ({ flags := (Flags.ofList run).normalized, width, precision, length, conversion }, rest)

/-- The directive that a text starts with, and the number of bytes it spans. -/
def readSpan? (text : Bytes) : Option (Directive × Nat) :=
  (read? text).map fun (directive, rest) => (directive, text.length - rest.length)

end Directive

/-- Reading flags leaves an end of the text. -/
theorem readFlags_suffix (text : Bytes) : (readFlags text).2 <:+ text := by
  induction text with
  | nil => exact List.suffix_refl _
  | cons byte rest inductionHypothesis =>
      unfold readFlags
      split
      · exact inductionHypothesis.trans (List.suffix_cons ..)
      · exact List.suffix_refl _

/-- Reading a number leaves an end of the text. -/
theorem readNumber_suffix (text : Bytes) : (readNumber text).2 <:+ text :=
  List.dropWhile_suffix _

/-- Reading a width leaves an end of the text. -/
theorem readWidth_suffix (text : Bytes) : (readWidth text).2 <:+ text := by
  unfold readWidth
  split
  · exact List.suffix_refl _
  · split
    · exact List.suffix_cons ..
    · exact readNumber_suffix _

/-- Reading a precision leaves an end of the text. -/
theorem readPrecision_suffix (text : Bytes) : (readPrecision text).2 <:+ text := by
  unfold readPrecision
  split
  · exact List.suffix_refl _
  · split
    · exact (readWidth_suffix _).trans (List.suffix_cons ..)
    · exact List.suffix_refl _

/-- Reading a length modifier leaves an end of the text. -/
theorem readLength_suffix (text : Bytes) : (readLength text).2 <:+ text := by
  unfold readLength
  split
  · exact List.suffix_refl _
  · rename_i first rest
    have single : rest <:+ first :: rest := List.suffix_cons ..
    have double : rest.tail <:+ first :: rest := (List.tail_suffix rest).trans single
    have whole : first :: rest <:+ first :: rest := List.suffix_refl _
    dsimp only
    repeat' split
    all_goals assumption

/-- A directive that is read leaves a shorter text. -/
theorem Directive.length_rest_lt {text : Bytes} {directive : Directive} {rest : Bytes}
    (accepted : Directive.read? text = some (directive, rest)) :
    rest.length < text.length := by
  simp only [Directive.read?, Option.map_eq_some_iff] at accepted
  obtain ⟨⟨conversion, after⟩, letter, shape⟩ := accepted
  have sameRest : after = rest := congrArg Prod.snd shape
  have suffix :=
    (readLength_suffix _).trans <| (readPrecision_suffix _).trans <|
      (readWidth_suffix _).trans (readFlags_suffix text)
  have bounded := suffix.length_le
  unfold readConversion? at letter
  split at letter
  · cases letter
  · rename_i byte remaining textShape
    obtain ⟨_, _, pairShape⟩ := Option.map_eq_some_iff.mp letter
    have sameRemaining : remaining = after := congrArg Prod.snd pairShape
    rw [textShape, sameRemaining, sameRest] at bounded
    exact bounded

end Format

end LibcConformance
