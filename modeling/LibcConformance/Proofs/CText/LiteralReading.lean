import Mathlib
import LibcConformance.CText.Literal

namespace LibcConformance

/-!
# How C reads literals

C first replaces trigraphs, wherever they stand.  Then a literal is read
between its quotes: a backslash starts a simple escape or an octal one, which
takes in as many digits as there are, but no more than three, and any other
character stands for itself.  Main fact: what is written for some bytes is read
as those bytes, and ends where its closing quote stands.
-/

namespace CText

/-- The character of a trigraph, by what stands behind its two question marks. -/
def trigraph? : Char → Option Char
  | '=' => some '#'
  | '(' => some '['
  | '/' => some '\\'
  | ')' => some ']'
  | '\'' => some '^'
  | '<' => some '\x7b'
  | '!' => some '|'
  | '>' => some '\x7d'
  | '-' => some '~'
  | _ => none

/-- A text with its trigraphs replaced from left to right. -/
def replaceTrigraphs : List Char → List Char
  | [] => []
  | '?' :: '?' :: third :: rest =>
      match trigraph? third with
      | some replaced => replaced :: replaceTrigraphs rest
      | none => '?' :: replaceTrigraphs ('?' :: third :: rest)
  | first :: rest => first :: replaceTrigraphs rest
termination_by text => text.length

/-- The byte of a simple escape, by the character behind its backslash. -/
def simpleEscape? : Char → Option UInt8
  | '\'' => some 0x27
  | '"' => some 0x22
  | '?' => some 0x3f
  | '\\' => some 0x5c
  | 'a' => some 0x07
  | 'b' => some 0x08
  | 'f' => some 0x0c
  | 'n' => some 0x0a
  | 'r' => some 0x0d
  | 't' => some 0x09
  | 'v' => some 0x0b
  | _ => none

def isOctalDigit (character : Char) : Bool :=
  '0' ≤ character && character ≤ '7'

/-- The number of a run of octal digits. -/
def octalValue (run : List Char) : Nat :=
  run.foldl (fun value digit => value * 8 + (digit.toNat - '0'.toNat)) 0

/-- Reads an octal escape, with at most three digits and a value that is a byte. -/
def readOctal? (text : List Char) : Option (UInt8 × List Char) :=
  let run := (text.take 3).takeWhile isOctalDigit
  if run = [] ∨ 255 < octalValue run then
    none
  else
    some (UInt8.ofNat (octalValue run), text.drop run.length)

/-- Reads what stands behind a backslash. -/
def readEscape? : List Char → Option (UInt8 × List Char)
  | [] => none
  | character :: rest =>
      match simpleEscape? character with
      | some byte => some (byte, rest)
      | none => readOctal? (character :: rest)

/-- Reads one byte of a literal; a line break or a character beyond ASCII is none. -/
def readByte? : List Char → Option (UInt8 × List Char)
  | [] => none
  | character :: rest =>
      if character = '\\' then
        readEscape? rest
      else if character = '\n' ∨ 0x7f < character.toNat then
        none
      else
        some (ascii character, rest)

theorem length_readOctal?
    {text rest : List Char}
    {byte : UInt8}
    (accepted : readOctal? text = some (byte, rest)) :
    rest.length ≤ text.length := by
  unfold readOctal? at accepted
  dsimp only at accepted
  split at accepted
  · cases accepted
  · cases accepted
    rw [List.length_drop]
    exact Nat.sub_le _ _

/-- A byte that is read leaves a shorter text. -/
theorem length_readByte?
    {text rest : List Char}
    {byte : UInt8}
    (accepted : readByte? text = some (byte, rest)) :
    rest.length < text.length := by
  cases text with
  | nil => cases accepted
  | cons character after =>
      simp only [readByte?] at accepted
      split_ifs at accepted with escape stray
      · cases after with
        | nil => cases accepted
        | cons escaped behind =>
            simp only [readEscape?] at accepted
            split at accepted
            · cases accepted
              exact Nat.lt_succ_of_lt (Nat.lt_succ_self _)
            · exact Nat.lt_succ_of_le (length_readOctal? accepted)
      · cases accepted
        simp

/-- Reads bytes up to the closing quote, and answers them with the text behind it. -/
def readBody? (quote : Char) (text : List Char) :
    Option (Bytes × List Char) :=
  match text with
  | [] => none
  | character :: rest =>
      if character = quote then
        some ([], rest)
      else
        match _ : readByte? (character :: rest) with
        | none => none
        | some (byte, after) =>
            (readBody? quote after).map fun (bytes, behind) =>
              (byte :: bytes, behind)
termination_by text.length
decreasing_by exact length_readByte? ‹_›

/-- Reads a literal between the given quotes from a text as it stands in a file. -/
def readLiteral? (quote : Char) (text : List Char) :
    Option (Bytes × List Char) :=
  match replaceTrigraphs text with
  | [] => none
  | first :: rest => if first = quote then readBody? quote rest else none

/-- A printable character of ASCII. -/
def IsPrintable (character : Char) : Prop :=
  0x20 ≤ character.toNat ∧ character.toNat ≤ 0x7e

instance :
    DecidablePred IsPrintable :=
  fun character =>
    inferInstanceAs
      (Decidable (0x20 ≤ character.toNat ∧ character.toNat ≤ 0x7e))

/-- Every backslash escapes what follows it, and no quote stands unescaped. -/
inductive WellQuoted (quote : Char) : List Char → Prop where
  | nil :
      WellQuoted quote []
  | plain
      {character : Char}
      {rest : List Char} :
      character ≠ quote →
      character ≠ '\\' →
      WellQuoted quote rest →
      WellQuoted quote (character :: rest)
  | escape
      {character : Char}
      {rest : List Char} :
      WellQuoted quote rest →
      WellQuoted quote ('\\' :: character :: rest)

/-- A character that may stand between the given quotes for itself. -/
structure StandsForItself (quote character : Char) : Prop where
  printable : IsPrintable character
  notQuote : character ≠ quote
  notBackslash : character ≠ '\\'
  notQuestionMark : character ≠ '?'

/-- The three ways in which a byte is written. -/
inductive Spells (quote : Char) (byte : UInt8) : List Char → Prop where
  | raw
      {character : Char} :
      StandsForItself quote character →
      ascii character = byte →
      Spells quote byte [character]
  | simple
      {character : Char} :
      IsPrintable character →
      simpleEscape? character = some byte →
      Spells quote byte ['\\', character]
  | octal :
      Spells quote byte ('\\' :: octalDigits byte)

theorem toNat_byteCharacter
    (byte : UInt8) :
    (byteCharacter byte).toNat = byte.toNat := by
  simp [byteCharacter, Char.ofUInt8, Char.toNat]

theorem ascii_byteCharacter
    (byte : UInt8) :
    ascii (byteCharacter byte) = byte := by
  apply UInt8.toNat_inj.mp
  rw [ascii, Char.toUInt8]
  simp [byteCharacter, Char.ofUInt8]

/-- What the readers find in a digit. -/
structure ReadsAsDigit (digit : Nat) (character : Char) : Prop where
  octal : isOctalDigit character = true
  value : character.toNat - '0'.toNat = digit
  notSimple : simpleEscape? character = none
  printable : IsPrintable character
  ordinary : character ∉ ['\'', '"', '\\', '?']

theorem readsAsDigit_digitChar
    {digit : Nat}
    (small : digit < 8) :
    ReadsAsDigit digit (Nat.digitChar digit) := by
  interval_cases digit <;>
    exact ⟨by decide, by decide, by decide, by decide, by decide⟩

theorem readsAsDigit_octalDigits
    (byte : UInt8) :
    ReadsAsDigit (byte.toNat / 64) (Nat.digitChar (byte.toNat / 64)) ∧
      ReadsAsDigit (byte.toNat / 8 % 8)
        (Nat.digitChar (byte.toNat / 8 % 8)) ∧
      ReadsAsDigit (byte.toNat % 8) (Nat.digitChar (byte.toNat % 8)) := by
  have bound :=
    byte.toNat_lt
  exact ⟨readsAsDigit_digitChar (by omega), readsAsDigit_digitChar (by omega),
    readsAsDigit_digitChar (by omega)⟩

theorem octalValue_octalDigits
    (byte : UInt8) :
    octalValue (octalDigits byte) = byte.toNat := by
  obtain ⟨high, middle, low⟩ := readsAsDigit_octalDigits byte
  simp only [octalValue, octalDigits, List.foldl_cons, List.foldl_nil,
    high.value, middle.value, low.value]
  omega

theorem isOctalDigit_of_mem_octalDigits
    (byte : UInt8) :
    ∀ digit ∈ octalDigits byte, isOctalDigit digit = true := by
  obtain ⟨high, middle, low⟩ := readsAsDigit_octalDigits byte
  simpa [octalDigits] using ⟨high.octal, middle.octal, low.octal⟩

/-- Three digits are as many as an escape takes in, so one behind them is left. -/
theorem readOctal?_octalDigits
    (byte : UInt8)
    (rest : List Char) :
    readOctal? (octalDigits byte ++ rest) = some (byte, rest) := by
  have run :
      ((octalDigits byte ++ rest).take 3).takeWhile isOctalDigit =
        octalDigits byte := by
    rw [List.take_left' (by rfl)]
    exact List.takeWhile_eq_self_iff.mpr
      (isOctalDigit_of_mem_octalDigits byte)
  have bound :=
    byte.toNat_lt
  have valid :
      ¬ (octalDigits byte = [] ∨ 255 < byte.toNat) := by
    rintro (empty | large)
    · cases empty
    · omega
  simp only [readOctal?, run, octalValue_octalDigits]
  rw [if_neg valid, List.drop_left, UInt8.ofNat_toNat]

theorem spells_escaped
    {quote : Char}
    (isQuote : quote = '"' ∨ quote = '\'')
    (byte : UInt8) :
    Spells quote byte (escaped quote byte) := by
  unfold escaped
  split_ifs with backslash lineFeed tab carriageReturn questionMark quoted
    printable
  · subst backslash
    exact .simple (by decide) rfl
  · subst lineFeed
    exact .simple (by decide) rfl
  · subst tab
    exact .simple (by decide) rfl
  · subst carriageReturn
    exact .simple (by decide) rfl
  · subst questionMark
    exact .simple (by decide) rfl
  · subst quoted
    rcases isQuote with rfl | rfl
    · exact .simple (by decide) rfl
    · exact .simple (by decide) rfl
  · have same :=
      ascii_byteCharacter byte
    have other
        {character : Char}
        (different : byte ≠ ascii character) :
        byteCharacter byte ≠ character := by
      rintro rfl
      exact different same.symm
    refine .raw ⟨?_, other quoted, other backslash, other questionMark⟩ same
    rw [IsPrintable, toNat_byteCharacter]
    exact ⟨UInt8.le_iff_toNat_le.mp printable.1,
      UInt8.le_iff_toNat_le.mp printable.2⟩
  · exact .octal

namespace Spells

variable {quote : Char} {byte : UInt8} {unit : List Char}

/-- What is written for a byte starts neither with the quote nor with a question mark. -/
theorem starts
    (spells : Spells quote byte unit)
    (isQuote : quote = '"' ∨ quote = '\'') :
    ∃ first tail,
      unit = first :: tail ∧ first ≠ quote ∧ first ≠ '?' := by
  have backslash :
      '\\' ≠ quote := by
    rcases isQuote with rfl | rfl <;> decide
  cases spells with
  | raw itself same =>
      exact ⟨_, _, rfl, itself.notQuote, itself.notQuestionMark⟩
  | simple printable accepted =>
      exact ⟨_, _, rfl, backslash, by decide⟩
  | octal =>
      exact ⟨_, _, rfl, backslash, by decide⟩

theorem printable
    (spells : Spells quote byte unit) :
    ∀ character ∈ unit, IsPrintable character := by
  have backslash :
      IsPrintable '\\' := by
    decide
  cases spells with
  | raw itself same =>
      simpa using itself.printable
  | simple printable accepted =>
      simpa using ⟨backslash, printable⟩
  | octal =>
      obtain ⟨high, middle, low⟩ := readsAsDigit_octalDigits byte
      simpa [octalDigits] using
        ⟨backslash, high.printable, middle.printable, low.printable⟩

/-- Behind what is written for one byte, quoting goes on as it stood. -/
theorem wellQuoted
    {rest : List Char}
    (spells : Spells quote byte unit)
    (isQuote : quote = '"' ∨ quote = '\'')
    (quoted : WellQuoted quote rest) :
    WellQuoted quote (unit ++ rest) := by
  cases spells with
  | raw itself same =>
      exact .plain itself.notQuote itself.notBackslash quoted
  | simple printable accepted =>
      exact .escape quoted
  | octal =>
      obtain ⟨-, middle, low⟩ := readsAsDigit_octalDigits byte
      have plain
          {character : Char}
          (ordinary : character ∉ ['\'', '"', '\\', '?']) :
          character ≠ quote ∧ character ≠ '\\' := by
        rcases isQuote with rfl | rfl <;> simp_all
      obtain ⟨middleNotQuote, middleNotBackslash⟩ := plain middle.ordinary
      obtain ⟨lowNotQuote, lowNotBackslash⟩ := plain low.ordinary
      exact .escape
        (.plain middleNotQuote middleNotBackslash
          (.plain lowNotQuote lowNotBackslash quoted))

/-- What is written for a byte is read as that byte, whatever stands behind it. -/
theorem readByte?_append
    (spells : Spells quote byte unit)
    (rest : List Char) :
    readByte? (unit ++ rest) = some (byte, rest) := by
  cases spells with
  | @raw character itself same =>
      have legal :
          ¬ (character = '\n' ∨ 0x7f < character.toNat) := by
        rintro (rfl | large)
        · exact absurd itself.printable.1 (by decide)
        · have bound :=
            itself.printable.2
          omega
      rw [List.singleton_append, readByte?, if_neg itself.notBackslash,
        if_neg legal, same]
  | simple printable accepted =>
      simp [readByte?, readEscape?, accepted]
  | octal =>
      obtain ⟨high, -⟩ := readsAsDigit_octalDigits byte
      have read :=
        readOctal?_octalDigits byte rest
      simp only [octalDigits, List.cons_append, List.nil_append] at read
      simp [readByte?, readEscape?, octalDigits, high.notSimple, read]

end Spells

/-- No two question marks stand next to each other. -/
def QuestionMarksApart (text : List Char) : Prop :=
  text.IsChain fun first second => ¬ (first = '?' ∧ second = '?')

namespace QuestionMarksApart

theorem of_spells
    {quote : Char}
    {byte : UInt8}
    {unit : List Char}
    (spells : Spells quote byte unit) :
    QuestionMarksApart unit := by
  cases spells with
  | raw itself same =>
      exact List.isChain_singleton _
  | simple printable accepted =>
      simp [QuestionMarksApart]
  | octal =>
      obtain ⟨high, middle, -⟩ := readsAsDigit_octalDigits byte
      have highOrdinary :=
        high.ordinary
      have middleOrdinary :=
        middle.ordinary
      simp_all [QuestionMarksApart, octalDigits]

theorem append
    {front back : List Char}
    (frontApart : QuestionMarksApart front)
    (backApart : QuestionMarksApart back)
    (starts : back.head? ≠ some '?') :
    QuestionMarksApart (front ++ back) := by
  refine List.isChain_append.mpr ⟨frontApart, backApart, ?_⟩
  rintro last - first isFirst ⟨-, rfl⟩
  exact starts isFirst

theorem noPairInside
    {text : List Char}
    (apart : QuestionMarksApart text) :
    ¬ ['?', '?'] <:+: text := by
  intro inside
  have pair :
      QuestionMarksApart ['?', '?'] :=
    List.IsChain.infix apart inside
  simp [QuestionMarksApart] at pair

end QuestionMarksApart

/-- A character that no second question mark follows is no part of a trigraph. -/
theorem replaceTrigraphs_cons
    {character : Char}
    {rest : List Char}
    (apart : character ≠ '?' ∨ rest.head? ≠ some '?') :
    replaceTrigraphs (character :: rest) =
      character :: replaceTrigraphs rest := by
  rw [replaceTrigraphs]
  rintro third behind rfl rfl
  simp at apart

/-- Behind a text without question marks, trigraphs are replaced as they were. -/
theorem replaceTrigraphs_append_of_notMem
    {front rest : List Char}
    (noQuestionMark : '?' ∉ front) :
    replaceTrigraphs (front ++ rest) = front ++ replaceTrigraphs rest := by
  induction front with
  | nil =>
      rfl
  | cons first later inductionHypothesis =>
      rw [List.mem_cons, not_or] at noQuestionMark
      rw [List.cons_append,
        replaceTrigraphs_cons (.inl (Ne.symm noQuestionMark.1)),
        inductionHypothesis noQuestionMark.2, List.cons_append]

/-- Trigraph replacement leaves alone a text whose question marks stand apart. -/
theorem replaceTrigraphs_append
    {front rest : List Char}
    {last : Char}
    (apart : QuestionMarksApart (front ++ [last]))
    (ends : last ≠ '?') :
    replaceTrigraphs (front ++ last :: rest) =
      front ++ last :: replaceTrigraphs rest := by
  induction front with
  | nil =>
      exact replaceTrigraphs_cons (.inl ends)
  | cons first middle inductionHypothesis =>
      have next :
          first ≠ '?' ∨ (middle ++ last :: rest).head? ≠ some '?' := by
        cases middle with
        | nil =>
            exact .inr (by simpa using ends)
        | cons second behind =>
            have pair :=
              List.isChain_cons_cons.mp apart |>.1
            simp only [List.cons_append, List.head?_cons, ne_eq,
              Option.some.injEq]
            exact Classical.not_and_iff_not_or_not.mp pair
      rw [List.cons_append, replaceTrigraphs_cons next,
        inductionHypothesis (List.IsChain.tail apart), List.cons_append]

theorem readBody?_quote
    (quote : Char)
    (rest : List Char) :
    readBody? quote (quote :: rest) = some ([], rest) := by
  rw [readBody?, if_pos rfl]

theorem readBody?_of_readByte?
    {quote character : Char}
    {text rest : List Char}
    {byte : UInt8}
    (notQuote : character ≠ quote)
    (accepted : readByte? (character :: text) = some (byte, rest)) :
    readBody? quote (character :: text) =
      (readBody? quote rest).map fun (bytes, behind) =>
        (byte :: bytes, behind) := by
  rw [readBody?, if_neg notQuote]
  split
  · rename_i refused
    rw [accepted] at refused
    cases refused
  · rename_i read
    rw [accepted] at read
    cases read
    rfl

/-- The invariants of a text between quotes that spells some bytes. -/
structure BodySpells (quote : Char) (bytes : Bytes) (body : List Char) : Prop where
  printable : ∀ character ∈ body, IsPrintable character
  wellQuoted : WellQuoted quote body
  apart : QuestionMarksApart body
  starts : body.head? ≠ some '?'
  read :
    ∀ rest, readBody? quote (body ++ quote :: rest) = some (bytes, rest)

namespace BodySpells

variable {quote : Char}

theorem nil
    (quote : Char) :
    BodySpells quote [] [] where
  printable := by
    simp
  wellQuoted :=
    .nil
  apart :=
    List.isChain_nil
  starts := by
    simp
  read rest :=
    readBody?_quote quote rest

/-- A byte in front of others is written in front of them and read before them. -/
theorem cons
    {byte : UInt8}
    {bytes : Bytes}
    {unit body : List Char}
    (spells : Spells quote byte unit)
    (isQuote : quote = '"' ∨ quote = '\'')
    (behind : BodySpells quote bytes body) :
    BodySpells quote (byte :: bytes) (unit ++ body) := by
  obtain ⟨first, tail, shape, notQuote, notQuestionMark⟩ :=
    spells.starts isQuote
  refine ⟨?_, spells.wellQuoted isQuote behind.wellQuoted,
    (QuestionMarksApart.of_spells spells).append behind.apart behind.starts,
    ?_, ?_⟩
  · intro character member
    rcases List.mem_append.mp member with inUnit | inBody
    · exact spells.printable character inUnit
    · exact behind.printable character inBody
  · rw [shape]
    simpa using notQuestionMark
  · intro rest
    have read :=
      spells.readByte?_append (body ++ quote :: rest)
    rw [shape, List.cons_append] at read
    rw [shape, List.append_assoc, List.cons_append,
      readBody?_of_readByte? notQuote read, behind.read]
    rfl

theorem flatMap_escaped
    (isQuote : quote = '"' ∨ quote = '\'')
    (bytes : Bytes) :
    BodySpells quote bytes (bytes.flatMap (escaped quote)) := by
  induction bytes with
  | nil =>
      exact nil quote
  | cons byte rest inductionHypothesis =>
      exact cons (spells_escaped isQuote byte) isQuote inductionHypothesis

variable {bytes : Bytes} {body : List Char}

theorem apart_quoted
    (spells : BodySpells quote bytes body)
    (notQuestionMark : quote ≠ '?') :
    QuestionMarksApart (quote :: body ++ [quote]) := by
  have opened :
      QuestionMarksApart ([quote] ++ body) :=
    QuestionMarksApart.append (List.isChain_singleton _) spells.apart
      spells.starts
  exact opened.append (List.isChain_singleton _) (by simpa using notQuestionMark)

/-- A literal is read as the bytes it spells, up to its closing quote. -/
theorem readLiteral?_append
    (spells : BodySpells quote bytes body)
    (notQuestionMark : quote ≠ '?')
    (rest : List Char) :
    readLiteral? quote (quote :: body ++ [quote] ++ rest) =
      some (bytes, replaceTrigraphs rest) := by
  have replaced :
      replaceTrigraphs (quote :: body ++ [quote] ++ rest) =
        quote :: body ++ quote :: replaceTrigraphs rest := by
    rw [List.append_assoc, List.singleton_append]
    exact replaceTrigraphs_append (spells.apart_quoted notQuestionMark)
      notQuestionMark
  rw [readLiteral?, replaced]
  simp only [List.cons_append, spells.read, if_true]

end BodySpells

theorem readLiteral?_stringLiteral
    (bytes : Bytes)
    (rest : List Char) :
    readLiteral? '"' ((stringLiteral bytes).toList ++ rest) =
      some (bytes, replaceTrigraphs rest) := by
  rw [stringLiteral, String.toList_ofList]
  exact (BodySpells.flatMap_escaped (.inl rfl) bytes).readLiteral?_append
    (by decide) rest

theorem readLiteral?_characterLiteral
    (byte : UInt8)
    (rest : List Char) :
    readLiteral? '\'' ((characterLiteral byte).toList ++ rest) =
      some ([byte], replaceTrigraphs rest) := by
  rw [characterLiteral, String.toList_ofList]
  have spells :=
    BodySpells.cons (spells_escaped (.inr rfl) byte) (.inr rfl) (.nil '\'')
  rw [List.append_nil] at spells
  exact spells.readLiteral?_append (by decide) rest

theorem stringLiteral_injective :
    Function.Injective stringLiteral := by
  intro bytes other same
  have read :=
    readLiteral?_stringLiteral bytes []
  rw [same, readLiteral?_stringLiteral other []] at read
  cases read
  rfl

/--
C reads a string literal back as the bytes it was written for, whatever stands
behind it.  The literal is printable ASCII between its quotes, with none of
them unescaped inside and no two question marks in a row.  Literals of bytes
that follow each other have bodies that do, and different bytes have different
literals.  A character constant is read back as its byte.
-/
theorem literals_readBack
    (bytes more : Bytes)
    (byte : UInt8)
    (rest : List Char) :
    (stringLiteral bytes).toList = '"' :: stringBody bytes ++ ['"'] ∧
      (∀ character ∈ (stringLiteral bytes).toList, IsPrintable character) ∧
      WellQuoted '"' (stringBody bytes) ∧
      ¬ ['?', '?'] <:+: (stringLiteral bytes).toList ∧
      readLiteral? '"' ((stringLiteral bytes).toList ++ rest) =
        some (bytes, replaceTrigraphs rest) ∧
      stringBody (bytes ++ more) = stringBody bytes ++ stringBody more ∧
      Function.Injective stringLiteral ∧
      readLiteral? '\'' ((characterLiteral byte).toList ++ rest) =
        some ([byte], replaceTrigraphs rest) := by
  have body :
      BodySpells '"' bytes (stringBody bytes) :=
    .flatMap_escaped (.inl rfl) bytes
  have text :
      (stringLiteral bytes).toList = '"' :: stringBody bytes ++ ['"'] :=
    String.toList_ofList
  have quote :
      IsPrintable '"' := by
    decide
  refine ⟨text, ?_, body.wellQuoted, ?_, readLiteral?_stringLiteral bytes rest,
    stringBody_append bytes more, stringLiteral_injective,
    readLiteral?_characterLiteral byte rest⟩
  · intro character member
    rw [text, List.cons_append, List.mem_cons, List.mem_append,
      List.mem_singleton] at member
    rcases member with rfl | inside | rfl
    · exact quote
    · exact body.printable character inside
    · exact quote
  · rw [text]
    exact (body.apart_quoted (by decide)).noPairInside

example :
    readLiteral? '"'
        (stringLiteral [0x00, 0x31, 0x3f, 0x3f, 0x2f]).toList =
      some ([0x00, 0x31, 0x3f, 0x3f, 0x2f], []) := by
  cbv

end CText

end LibcConformance
