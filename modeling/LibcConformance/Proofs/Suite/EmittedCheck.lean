import Mathlib.Data.List.Basic
import LibcConformance.Proofs.CText.LiteralReading
import LibcConformance.Proofs.Numeral
import LibcConformance.Proofs.Suite.FormatExpectation

namespace LibcConformance

/-!
# What the checks of a formatting test say

The block of a test is C text.  Its checks are read back here as conditions on
the count that a call answers and on the array `buf`, whose size stands for
`sizeof(buf)`.  Main fact: the conditions hold after the call of the test,
whatever the array held before, and hold only of the count and the string that
the test expects.
-/

namespace CText

/-- What follows a word at the front of a text. -/
def after?
    (word : String)
    (text : List Char) : Option (List Char) :=
  text.dropPrefix? word.toList

/-- Reads a decimal constant; with a zero in front of other digits it were octal. -/
def readDecimal?
    (text : List Char) : Option (Nat × List Char) :=
  let run := text.takeWhile Char.isDigit
  if run = [] ∨ run.head? = some '0' ∧ run ≠ ['0'] then
    none
  else
    some (Nat.ofDigitChars 10 run 0, text.dropWhile Char.isDigit)

/-- Reads a size: that of the array, or a constant. -/
def readSize?
    (arraySize : Nat)
    (text : List Char) : Option (Nat × List Char) :=
  match after? "sizeof(buf)" text with
  | some rest => some (arraySize, rest)
  | none => readDecimal? text

theorem after?_append
    (word : String)
    (rest : List Char) :
    after? word (word.toList ++ rest) = some rest :=
  List.dropPrefix?_append_of_beq rest (beq_self_eq_true word.toList)

theorem readDecimal?_append
    (value : Nat)
    {rest : List Char}
    (ends : Numeral.NoDigitFirst rest) :
    readDecimal? ((toString value).toList ++ rest) = some (value, rest) := by
  have spelled : (toString value).toList = Nat.toDigits 10 value := by
    rw [Nat.toString_eq_ofList_toDigits, String.toList_ofList]
  obtain ⟨taken, dropped⟩ := Numeral.span_decimal_append value ends
  have decimal :
      ¬ (Nat.toDigits 10 value = [] ∨
        (Nat.toDigits 10 value).head? = some '0' ∧
          Nat.toDigits 10 value ≠ ['0']) := by
    rintro (empty | ⟨zeroFirst, more⟩)
    · exact Nat.toDigits_ne_nil empty
    · rcases Nat.eq_zero_or_pos value with rfl | positive
      · exact more rfl
      · exact Numeral.head?_decimal_ne_zero positive zeroFirst
  simp only [readDecimal?, spelled, taken, dropped, if_neg decimal,
    Nat.ofDigitChars_ten_toDigits]

/-- A text without question marks has no trigraphs. -/
theorem replaceTrigraphs_eq_self
    {text : List Char}
    (noQuestionMark : '?' ∉ text) :
    replaceTrigraphs text = text := by
  have replaced :
      replaceTrigraphs (text ++ []) = text ++ replaceTrigraphs [] :=
    replaceTrigraphs_append_of_notMem noQuestionMark
  simpa [replaceTrigraphs] using replaced

/-- A literal in front of a text without question marks leaves that text. -/
theorem readLiteral?_stringLiteral_append
    (bytes : Bytes)
    {rest : List Char}
    (noQuestionMark : '?' ∉ rest) :
    readLiteral? '"' ((stringLiteral bytes).toList ++ rest) =
      some (bytes, rest) := by
  rw [readLiteral?_stringLiteral, replaceTrigraphs_eq_self noQuestionMark]

end CText

namespace Suite

namespace EmittedCheck

open CText

def readCount?
    (text : List Char) : Option (FormatCheck × List Char) := do
  let (count, rest) ← readDecimal? (← after? "len == " text)
  pure (.count count, rest)

def readContent?
    (text : List Char) : Option (FormatCheck × List Char) := do
  let (content, behind) ← readLiteral? '"' (← after? "strcmp(buf, " text)
  pure (.content content, ← after? ") == 0" behind)

def readLeading?
    (arraySize : Nat)
    (text : List Char) : Option (FormatCheck × List Char) := do
  let (content, behind) ← readLiteral? '"' (← after? "strncmp(buf, " text)
  let (bound, rest) ← readSize? arraySize (← after? ", " behind)
  pure (.leading content bound, ← after? " - 1) == 0" rest)

def readTerminator?
    (arraySize : Nat)
    (text : List Char) : Option (FormatCheck × List Char) := do
  let (bound, behind) ← readSize? arraySize (← after? "buf[" text)
  let (byte, rest) ← readLiteral? '\'' (← after? " - 1] == " behind)
  if byte = [0] then some (.terminator bound, rest) else none

/-- Reads a condition; which of the four it is shows in its first letters. -/
def readCondition?
    (arraySize : Nat)
    (text : List Char) : Option (FormatCheck × List Char) :=
  readCount? text <|> readContent? text <|> readLeading? arraySize text <|>
    readTerminator? arraySize text

/-- The line that checks a condition. -/
def checkLine
    (condition : String) : String :=
  "    " ++ s!"check({condition});"

/-- Reads a line that does nothing but check a condition. -/
def readLine?
    (arraySize : Nat)
    (line : String) : Option FormatCheck := do
  let (check, rest) ←
    readCondition? arraySize (← after? "    check(" line.toList)
  if rest = ");".toList then some check else none

/-- The size that a check counts from. -/
def bound? : FormatCheck → Option Nat
  | .count _ | .content _ => none
  | .leading _ bound | .terminator bound => some bound

/-- A text that is read as the bound of a check, if that has one. -/
def SpellsBound
    (arraySize : Nat)
    (boundText : String)
    (check : FormatCheck) : Prop :=
  ∀ bound,
    bound? check = some bound →
    '?' ∉ boundText.toList ∧
      ∀ rest,
        Numeral.NoDigitFirst rest →
        readSize? arraySize (boundText.toList ++ rest) = some (bound, rest)

variable
  {arraySize : Nat}
  {boundText : String}
  {rest : List Char}

theorem readCondition?_count
    (count : Nat)
    (ends : Numeral.NoDigitFirst rest) :
    readCondition? arraySize
        ((FormatCheck.condition boundText (.count count)).toList ++ rest) =
      some (.count count, rest) := by
  have shape :
      (FormatCheck.condition boundText (.count count)).toList ++ rest =
        "len == ".toList ++ ((toString count).toList ++ rest) := by
    unfold FormatCheck.condition
    simp [toString]
  rw [shape]
  simp only [readCondition?, readCount?, after?_append,
    readDecimal?_append count ends, Option.bind_eq_bind, Option.bind_some,
    Option.pure_def]
  rfl

theorem readCondition?_content
    (content : Bytes)
    (noQuestionMark : '?' ∉ rest) :
    readCondition? arraySize
        ((FormatCheck.condition boundText (.content content)).toList ++ rest) =
      some (.content content, rest) := by
  have shape :
      (FormatCheck.condition boundText (.content content)).toList ++ rest =
        "strcmp(buf, ".toList ++
          ((stringLiteral content).toList ++ (") == 0".toList ++ rest)) := by
    unfold FormatCheck.condition
    simp [toString]
  have behind : '?' ∉ ") == 0".toList ++ rest := by
    simpa using noQuestionMark
  rw [shape]
  simp only [readCondition?, readContent?, after?_append,
    readLiteral?_stringLiteral_append content behind, Option.bind_eq_bind,
    Option.bind_some, Option.pure_def]
  rfl

theorem readCondition?_leading
    {content : Bytes}
    {bound : Nat}
    (spells : SpellsBound arraySize boundText (.leading content bound))
    (noQuestionMark : '?' ∉ rest) :
    readCondition? arraySize
        ((FormatCheck.condition boundText (.leading content bound)).toList ++
          rest) =
      some (.leading content bound, rest) := by
  obtain ⟨plain, readsSize⟩ := spells bound rfl
  have shape :
      (FormatCheck.condition boundText (.leading content bound)).toList ++
          rest =
        "strncmp(buf, ".toList ++
          ((stringLiteral content).toList ++
            (", ".toList ++
              (boundText.toList ++ (" - 1) == 0".toList ++ rest)))) := by
    unfold FormatCheck.condition
    simp [toString]
  have behind :
      '?' ∉ ", ".toList ++
        (boundText.toList ++ (" - 1) == 0".toList ++ rest)) := by
    simp [plain, noQuestionMark]
  have size := readsSize (" - 1) == 0".toList ++ rest) (by simp [Numeral.NoDigitFirst])
  rw [shape]
  simp only [readCondition?, readLeading?, after?_append,
    readLiteral?_stringLiteral_append content behind, size,
    Option.bind_eq_bind, Option.bind_some, Option.pure_def]
  rfl

/-- The literal of the NUL byte is read as that byte. -/
theorem readLiteral?_nul
    (noQuestionMark : '?' ∉ rest) :
    readLiteral? '\'' ("'\\0'".toList ++ rest) = some ([0], rest) := by
  have plainText : '?' ∉ "'\\0'".toList ++ rest := by
    simpa using noQuestionMark
  have byte :
      readByte? ('\\' :: '0' :: '\'' :: rest) = some (0, '\'' :: rest) :=
    rfl
  rw [readLiteral?, replaceTrigraphs_eq_self plainText]
  change readBody? '\'' ('\\' :: '0' :: '\'' :: rest) = _
  rw [readBody?_of_readByte? (by decide) byte, readBody?_quote]
  rfl

theorem readCondition?_terminator
    {bound : Nat}
    (spells : SpellsBound arraySize boundText (.terminator bound))
    (noQuestionMark : '?' ∉ rest) :
    readCondition? arraySize
        ((FormatCheck.condition boundText (.terminator bound)).toList ++
          rest) =
      some (.terminator bound, rest) := by
  obtain ⟨plain, readsSize⟩ := spells bound rfl
  have shape :
      (FormatCheck.condition boundText (.terminator bound)).toList ++ rest =
        "buf[".toList ++
          (boundText.toList ++
            (" - 1] == ".toList ++ ("'\\0'".toList ++ rest))) := by
    unfold FormatCheck.condition
    simp [toString]
  have size :=
    readsSize (" - 1] == ".toList ++ ("'\\0'".toList ++ rest)) (by simp [Numeral.NoDigitFirst])
  rw [shape]
  simp only [readCondition?, readTerminator?, after?_append, size,
    readLiteral?_nul noQuestionMark, Option.bind_eq_bind, Option.bind_some]
  rfl

theorem toList_checkLine
    (condition : String) :
    (checkLine condition).toList =
      "    check(".toList ++ (condition.toList ++ ");".toList) := by
  simp [checkLine, toString]

theorem readLine?_checkLine
    {check : FormatCheck}
    (spells : SpellsBound arraySize boundText check) :
    readLine? arraySize (checkLine (check.condition boundText)) =
      some check := by
  have read :
      readCondition? arraySize
          ((check.condition boundText).toList ++ ");".toList) =
        some (check, ");".toList) := by
    cases check with
    | count count =>
        exact readCondition?_count count (by simp [Numeral.NoDigitFirst])
    | content content =>
        exact readCondition?_content content (by decide)
    | leading content bound =>
        exact readCondition?_leading spells (by decide)
    | terminator bound =>
        exact readCondition?_terminator spells (by decide)
  rw [readLine?, toList_checkLine, after?_append]
  simp only [Option.bind_eq_bind, Option.bind_some, read, if_true]

end EmittedCheck

end Suite

/-- The lines of a block that check something. -/
def Block.checkLines
    (block : Block) : List String :=
  block.lines.filter fun line =>
    (CText.after? "    check(" line.toList).isSome

/-- Every check of a block can be read, and holds of a count and an array. -/
def Block.Passes
    (block : Block)
    (count : Nat)
    (array : Bytes) : Prop :=
  ∀ line ∈ block.checkLines,
    ∃ check,
      Suite.EmittedCheck.readLine? array.length line = some check ∧
        check.holds count array = true

namespace Sink

/-- What the array of a test can hold; a test of the console has none. -/
def Declares
    (array : Bytes) : Sink → Prop
  | .console => True
  | .buffer capacity | .bounded capacity _ => array.length = capacity

/-- The array of a test has room for all that its call may write. -/
def HasRoom
    (output : Bytes) : Sink → Prop
  | .console => True
  | .buffer capacity => output.length < capacity
  | .bounded capacity bound => bound ≤ capacity

/-- The call of a test, made on an array. -/
def call
    (template : Bytes)
    (arguments : List Format.Argument)
    (array : Bytes) : Sink → Outcome (Except Format.FormatError Nat)
  | .console =>
      { answer := (Format.format template arguments).map List.length, array }
  | .buffer _ => Format.sprintf array template arguments
  | .bounded _ bound => Format.snprintf array bound template arguments

/-- A call does not change the size of its array. -/
theorem declares_call
    {sink : Sink}
    {array : Bytes}
    (declares : sink.Declares array)
    (template : Bytes)
    (arguments : List Format.Argument) :
    sink.Declares (sink.call template arguments array).array := by
  cases sink with
  | console =>
      trivial
  | buffer capacity =>
      exact (Format.length_sprintf array template arguments).trans declares
  | bounded capacity bound =>
      exact
        (Format.length_snprintf array bound template arguments).trans declares

end Sink

namespace Bytes

/-- A string ends no later than at a NUL of its array. -/
theorem length_cString_le_of_getElem?
    {bytes : Bytes}
    {place : Nat}
    (isNul : bytes[place]? = some 0) :
    bytes.cString.length ≤ place := by
  by_contra longer
  have inside : place < bytes.cString.length :=
    Nat.lt_of_not_le longer
  obtain ⟨rest, shape⟩ : bytes.cString <+: bytes :=
    List.takeWhile_prefix _
  have sameByte : bytes.cString[place]? = bytes[place]? := by
    conv_rhs => rw [← shape]
    rw [List.getElem?_append_left inside]
  rw [isNul] at sameByte
  exact zero_notMem_cString bytes (List.mem_of_getElem? sameByte)

end Bytes

namespace Suite

variable
  {routine : Routine}
  {case : FormatCase}
  {sink : Sink}
  {output array : Bytes}

theorem lines_foldl_check
    (condition : FormatCheck → String)
    (checks : List FormatCheck)
    (block : Block) :
    (checks.foldl (fun lines check => lines.check (condition check))
        block).lines =
      block.lines ++
        checks.map fun check => EmittedCheck.checkLine (condition check) := by
  induction checks generalizing block with
  | nil =>
      simp
  | cons check rest inductionHypothesis =>
      rw [List.foldl_cons, inductionHypothesis, List.map_cons,
        List.append_cons]
      rfl

/-- The title and the call of a test are the only lines that check nothing. -/
theorem checkLines_testOfOutput :
    (testOfOutput routine case sink output).block.checkLines =
      (formatChecks sink output).map fun check =>
        EmittedCheck.checkLine (check.condition (boundExpression sink)) := by
  have title :
      CText.after? "    check(" ("    " ++ s!"// Test {case.label}").toList =
        none := by
    simp [toString, CText.after?, List.dropPrefix?]
  have made :
      CText.after? "    check("
          ("    " ++ s!"len = {callExpression routine case sink};").toList =
        none := by
    simp [toString, CText.after?, List.dropPrefix?]
  have lines :
      (testOfOutput routine case sink output).block.lines =
        ["    " ++ s!"// Test {case.label}",
            "    " ++ s!"len = {callExpression routine case sink};"] ++
          (formatChecks sink output).map fun check =>
            EmittedCheck.checkLine (check.condition (boundExpression sink)) :=
    lines_foldl_check _ _ _
  rw [Block.checkLines, lines, List.filter_append, List.filter_cons, title,
    List.filter_cons, made]
  apply List.filter_eq_self.mpr
  intro line member
  obtain ⟨check, _, rfl⟩ := List.mem_map.mp member
  rw [EmittedCheck.toList_checkLine, CText.after?_append]
  rfl

/-- What is checked after a bounded call depends on whether its bound cuts the output. -/
theorem formatChecks_bounded_cases
    (capacity bound : Nat)
    (output : Bytes) :
    bound = 0 ∧
        formatChecks (.bounded capacity bound) output =
          [.count output.length] ∨
      0 < bound ∧ bound ≤ output.length ∧
        formatChecks (.bounded capacity bound) output =
          [.count output.length, .leading (output.take (bound - 1)) bound,
            .terminator bound] ∨
      output.length < bound ∧
        formatChecks (.bounded capacity bound) output =
          [.count output.length, .content output] := by
  rcases Nat.eq_zero_or_pos bound with rfl | positive
  · exact .inl ⟨rfl, rfl⟩
  · have notZero : bound ≠ 0 := Nat.ne_of_gt positive
    rcases Nat.lt_or_ge output.length bound with short | long
    · have whole : output.take (bound - 1) = output :=
        List.take_of_length_le (Nat.le_sub_one_of_lt short)
      simp [formatChecks, visibleContent, notZero, short,
        Nat.not_le_of_lt short, whole]
    · simp [formatChecks, visibleContent, notZero, positive, long]

/-- Only a bounded call has checks that count from a bound, and it is theirs. -/
theorem exists_bounded_of_bound?
    {check : FormatCheck}
    {bound : Nat}
    (member : check ∈ formatChecks sink output)
    (hasBound : EmittedCheck.bound? check = some bound) :
    ∃ capacity, sink = .bounded capacity bound := by
  cases sink with
  | console =>
      have isCount : check = .count output.length := by
        simpa [formatChecks, visibleContent] using member
      rw [isCount] at hasBound
      cases hasBound
  | buffer capacity =>
      have isPlain : check = .count output.length ∨ check = .content output := by
        simpa [formatChecks, visibleContent] using member
      rcases isPlain with rfl | rfl <;> cases hasBound
  | bounded capacity limit =>
      refine ⟨capacity, ?_⟩
      rcases formatChecks_bounded_cases capacity limit output with
        ⟨_, checks⟩ | ⟨_, _, checks⟩ | ⟨_, checks⟩
      all_goals
        rw [checks] at member
        simp only [List.mem_cons, List.not_mem_nil, or_false] at member
      · subst member
        cases hasBound
      · rcases member with rfl | rfl | rfl <;> cases hasBound <;> rfl
      · rcases member with rfl | rfl <;> cases hasBound

theorem isDigit_of_mem_toString
    {value : Nat}
    {character : Char}
    (member : character ∈ (toString value).toList) :
    character.isDigit = true := by
  rw [Nat.toString_eq_ofList_toDigits, String.toList_ofList] at member
  exact Nat.isDigit_of_mem_toDigits (by decide) (by decide) member

/-- A numeral is not the size of an array. -/
theorem after?_sizeof_toString
    (value : Nat)
    (rest : List Char) :
    CText.after? "sizeof(buf)" ((toString value).toList ++ rest) = none := by
  cases shape : (toString value).toList with
  | nil =>
      rw [Nat.toString_eq_ofList_toDigits, String.toList_ofList] at shape
      exact absurd shape Nat.toDigits_ne_nil
  | cons first behind =>
      have member : first ∈ (toString value).toList :=
        shape ▸ List.mem_cons_self
      have digit : first.isDigit = true :=
        isDigit_of_mem_toString member
      have notLetter : first ≠ 's' := by
        rintro rfl
        exact absurd digit (by decide)
      simp [CText.after?, List.dropPrefix?, notLetter]

/-- The bound in the text of a test is the one that its checks count from. -/
theorem spellsBound_of_mem_formatChecks
    (declares : sink.Declares array)
    {check : FormatCheck}
    (member : check ∈ formatChecks sink output) :
    EmittedCheck.SpellsBound array.length (boundExpression sink) check := by
  intro bound hasBound
  obtain ⟨capacity, rfl⟩ := exists_bounded_of_bound? member hasBound
  have arrayLength : array.length = capacity := declares
  rw [arrayLength, boundExpression]
  by_cases whole : bound = capacity
  · rw [if_pos whole]
    refine ⟨by decide, fun rest _ => ?_⟩
    rw [CText.readSize?, CText.after?_append, whole]
  · rw [if_neg whole]
    refine ⟨fun member => ?_, fun rest ends => ?_⟩
    · exact absurd (isDigit_of_mem_toString member) (by decide)
    · rw [CText.readSize?, after?_sizeof_toString]
      exact CText.readDecimal?_append bound ends

theorem passes_testOfOutput_iff
    (declares : sink.Declares array)
    (count : Nat) :
    (testOfOutput routine case sink output).block.Passes count array ↔
      ∀ check ∈ formatChecks sink output, check.holds count array = true := by
  rw [Block.Passes, checkLines_testOfOutput, List.forall_mem_map]
  apply forall₂_congr
  intro check member
  rw [EmittedCheck.readLine?_checkLine
    (spellsBound_of_mem_formatChecks declares member)]
  simp

theorem holds_content_iff
    (text : Bytes)
    (count : Nat) :
    FormatCheck.holds count array (.content text) = true ↔
      array.cString = text.cString := by
  rw [FormatCheck.holds, decide_eq_true_iff, CharArray.strcmp_eq_zero_iff,
    Bytes.cString_terminated]

theorem holds_leading_iff
    (text : Bytes)
    (count bound : Nat) :
    FormatCheck.holds count array (.leading text bound) = true ↔
      array.cString.take (bound - 1) = text.cString.take (bound - 1) := by
  rw [FormatCheck.holds, decide_eq_true_iff, CharArray.strncmp_eq_zero_iff,
    Bytes.cString_terminated]

theorem holds_count
    (output array : Bytes) :
    FormatCheck.holds output.length array (.count output.length) = true :=
  decide_eq_true rfl

theorem holds_content_append_nul
    (count : Nat)
    (text behind : Bytes) :
    FormatCheck.holds count (text ++ 0 :: behind) (.content text) = true :=
  (holds_content_iff _ _).mpr (Bytes.cString_append_nul _ _)

/-- An output that is cut at its bound passes the two checks that count from there. -/
theorem holds_cut
    (count : Nat)
    {bound : Nat}
    (long : bound ≤ output.length)
    (behind : Bytes) :
    let text := output.take (bound - 1)
    FormatCheck.holds count (text ++ 0 :: behind) (.leading text bound) =
        true ∧
      FormatCheck.holds count (text ++ 0 :: behind) (.terminator bound) =
        true := by
  intro text
  have textLength : text.length = bound - 1 := by
    rw [List.length_take]
    omega
  constructor
  · rw [holds_leading_iff, Bytes.cString_append_nul]
  · simp [FormatCheck.holds, textLength]

theorem holds_after_snprintf
    {template : Bytes}
    {arguments : List Format.Argument}
    (written : Format.format template arguments = .ok output)
    (capacity : Nat)
    {bound : Nat}
    (within : bound ≤ array.length) :
    let outcome := Format.snprintf array bound template arguments
    outcome.answer = .ok output.length ∧
      ∀ check ∈ formatChecks (.bounded capacity bound) output,
        check.holds output.length outcome.array = true := by
  intro outcome
  rcases formatChecks_bounded_cases capacity bound output with
    ⟨rfl, checks⟩ | ⟨positive, long, checks⟩ | ⟨short, checks⟩
  · have after : outcome = _ := Format.snprintf_zero written array
    rw [after, checks]
    exact ⟨rfl, by simpa using holds_count _ _⟩
  · have after : outcome = _ := Format.snprintf_of_pos within positive written
    obtain ⟨leading, terminator⟩ := holds_cut output.length long _
    rw [after, checks]
    refine ⟨rfl, ?_⟩
    simpa using ⟨holds_count _ _, leading, terminator⟩
  · have after : outcome = _ :=
      (Format.snprintf_eq_sprintf written short within).trans
        (Format.sprintf_of_lt_length written (short.trans_le within))
    rw [after, checks]
    refine ⟨rfl, ?_⟩
    simpa using ⟨holds_count _ _, holds_content_append_nul _ _ _⟩

/-- The call of a test succeeds if its array has room, and all its checks hold then. -/
theorem holds_after_call
    (written : case.written = .ok output)
    (room : sink.HasRoom output)
    (declares : sink.Declares array) :
    let outcome :=
      sink.call (Bytes.ofText case.template)
        (case.arguments.map CallArgument.value) array
    outcome.answer = .ok output.length ∧
      ∀ check ∈ formatChecks sink output,
        check.holds output.length outcome.array = true := by
  intro outcome
  rw [FormatCase.written] at written
  cases sink with
  | console =>
      have answered : outcome.answer = .ok output.length := by
        simp only [outcome, Sink.call, written, Except.map]
      refine ⟨answered, ?_⟩
      simpa [formatChecks, visibleContent] using holds_count _ outcome.array
  | buffer capacity =>
      have fits : output.length < array.length :=
        room.trans_eq (Eq.symm declares)
      have after : outcome = _ := Format.sprintf_of_lt_length written fits
      rw [after]
      refine ⟨rfl, ?_⟩
      simpa [formatChecks, visibleContent] using
        ⟨holds_count _ _, holds_content_append_nul _ _ _⟩
  | bounded capacity bound =>
      have within : bound ≤ array.length :=
        room.trans_eq (Eq.symm declares)
      exact holds_after_snprintf written capacity within

theorem cString_eq_of_holds_content
    {count : Nat}
    {text : Bytes}
    (noNul : 0 ∉ text)
    (content : FormatCheck.holds count array (.content text) = true) :
    array.cString = text := by
  rwa [holds_content_iff, Bytes.cString_eq_self noNul] at content

/-- The two checks that count from a bound leave no string but the one that is cut there. -/
theorem cString_eq_of_holds_cut
    {count bound : Nat}
    {text : Bytes}
    (noNul : 0 ∉ text)
    (textLength : text.length = bound - 1)
    (leading : FormatCheck.holds count array (.leading text bound) = true)
    (terminator : FormatCheck.holds count array (.terminator bound) = true) :
    array.cString = text := by
  rw [holds_leading_iff, Bytes.cString_eq_self noNul,
    List.take_of_length_le (Nat.le_of_eq textLength)] at leading
  have ended : array.cString.length ≤ bound - 1 :=
    Bytes.length_cString_le_of_getElem? (by
      simpa [FormatCheck.holds] using terminator)
  rwa [List.take_of_length_le ended] at leading

/-- The checks of a test leave no other count, and no other string without a NUL. -/
theorem eq_of_holds
    {count : Nat}
    (holds :
      ∀ check ∈ formatChecks sink output, check.holds count array = true) :
    count = output.length ∧
      ∀ text,
        visibleContent sink output = some text →
        0 ∉ text →
        array.cString = text := by
  have counted : count = output.length := by
    have first := holds (.count output.length) (by simp [formatChecks])
    simpa [FormatCheck.holds] using first
  refine ⟨counted, fun text visible noNul => ?_⟩
  cases sink with
  | console =>
      cases visible
  | buffer capacity =>
      cases visible
      exact
        cString_eq_of_holds_content noNul
          (holds (.content output) (by simp [formatChecks, visibleContent]))
  | bounded capacity bound =>
      rcases formatChecks_bounded_cases capacity bound output with
        ⟨rfl, checks⟩ | ⟨positive, long, checks⟩ | ⟨short, checks⟩
      · cases visible
      · have isText : output.take (bound - 1) = text := by
          simpa [visibleContent, Nat.ne_of_gt positive] using visible
        have textLength : text.length = bound - 1 := by
          rw [← isText, List.length_take]
          omega
        rw [isText] at checks
        exact
          cString_eq_of_holds_cut noNul textLength
            (holds (.leading text bound) (by simp [checks]))
            (holds (.terminator bound) (by simp [checks]))
      · have isText : output = text := by
          have whole : output.take (bound - 1) = output :=
            List.take_of_length_le (Nat.le_sub_one_of_lt short)
          simpa [visibleContent, Nat.ne_of_gt (Nat.zero_lt_of_lt short), whole]
            using visible
        subst isText
        exact
          cString_eq_of_holds_content noNul
            (holds (.content output) (by simp [checks]))

/--
Every check in the text of a formatting test can be read.  All of them hold
after its call, made on an array with any contents, if that array has room.
In turn they hold of no other count than the expected one, and of no array with
another string than the expected one, unless a NUL cuts what is expected.
-/
theorem emittedChecks_exact
    (program : Program)
    (case : FormatCase)
    (sink : Sink)
    (output : Bytes)
    (written : case.written = .ok output)
    (room : sink.HasRoom output) :
    ∃ test,
      addFormatTest program case sink =
          (.ok (), { program with tests := program.tests ++ [test] }) ∧
        test.case.expectation =
          .formatted output.length (visibleContent sink output) ∧
        (∀ array,
          sink.Declares array →
          let outcome :=
            sink.call (Bytes.ofText case.template)
              (case.arguments.map CallArgument.value) array
          ∃ count,
            outcome.answer = .ok count ∧
              test.block.Passes count outcome.array) ∧
        ∀ count array,
          sink.Declares array →
          test.block.Passes count array →
          count = output.length ∧
            ∀ text,
              visibleContent sink output = some text →
              0 ∉ text →
              array.cString = text := by
  refine
    ⟨testOfOutput program.routine case sink output,
      addFormatTest_of_ok program sink written, rfl, ?_, ?_⟩
  · intro array declares outcome
    obtain ⟨answered, holds⟩ := holds_after_call written room declares
    have declaresAfter : sink.Declares outcome.array :=
      Sink.declares_call declares _ _
    exact
      ⟨output.length, answered,
        (passes_testOfOutput_iff declaresAfter _).mpr holds⟩
  · intro count array declares passes
    exact eq_of_holds ((passes_testOfOutput_iff declares count).mp passes)

/--
Of three bytes a bound of three keeps two: the checks pass after the call, and
neither with the kept count nor with a string that ends earlier.
-/
theorem emittedChecks_cutOutput :
    let program : Program :=
      { routine := .snprintf, helpers := [], prologue := .empty, tests := [] }
    let case : FormatCase := ⟨"cut", "%s?", [.text "ab"]⟩
    let sink : Sink := .bounded 3 3
    case.written = .ok (Bytes.ofText "ab?") ∧
      sink.HasRoom (Bytes.ofText "ab?") ∧
      ∃ test,
        addFormatTest program case sink =
            (.ok (), { program with tests := [test] }) ∧
          test.block.Passes 3 [97, 98, 0] ∧
          ¬ test.block.Passes 2 [97, 98, 0] ∧
          ¬ test.block.Passes 3 [97, 0, 0] := by
  intro program case sink
  have written : case.written = .ok (Bytes.ofText "ab?") := by
    cbv
  have room : sink.HasRoom (Bytes.ofText "ab?") := by
    change 3 ≤ 3
    decide
  obtain ⟨test, added, -, after, exactly⟩ :=
    emittedChecks_exact program case sink _ written room
  have left :
      (sink.call (Bytes.ofText case.template)
          (case.arguments.map CallArgument.value) [1, 2, 3]).array =
        [97, 98, 0] := by
    cbv
  obtain ⟨count, -, passes⟩ := after [1, 2, 3] rfl
  rw [left] at passes
  obtain ⟨rfl, -⟩ := exactly count [97, 98, 0] rfl passes
  refine ⟨written, room, test, added, passes, ?_, ?_⟩
  · intro kept
    exact absurd (exactly 2 [97, 98, 0] rfl kept).1 (by decide)
  · intro early
    have content :=
      (exactly 3 [97, 0, 0] rfl early).2 (Bytes.ofText "ab") rfl (by decide)
    exact absurd content (by decide)

end Suite

end LibcConformance
