import LibcConformance.Proofs.Seed.DigitText
import LibcConformance.Proofs.Text.Trimming
import LibcConformance.Seed.Numeral

namespace LibcConformance

/-!
# Texts of seeds

Which texts are seeds is settled by what they say: the radix by the mark in
front, the number by the digits without underscores, and the trouble with a text
that is no seed by what comes first in it.  Every seed has texts of its own in
both radixes, however they are spread out.
-/

namespace Numeral

/-- What stands in front of the first character that is no digit, if there is one. -/
theorem exists_digits_or_stray
    (radix : Nat)
    (text : List Char) :
    (∃ value, IsTextOf radix text value) ∨
      ∃ front stray rest value,
        text = front ++ stray :: rest ∧
          IsTextOf radix front value ∧ ∀ digit, ¬ IsDigitOf radix stray digit := by
  induction text using List.reverseRecOn with
  | nil =>
      exact Or.inl ⟨0, isTextOf_nil radix⟩
  | append_singleton text character inductionHypothesis =>
      rcases inductionHypothesis with ⟨value, denotes⟩ |
        ⟨front, stray, rest, value, rfl, denotes, noDigit⟩
      · by_cases isDigit : ∃ digit, IsDigitOf radix character digit
        · obtain ⟨digit, isDigit⟩ := isDigit
          exact Or.inl ⟨_, denotes.snoc isDigit⟩
        · exact Or.inr ⟨text, character, [], value, rfl, denotes, not_exists.mp isDigit⟩
      · exact Or.inr
          ⟨front, stray, rest ++ [character], value, by simp, denotes, noDigit⟩

end Numeral

namespace Seed

open Numeral

section Digits

variable
  {radix start value : Nat}
  {front rest text : List Char}

/-- A digit is taken if what has been read with it is a word. -/
theorem readDigits_cons
    (radixTable : radix ≤ 16)
    {character : Char}
    {digit : Nat}
    (isDigit : IsDigitOf radix character digit)
    (start : Nat)
    (rest : List Char) :
    readDigits radix start (character :: rest) =
      if start * radix + digit < wordSize then
        readDigits radix (start * radix + digit) rest
      else
        .error .overflow := by
  rw [readDigits, (digitValue?_eq_some_iff radixTable).mpr isDigit]

/-- Digits are taken as long as the number they make up is a word. -/
theorem readDigits_append
    (radixTable : radix ≤ 16)
    (positive : 0 < radix)
    {digits : List Nat}
    (listed : List.Forall₂ (IsDigitOf radix) front digits)
    (startIsWord : start < wordSize)
    (rest : List Char) :
    readDigits radix start (front ++ rest) =
      if start * radix ^ digits.length + ofDigits radix digits < wordSize then
        readDigits radix (start * radix ^ digits.length + ofDigits radix digits) rest
      else
        .error .overflow := by
  induction listed generalizing start with
  | nil =>
      simp [ofDigits, startIsWord]
  | @cons character digit front digits isDigit _ inductionHypothesis =>
      have whole :
          start * radix ^ (digit :: digits).length + ofDigits radix (digit :: digits) =
            (start * radix + digit) * radix ^ digits.length + ofDigits radix digits := by
        rw [← List.singleton_append, ofDigits_append, List.length_append]
        simp [ofDigits]
        ring
      rw [List.cons_append, readDigits_cons radixTable isDigit, whole]
      by_cases isWord : start * radix + digit < wordSize
      · rw [if_pos isWord, inductionHypothesis isWord]
      · have notLess :
            start * radix + digit ≤ (start * radix + digit) * radix ^ digits.length :=
          Nat.le_mul_of_pos_right _ (Nat.pow_pos positive)
        rw [if_neg isWord, if_neg (by omega)]

/-- The digits in front of a text are read as the number they denote, if it is a word. -/
theorem readDigits_of_isTextOf
    (radixTable : radix ≤ 16)
    (positive : 0 < radix)
    (denotes : IsTextOf radix front value)
    (rest : List Char) :
    readDigits radix 0 (front ++ rest) =
      if value < wordSize then readDigits radix value rest else .error .overflow := by
  obtain ⟨digits, listed, rfl⟩ := denotes
  have read := readDigits_append radixTable positive listed (by decide : 0 < wordSize) rest
  rwa [Nat.zero_mul, Nat.zero_add] at read

/-- A text of digits alone is the number it denotes, or too much. -/
theorem readDigits_of_digits
    (radixTable : radix ≤ 16)
    (positive : 0 < radix)
    (denotes : IsTextOf radix text value) :
    readDigits radix 0 text =
      if value < wordSize then .ok value else .error .overflow := by
  have read := readDigits_of_isTextOf radixTable positive denotes []
  rwa [List.append_nil, readDigits] at read

/-- A text with a stray character is none, unless its digits are too much before. -/
theorem readDigits_of_stray
    (radixTable : radix ≤ 16)
    (positive : 0 < radix)
    (denotes : IsTextOf radix front value)
    {stray : Char}
    (noDigit : ∀ digit, ¬ IsDigitOf radix stray digit)
    (rest : List Char) :
    readDigits radix 0 (front ++ stray :: rest) =
      if value < wordSize then .error .invalidDigit else .error .overflow := by
  have noValue : digitValue? radix stray = none := by
    rw [Option.eq_none_iff_forall_ne_some]
    intro digit known
    exact noDigit digit ((digitValue?_eq_some_iff radixTable).mp known)
  rw [readDigits_of_isTextOf radixTable positive denotes, readDigits, noValue]

theorem readDigits_ne_empty
    (radix start : Nat)
    (text : List Char) :
    readDigits radix start text ≠ .error .empty := by
  induction text generalizing start with
  | nil =>
      simp [readDigits]
  | cons character rest inductionHypothesis =>
      rw [readDigits]
      split
      · simp
      · simp only
        split
        · exact inductionHypothesis _
        · simp

end Digits

section Numbers

/-- Digits without the plus sign that may stand in front of them. -/
def withoutPlus : List Char → List Char
  | '+' :: digits => digits
  | digits => digits

/-- Digits of a number, with or without a plus sign. -/
def IsNumber
    (radix : Nat)
    (digits : List Char)
    (value : Nat) : Prop :=
  withoutPlus digits ≠ [] ∧ IsTextOf radix (withoutPlus digits) value

/--
What is no digit and comes before the digits make up more than a word; or there
is no more than a sign.
-/
def HasStray
    (radix : Nat)
    (digits : List Char) : Prop :=
  digits = ['+'] ∨ digits = ['-'] ∨
    ∃ front stray rest value,
      withoutPlus digits = front ++ stray :: rest ∧
        IsTextOf radix front value ∧
          value < wordSize ∧ ∀ digit, ¬ IsDigitOf radix stray digit

variable
  {radix value : Nat}
  {digits : List Char}

theorem readNumber_eq
    (radix : Nat)
    (digits : List Char) :
    readNumber radix digits =
      if digits = [] then
        .error .empty
      else if withoutPlus digits = [] then
        .error .invalidDigit
      else
        readDigits radix 0 (withoutPlus digits) := by
  rw [readNumber.eq_def]
  split
  · rfl
  · rfl
  · rename_i digits notAlone
    rw [if_neg (by simp), withoutPlus, if_neg]
    rintro rfl
    exact notAlone rfl
  · rename_i notEmpty _ noPlus
    have unsigned : withoutPlus digits = digits := by
      rw [withoutPlus.eq_def]
      split
      · exact absurd rfl (noPlus _)
      · rfl
    rw [if_neg notEmpty, unsigned, if_neg notEmpty]

theorem withoutPlus_eq_self
    (noPlus : '+' ∉ digits) :
    withoutPlus digits = digits := by
  rw [withoutPlus.eq_def]
  split
  · exact absurd (List.mem_cons_self ..) noPlus
  · rfl

theorem ne_nil_of_withoutPlus
    (someDigit : withoutPlus digits ≠ []) :
    digits ≠ [] := by
  rintro rfl
  exact someDigit rfl

theorem readNumber_eq_ok_iff
    (radixTable : radix ≤ 16)
    (positive : 0 < radix) :
    readNumber radix digits = .ok value ↔
      IsNumber radix digits value ∧ value < wordSize := by
  rw [readNumber_eq]
  constructor
  · intro read
    split at read
    · exact absurd read (by simp)
    split at read
    · exact absurd read (by simp)
    rename_i someDigit
    rcases exists_digits_or_stray radix (withoutPlus digits) with
      ⟨number, denotes⟩ | ⟨front, stray, rest, number, shape, denotes, noDigit⟩
    · rw [readDigits_of_digits radixTable positive denotes] at read
      split at read
      · rename_i isWord
        obtain rfl := Except.ok.inj read
        exact ⟨⟨someDigit, denotes⟩, isWord⟩
      · exact absurd read (by simp)
    · rw [shape, readDigits_of_stray radixTable positive denotes noDigit] at read
      split at read <;> exact absurd read (by simp)
  · rintro ⟨⟨someDigit, denotes⟩, isWord⟩
    rw [if_neg (ne_nil_of_withoutPlus someDigit), if_neg someDigit,
      readDigits_of_digits radixTable positive denotes, if_pos isWord]

theorem readNumber_eq_empty_iff
    (radix : Nat)
    (digits : List Char) :
    readNumber radix digits = .error .empty ↔ digits = [] := by
  rw [readNumber_eq]
  constructor
  · intro read
    split at read
    · assumption
    split at read
    · exact absurd read (by simp)
    · exact absurd read (readDigits_ne_empty radix 0 _)
  · exact fun isEmpty => if_pos isEmpty

theorem eq_plus_of_withoutPlus_eq_nil
    (someDigits : digits ≠ [])
    (noDigit : withoutPlus digits = []) :
    digits = ['+'] := by
  rw [withoutPlus.eq_def] at noDigit
  split at noDigit
  · rw [noDigit]
  · exact absurd noDigit someDigits

theorem readNumber_eq_invalidDigit_iff
    (radixTable : radix ≤ 16)
    (positive : 0 < radix) :
    readNumber radix digits = .error .invalidDigit ↔ HasStray radix digits := by
  constructor
  · intro read
    rw [readNumber_eq] at read
    split at read
    · exact absurd read (by simp)
    rename_i someDigits
    split at read
    · rename_i noDigit
      exact Or.inl (eq_plus_of_withoutPlus_eq_nil someDigits noDigit)
    rcases exists_digits_or_stray radix (withoutPlus digits) with
      ⟨number, denotes⟩ | ⟨front, stray, rest, number, shape, denotes, noDigit⟩
    · rw [readDigits_of_digits radixTable positive denotes] at read
      split at read <;> exact absurd read (by simp)
    · rw [shape, readDigits_of_stray radixTable positive denotes noDigit] at read
      split at read
      · rename_i isWord
        exact Or.inr (Or.inr ⟨front, stray, rest, number, shape, denotes, isWord, noDigit⟩)
      · exact absurd read (by simp)
  · rintro (rfl | rfl | ⟨front, stray, rest, number, shape, denotes, isWord, noDigit⟩)
    · rfl
    · have noMinus : ∀ digit, ¬ IsDigitOf radix '-' digit :=
        fun digit isDigit => (isDigit.isPlain radixTable).2 (by simp)
      rw [readNumber_eq]
      exact readDigits_of_stray radixTable positive (isTextOf_nil radix) noMinus []
    · have someDigit : withoutPlus digits ≠ [] := by
        rw [shape]
        simp
      rw [readNumber_eq, if_neg (ne_nil_of_withoutPlus someDigit), if_neg someDigit, shape,
        readDigits_of_stray radixTable positive denotes noDigit, if_pos isWord]

end Numbers

section Parsing

/-- The mark of a number in radix sixteen. -/
def IsMarked
    (inner : List Char) : Prop :=
  ['0', 'x'] <+: inner ∨ ['0', 'X'] <+: inner

instance : DecidablePred IsMarked :=
  fun inner => inferInstanceAs (Decidable (['0', 'x'] <+: inner ∨ ['0', 'X'] <+: inner))

/-- The radix that a text without white space around it is written in. -/
def radixOf
    (inner : List Char) : Nat :=
  if IsMarked inner then 16 else 10

/-- What such a text is without its mark and without underscores. -/
def digitsOf
    (inner : List Char) : List Char :=
  (if IsMarked inner then inner.drop 2 else inner).filter (· != '_')

variable
  {text : String}
  {inner : List Char}

theorem radixOf_range
    (inner : List Char) :
    1 < radixOf inner ∧ radixOf inner ≤ 16 := by
  rw [radixOf]
  split <;> decide

theorem readNumber_splitRadix
    (inner : List Char) :
    readNumber (splitRadix inner).1 ((splitRadix inner).2.filter (· != '_')) =
      readNumber (radixOf inner) (digitsOf inner) := by
  rw [radixOf, digitsOf, splitRadix.eq_def]
  split
  · rename_i body
    have marked : IsMarked ('0' :: 'x' :: body) := Or.inl ⟨body, rfl⟩
    rw [if_pos marked, if_pos marked]
    rfl
  · rename_i body
    have marked : IsMarked ('0' :: 'X' :: body) := Or.inr ⟨body, rfl⟩
    rw [if_pos marked, if_pos marked]
    rfl
  · rename_i notLower notUpper
    have unmarked : ¬ IsMarked inner := by
      rintro (⟨rest, shape⟩ | ⟨rest, shape⟩)
      · exact notLower rest shape.symm
      · exact notUpper rest shape.symm
    rw [if_neg unmarked, if_neg unmarked]

/-- A text is read as the number that stands in it between white space. -/
theorem parse_eq
    (trimmed : WhiteSpace.IsTrimmed text.toList inner) :
    parse text = (readNumber (radixOf inner) (digitsOf inner)).map UInt64.ofNat := by
  rw [← readNumber_splitRadix, ← WhiteSpace.trim_eq_of_isTrimmed trimmed]
  rfl

theorem parse_eq_ok_iff
    (trimmed : WhiteSpace.IsTrimmed text.toList inner)
    (seed : UInt64) :
    parse text = .ok seed ↔
      IsNumber (radixOf inner) (digitsOf inner) seed.toNat := by
  obtain ⟨radixRange, radixTable⟩ := radixOf_range inner
  have positive : 0 < radixOf inner := Nat.lt_of_succ_lt radixRange
  rw [parse_eq trimmed]
  constructor
  · intro read
    cases outcome : readNumber (radixOf inner) (digitsOf inner) with
    | error trouble =>
        rw [outcome] at read
        exact absurd read (by simp [Except.map])
    | ok value =>
        obtain ⟨isNumber, isWord⟩ :=
          (readNumber_eq_ok_iff radixTable positive).mp outcome
        rw [outcome] at read
        rwa [← Except.ok.inj read, UInt64.toNat_ofNat_of_lt' isWord]
  · intro isNumber
    rw [(readNumber_eq_ok_iff radixTable positive).mpr ⟨isNumber, seed.toNat_lt⟩,
      Except.map, UInt64.ofNat_toNat]

theorem parse_eq_error_iff
    (trimmed : WhiteSpace.IsTrimmed text.toList inner)
    (trouble : ParseError) :
    parse text = .error trouble ↔
      readNumber (radixOf inner) (digitsOf inner) = .error trouble := by
  rw [parse_eq trimmed]
  cases readNumber (radixOf inner) (digitsOf inner) <;> simp [Except.map]

end Parsing

section Writing

variable
  {radix : Nat}
  {seed : UInt64}
  {body : List Char}

/-- A numeral of a seed, with zeros in front and underscores anywhere. -/
def IsSpreadNumeral
    (radix : Nat)
    (seed : UInt64)
    (body : List Char) : Prop :=
  ∃ zeros,
    body.filter (· != '_') =
      List.replicate zeros '0' ++ (Numeral.text radix seed.toNat).toList

/-- Without its underscores, a spread numeral denotes its seed. -/
theorem IsSpreadNumeral.isTextOf
    (spread : IsSpreadNumeral radix seed body)
    (radixRange : 1 < radix) :
    IsTextOf radix (body.filter (· != '_')) seed.toNat := by
  obtain ⟨zeros, shape⟩ := spread
  rw [shape, text, String.toList_ofList]
  exact (isTextOf_digits radixRange seed.toNat).zeros (by omega) zeros

/-- A spread numeral has digits and underscores only. -/
theorem IsSpreadNumeral.isDigit_or_underscore
    (spread : IsSpreadNumeral radix seed body)
    (radixRange : 1 < radix) :
    ∀ character ∈ body, character = '_' ∨ ∃ digit, IsDigitOf radix character digit := by
  intro character member
  by_cases underscore : character = '_'
  · exact Or.inl underscore
  · have kept : character ∈ body.filter (· != '_') :=
      List.mem_filter.mpr ⟨member, by simpa using underscore⟩
    exact Or.inr ((spread.isTextOf radixRange).exists_isDigitOf character kept)

/-- A spread numeral holds no white space and no sign. -/
theorem IsSpreadNumeral.isPlain
    (spread : IsSpreadNumeral radix seed body)
    (radixRange : 1 < radix)
    (radixTable : radix ≤ 16) :
    ∀ character ∈ body,
      WhiteSpace.contains character = false ∧ character ≠ '+' := by
  intro character member
  rcases spread.isDigit_or_underscore radixRange character member with
    rfl | ⟨digit, isDigit⟩
  · decide
  · obtain ⟨notBlank, notSpecial⟩ := isDigit.isPlain radixTable
    exact ⟨notBlank, fun isPlus => notSpecial (by simp [isPlus])⟩

theorem IsSpreadNumeral.isNumber
    (spread : IsSpreadNumeral radix seed body)
    (radixRange : 1 < radix)
    (radixTable : radix ≤ 16) :
    IsNumber radix (body.filter (· != '_')) seed.toNat := by
  have noPlus : '+' ∉ body.filter (· != '_') := by
    intro isPlus
    have member := List.mem_of_mem_filter isPlus
    exact (spread.isPlain radixRange radixTable '+' member).2 rfl
  have denotes := spread.isTextOf radixRange
  obtain ⟨zeros, shape⟩ := spread
  rw [IsNumber, withoutPlus_eq_self noPlus]
  refine ⟨?_, denotes⟩
  rw [shape, text, String.toList_ofList, digits]
  exact List.append_ne_nil_of_right_ne_nil _ Nat.toDigits_ne_nil

variable
  (front back : List Char)

/-- A seed is read from its decimal numeral. -/
theorem parse_decimal
    (spread : IsSpreadNumeral 10 seed body)
    (blank : ∀ character ∈ front ++ back, WhiteSpace.contains character = true) :
    parse (String.ofList (front ++ body ++ back)) = .ok seed := by
  have plain := spread.isPlain (by decide) (by decide)
  have trimmed :=
    WhiteSpace.isTrimmed_of_forall front body back blank
      fun character member => (plain character member).1
  have unmarked : ¬ IsMarked body := by
    have noMark {mark : Char} (ordinary : mark ≠ '_')
        (noValue : digitValue? 10 mark = none) : mark ∉ body := by
      intro member
      rcases spread.isDigit_or_underscore (by decide) mark member with
        underscore | ⟨digit, isDigit⟩
      · exact ordinary underscore
      · have known := (digitValue?_eq_some_iff (by decide)).mpr isDigit
        rw [noValue] at known
        exact absurd known (by simp)
    rintro (⟨rest, rfl⟩ | ⟨rest, rfl⟩)
    · exact noMark (by decide) (by decide) (show 'x' ∈ _ by simp)
    · exact noMark (by decide) (by decide) (show 'X' ∈ _ by simp)
  rw [← String.toList_ofList (l := front ++ body ++ back)] at trimmed
  rw [parse_eq_ok_iff trimmed, radixOf, digitsOf, if_neg unmarked, if_neg unmarked]
  exact spread.isNumber (by decide) (by decide)

/-- A seed is read from its hexadecimal numeral behind a mark. -/
theorem parse_hexadecimal
    (spread : IsSpreadNumeral 16 seed body)
    (blank : ∀ character ∈ front ++ back, WhiteSpace.contains character = true) :
    parse (String.ofList (front ++ '0' :: 'x' :: body ++ back)) = .ok seed := by
  have plain := spread.isPlain (by decide) (by decide)
  have trimmed :=
    WhiteSpace.isTrimmed_of_forall front ('0' :: 'x' :: body) back blank
      (List.forall_mem_cons.mpr ⟨rfl, List.forall_mem_cons.mpr
        ⟨rfl, fun character member => (plain character member).1⟩⟩)
  have marked : IsMarked ('0' :: 'x' :: body) := Or.inl ⟨body, rfl⟩
  rw [← String.toList_ofList (l := front ++ '0' :: 'x' :: body ++ back)] at trimmed
  rw [parse_eq_ok_iff trimmed, radixOf, digitsOf, if_pos marked, if_pos marked]
  exact spread.isNumber (by decide) (by decide)

/-- A numeral is one of its own spread forms. -/
theorem isSpreadNumeral_text
    (radixRange : 1 < radix)
    (radixTable : radix ≤ 16)
    (seed : UInt64) :
    IsSpreadNumeral radix seed (Numeral.text radix seed.toNat).toList := by
  have denotes := isTextOf_digits radixRange seed.toNat
  have noUnderscore :
      ∀ character ∈ digits radix seed.toNat, (character != '_') = true := by
    intro character member
    obtain ⟨digit, isDigit⟩ := denotes.exists_isDigitOf character member
    have notSpecial := (isDigit.isPlain radixTable).2
    exact bne_iff_ne.mpr fun underscore => notSpecial (by simp [underscore])
  refine ⟨0, ?_⟩
  rw [text, String.toList_ofList, List.filter_eq_self.mpr noUnderscore]
  rfl

/-- No two seeds start runs of one name. -/
theorem runId_injective :
    Function.Injective runId := by
  intro first second same
  have sameNumeral : Numeral.text 16 first.toNat = Numeral.text 16 second.toNat :=
    (String.append_right_inj _).mp same
  have read (seed : UInt64) :=
    parse_hexadecimal [] [] (isSpreadNumeral_text (by decide) (by decide) seed) (by simp)
  have secondRead := read second
  rw [← sameNumeral, read first] at secondRead
  exact Except.ok.inj secondRead

end Writing

/--
A text is a seed exactly if it is, between white space, a number of its radix
that is a word; and what is wrong with any other text is settled by its digits.
So each seed is read from both of its numerals, spread out or not.
-/
theorem parse_exactly_numbers :
    (∀ text : String, ∃ inner,
      WhiteSpace.IsTrimmed text.toList inner ∧
        (∀ seed, parse text = .ok seed ↔
          IsNumber (radixOf inner) (digitsOf inner) seed.toNat) ∧
        (parse text = .error .empty ↔ digitsOf inner = []) ∧
        (parse text = .error .invalidDigit ↔
          HasStray (radixOf inner) (digitsOf inner)) ∧
        (parse text = .error .overflow ↔
          (∀ seed : UInt64, ¬ IsNumber (radixOf inner) (digitsOf inner) seed.toNat) ∧
            digitsOf inner ≠ [] ∧ ¬ HasStray (radixOf inner) (digitsOf inner))) ∧
      (∀ (seed : UInt64) (front body back : List Char),
        (∀ character ∈ front ++ back, WhiteSpace.contains character = true) →
          (IsSpreadNumeral 10 seed body →
            parse (String.ofList (front ++ body ++ back)) = .ok seed) ∧
          (IsSpreadNumeral 16 seed body →
            parse (String.ofList (front ++ '0' :: 'x' :: body ++ back)) = .ok seed)) ∧
        Function.Injective runId := by
  refine
    ⟨fun text => ?_,
      fun seed front body back blank =>
        ⟨fun spread => parse_decimal front back spread blank,
          fun spread => parse_hexadecimal front back spread blank⟩,
      runId_injective⟩
  have trimmed := WhiteSpace.isTrimmed_trim text.toList
  have range := radixOf_range (WhiteSpace.trim text.toList)
  have positive := Nat.lt_of_succ_lt range.1
  refine ⟨_, trimmed, parse_eq_ok_iff trimmed, ?empty, ?invalid, ?overflow⟩
  case empty =>
    rw [parse_eq_error_iff trimmed, readNumber_eq_empty_iff]
  case invalid =>
    rw [parse_eq_error_iff trimmed, readNumber_eq_invalidDigit_iff range.2 positive]
  case overflow =>
    rw [← readNumber_eq_invalidDigit_iff range.2 positive, ne_eq,
      ← readNumber_eq_empty_iff (radixOf (WhiteSpace.trim text.toList)),
      ← parse_eq_error_iff trimmed, ← parse_eq_error_iff trimmed]
    simp only [← parse_eq_ok_iff trimmed]
    cases parse text with
    | ok seed => simp
    | error trouble => cases trouble <;> simp

/-- Zeros, underscores and white space do not change a seed. -/
theorem parse_exactly_numbers_spread :
    (∀ character ∈ ['\t'] ++ [' '], WhiteSpace.contains character = true) ∧
      IsSpreadNumeral 16 0xdeadbeef "0_0de_ad__beef_".toList ∧
        IsSpreadNumeral 10 1900 "_01_900".toList ∧
          parse (String.ofList (['\t'] ++ '0' :: 'x' :: "0_0de_ad__beef_".toList ++ [' '])) =
              .ok 0xdeadbeef ∧
            parse (String.ofList (['\t'] ++ "_01_900".toList ++ [' '])) = .ok 1900 := by
  have blank :
      ∀ character ∈ ['\t'] ++ [' '], WhiteSpace.contains character = true :=
    List.all_eq_true.mp (by decide)
  have hexadecimal : IsSpreadNumeral 16 0xdeadbeef "0_0de_ad__beef_".toList :=
    ⟨2, by decide⟩
  have decimal : IsSpreadNumeral 10 1900 "_01_900".toList :=
    ⟨1, by decide⟩
  have spellings := parse_exactly_numbers.2.1
  exact
    ⟨blank, hexadecimal, decimal, (spellings _ _ _ _ blank).2 hexadecimal,
      (spellings _ _ _ _ blank).1 decimal⟩

end Seed

end LibcConformance
