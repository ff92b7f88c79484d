import LibcConformance.Proofs.CText.Name

namespace LibcConformance

/-!
# Words of a label

The words of a label are its longest runs of letters and digits, in lower case;
a label without any has the word `case`.  An identifier is the words of its
label with an underscore between any two, and with another one in front if the
first word starts with a digit.  Main fact: an identifier has the words of its
label, so that labels share an identifier exactly if they share their words.
-/

namespace CText

/-- The longest runs of letters and digits in a text. -/
def alphanumericRuns
    (text : List Char) : List (List Char) :=
  match text with
  | [] => []
  | first :: rest =>
      if first.isAlphanum then
        (first :: rest.takeWhile Char.isAlphanum) ::
          alphanumericRuns (rest.dropWhile Char.isAlphanum)
      else
        alphanumericRuns rest
termination_by text.length
decreasing_by
  · exact Nat.lt_succ_of_le (List.dropWhile_sublist _).length_le
  · exact Nat.lt_succ_self _

/-- Texts in lower case. -/
def lowered
    (runs : List (List Char)) : List (List Char) :=
  runs.map (·.map Char.toLower)

/-- The words of a label; there is at least one. -/
def labelWords
    (label : String) : List (List Char) :=
  match alphanumericRuns label.toList with
  | [] => ["case".toList]
  | first :: later => lowered (first :: later)

/-- Whether the first of some words starts with a digit. -/
def startWithDigit
    (words : List (List Char)) : Bool :=
  words.head?.any fun first => first.head?.any Char.isDigit

/-- Words with an underscore between any two, and one in front if they start with a digit. -/
def joinedByUnderscores
    (words : List (List Char)) : List Char :=
  (if startWithDigit words then ['_'] else []) ++ ['_'].intercalate words

/-- Whether a character is a lowercase letter or a digit. -/
def isWordCharacter
    (character : Char) : Bool :=
  character.isLower || character.isDigit

/-- A text of lowercase letters and digits that is not empty. -/
structure IsWord
    (word : List Char) : Prop where
  nonempty : word ≠ []
  characters : ∀ character ∈ word, isWordCharacter character = true

/-- A name in which every underscore but a leading one separates two words. -/
structure IsCanonicalName
    (name : String) : Prop extends IsName name where
  lowercase :
    ∀ character ∈ name.toList,
      isWordCharacter character = true ∨ character = '_'
  noDoubleUnderscore : ¬['_', '_'] <:+: name.toList
  noTrailingUnderscore : name.toList.getLast? ≠ some '_'

section Characters

variable
  {character : Char}

theorem isWordCharacter_toLower
    (alphanumeric : character.isAlphanum = true) :
    isWordCharacter character.toLower = true :=
  forall_of_isAlphanum
    (fun character => isWordCharacter character.toLower = true)
    (by decide) alphanumeric

theorem isAlphanum_of_isWordCharacter
    (inWord : isWordCharacter character = true) :
    character.isAlphanum = true := by
  rcases Bool.or_eq_true_iff.mp inWord with lower | digit
  · simp [Char.isAlphanum, Char.isAlpha, lower]
  · simp [Char.isAlphanum, digit]

theorem toLower_of_isWordCharacter
    (inWord : isWordCharacter character = true) :
    character.toLower = character :=
  forall_of_isAlphanum
    (fun character =>
      isWordCharacter character = true → character.toLower = character)
    (by decide) (isAlphanum_of_isWordCharacter inWord) inWord

theorem ne_underscore_of_isWordCharacter
    (inWord : isWordCharacter character = true) :
    character ≠ '_' := by
  rintro rfl
  exact absurd inWord (by decide)

end Characters

section Runs

variable
  {run rest : List Char}

/-- A run is found whole if what comes behind it starts with something else. -/
theorem alphanumericRuns_append
    (nonempty : run ≠ [])
    (inRun : ∀ character ∈ run, character.isAlphanum = true)
    (ends : ∀ character ∈ rest.head?, character.isAlphanum = false) :
    alphanumericRuns (run ++ rest) = run :: alphanumericRuns rest := by
  cases run with
  | nil =>
      exact absurd rfl nonempty
  | cons first later =>
      obtain ⟨firstInRun, laterInRun⟩ := List.forall_mem_cons.mp inRun
      rw [List.cons_append, alphanumericRuns, if_pos firstInRun,
        takeWhile_run_append laterInRun ends,
        dropWhile_run_append laterInRun ends]

theorem alphanumericRuns_underscore
    (rest : List Char) :
    alphanumericRuns ('_' :: rest) = alphanumericRuns rest := by
  rw [alphanumericRuns, if_neg (by decide)]

theorem isWord_of_mem_lowered_alphanumericRuns
    (text : List Char) :
    ∀ word ∈ lowered (alphanumericRuns text), IsWord word := by
  fun_induction alphanumericRuns text with
  | case1 =>
      simp [lowered]
  | case2 first rest firstInRun inductionHypothesis =>
      have restInRun :
          ∀ character ∈ rest.takeWhile Char.isAlphanum,
            character.isAlphanum = true :=
        fun character => List.mem_takeWhile_imp
      refine List.forall_mem_cons.mpr ⟨⟨by simp, ?_⟩, inductionHypothesis⟩
      rw [List.forall_mem_map]
      intro character member
      apply isWordCharacter_toLower
      rcases List.mem_cons.mp member with rfl | inRest
      · exact firstInRun
      · exact restInRun character inRest
  | case3 first rest isGap inductionHypothesis =>
      exact inductionHypothesis

theorem labelWords_cases
    (label : String) :
    lowered (alphanumericRuns label.toList) = [] ∧
        labelWords label = ["case".toList] ∨
      lowered (alphanumericRuns label.toList) ≠ [] ∧
        labelWords label = lowered (alphanumericRuns label.toList) := by
  rw [labelWords]
  cases alphanumericRuns label.toList with
  | nil => exact .inl ⟨rfl, rfl⟩
  | cons first later => exact .inr ⟨List.cons_ne_nil _ _, rfl⟩

theorem labelWords_ne_nil
    (label : String) :
    labelWords label ≠ [] := by
  rcases labelWords_cases label with ⟨-, fallback⟩ | ⟨nonempty, words⟩
  · simp [fallback]
  · rwa [words]

theorem isWord_of_mem_labelWords
    (label : String) :
    ∀ word ∈ labelWords label, IsWord word := by
  rcases labelWords_cases label with ⟨-, fallback⟩ | ⟨-, words⟩
  · rw [fallback, List.forall_mem_singleton]
    exact ⟨by simp, by simp [isWordCharacter]⟩
  · rw [words]
    exact isWord_of_mem_lowered_alphanumericRuns label.toList

end Runs

/-- Words with an underscore in front of each. -/
def underscored
    (words : List (List Char)) : List Char :=
  words.flatMap ('_' :: ·)

theorem intercalate_cons_eq
    (first : List Char)
    (later : List (List Char)) :
    ['_'].intercalate (first :: later) = first ++ underscored later := by
  induction later generalizing first with
  | nil =>
      simp [underscored]
  | cons second rest inductionHypothesis =>
      rw [List.intercalate_cons_cons, inductionHypothesis]
      simp [underscored]

section Writing

variable
  {run rest : List Char}

/-- A run goes on as it stands, in lower case. -/
theorem joinedWords_run
    (inRun : ∀ character ∈ run, character.isAlphanum = true) :
    joinedWords true false (run ++ rest) =
      run.map Char.toLower ++ joinedWords true false rest := by
  induction run with
  | nil =>
      rfl
  | cons first later inductionHypothesis =>
      obtain ⟨firstInRun, laterInRun⟩ := List.forall_mem_cons.mp inRun
      rw [List.cons_append, joinedWords, if_pos firstInRun,
        inductionHypothesis laterInRun]
      rfl

/-- Behind a run a gap has opened, even if nothing stands in it. -/
theorem joinedWords_runEnds
    (ends : ∀ character ∈ rest.head?, character.isAlphanum = false) :
    joinedWords true false rest = joinedWords true true rest := by
  cases rest with
  | nil =>
      rfl
  | cons first later =>
      have isGap : ¬first.isAlphanum = true := by
        simp [ends first rfl]
      simp only [joinedWords, if_neg isGap]

theorem joinedWords_afterFirst
    (rest : List Char) :
    joinedWords true false rest =
      (rest.takeWhile Char.isAlphanum).map Char.toLower ++
        joinedWords true true (rest.dropWhile Char.isAlphanum) := by
  have inRun :
      ∀ character ∈ rest.takeWhile Char.isAlphanum,
        character.isAlphanum = true :=
    fun character => List.mem_takeWhile_imp
  calc
    joinedWords true false rest =
        joinedWords true false
          (rest.takeWhile Char.isAlphanum ++
            rest.dropWhile Char.isAlphanum) := by
      rw [List.takeWhile_append_dropWhile]
    _ = _ := by
      rw [joinedWords_run inRun, joinedWords_runEnds (head?_dropWhile rest)]

/-- In a gap, each run that follows is written behind an underscore. -/
theorem joinedWords_gap
    (text : List Char) :
    joinedWords true true text =
      underscored (lowered (alphanumericRuns text)) := by
  fun_induction alphanumericRuns text with
  | case1 =>
      rfl
  | case2 first rest firstInRun inductionHypothesis =>
      rw [joinedWords, if_pos firstInRun, joinedWords_afterFirst,
        inductionHypothesis]
      simp [underscored, lowered]
  | case3 first rest isGap inductionHypothesis =>
      rw [joinedWords, if_neg isGap, inductionHypothesis]

/-- The first run is written without an underscore in front. -/
theorem joinedWords_eq_intercalate
    (text : List Char) :
    joinedWords false false text =
      ['_'].intercalate (lowered (alphanumericRuns text)) := by
  fun_induction alphanumericRuns text with
  | case1 =>
      rfl
  | case2 first rest firstInRun inductionHypothesis =>
      rw [joinedWords, if_pos firstInRun, joinedWords_afterFirst,
        joinedWords_gap]
      simp [lowered, intercalate_cons_eq]
  | case3 first rest isGap inductionHypothesis =>
      rw [joinedWords, if_neg isGap, inductionHypothesis]

/-- An identifier is the words of its label, joined. -/
theorem identifier_eq_joined
    (label : String) :
    identifier label = String.ofList (joinedByUnderscores (labelWords label)) := by
  rw [identifier, joinedWords_eq_intercalate]
  rcases labelWords_cases label with ⟨noRuns, fallback⟩ | ⟨nonempty, words⟩
  · rw [noRuns, fallback]
    rfl
  · have areWords := isWord_of_mem_labelWords label
    rw [← words] at nonempty ⊢
    obtain ⟨first, later, shape⟩ := List.exists_cons_of_ne_nil nonempty
    rw [shape] at areWords ⊢
    obtain ⟨isWord, -⟩ := List.forall_mem_cons.mp areWords
    obtain ⟨character, rest, rfl⟩ := List.exists_cons_of_ne_nil isWord.nonempty
    rw [joinedByUnderscores, intercalate_cons_eq, List.cons_append]
    cases leading : character.isDigit <;> simp [startWithDigit, leading]

end Writing

section ReadingBack

variable
  {words : List (List Char)}

theorem head?_underscored
    (words : List (List Char)) :
    ∀ character ∈ (underscored words).head?, character.isAlphanum = false := by
  cases words with
  | nil =>
      simp [underscored]
  | cons first later =>
      rintro character ⟨⟩
      decide

/-- A word in front of underscored ones is found as the first run. -/
theorem IsWord.alphanumericRuns_append_underscored
    {word : List Char}
    (isWord : IsWord word)
    (later : List (List Char)) :
    alphanumericRuns (word ++ underscored later) =
      word :: alphanumericRuns (underscored later) :=
  alphanumericRuns_append isWord.nonempty
    (fun character member =>
      isAlphanum_of_isWordCharacter (isWord.characters character member))
    (head?_underscored later)

theorem alphanumericRuns_underscored
    (areWords : ∀ word ∈ words, IsWord word) :
    alphanumericRuns (underscored words) = words := by
  induction words with
  | nil =>
      rw [underscored, List.flatMap_nil, alphanumericRuns]
  | cons first later inductionHypothesis =>
      obtain ⟨firstIsWord, laterAreWords⟩ := List.forall_mem_cons.mp areWords
      have shape :
          underscored (first :: later) = '_' :: (first ++ underscored later) :=
        rfl
      rw [shape, alphanumericRuns_underscore,
        firstIsWord.alphanumericRuns_append_underscored,
        inductionHypothesis laterAreWords]

/-- Joined words are found again, each as a run. -/
theorem alphanumericRuns_joined
    (areWords : ∀ word ∈ words, IsWord word) :
    alphanumericRuns (joinedByUnderscores words) = words := by
  have joined :
      alphanumericRuns (['_'].intercalate words) = words := by
    cases words with
    | nil =>
        rw [List.intercalate_nil, alphanumericRuns]
    | cons first later =>
        obtain ⟨firstIsWord, laterAreWords⟩ := List.forall_mem_cons.mp areWords
        rw [intercalate_cons_eq,
          firstIsWord.alphanumericRuns_append_underscored,
          alphanumericRuns_underscored laterAreWords]
  rw [joinedByUnderscores]
  split
  · rw [List.singleton_append, alphanumericRuns_underscore, joined]
  · rw [List.nil_append, joined]

theorem lowered_eq_self
    (areWords : ∀ word ∈ words, IsWord word) :
    lowered words = words := by
  have same :
      ∀ word ∈ words, word.map Char.toLower = id word := by
    intro word member
    rw [List.map_congr_left fun character inWord =>
      toLower_of_isWordCharacter ((areWords word member).characters character inWord)]
    exact List.map_id word
  rw [lowered, List.map_congr_left same, List.map_id]

/-- An identifier has the words of its label. -/
theorem labelWords_identifier
    (label : String) :
    labelWords (identifier label) = labelWords label := by
  have areWords := isWord_of_mem_labelWords label
  have found :
      lowered (alphanumericRuns (identifier label).toList) =
        labelWords label := by
    rw [identifier_eq_joined, String.toList_ofList,
      alphanumericRuns_joined areWords, lowered_eq_self areWords]
  rcases labelWords_cases (identifier label) with ⟨noRuns, -⟩ | ⟨-, words⟩
  · exact absurd (found.symm.trans noRuns) (labelWords_ne_nil label)
  · rw [words, found]

end ReadingBack

section Canonical

variable
  {text word : List Char}
  {words : List (List Char)}

/-- Every underscore has a lowercase letter or a digit behind it. -/
def UnderscoresSeparate
    (text : List Char) : Prop :=
  ∀ back,
    '_' :: back <:+ text →
      ∃ next ∈ back.head?, isWordCharacter next = true

namespace UnderscoresSeparate

/-- A word in front of a text brings no underscore. -/
theorem append_word
    (separate : UnderscoresSeparate text)
    (inWord : ∀ character ∈ word, isWordCharacter character = true) :
    UnderscoresSeparate (word ++ text) := by
  induction word with
  | nil =>
      exact separate
  | cons first later inductionHypothesis =>
      obtain ⟨firstInWord, laterInWord⟩ := List.forall_mem_cons.mp inWord
      intro back isSuffix
      rcases List.suffix_cons_iff.mp isSuffix with here | later
      · cases here
        exact absurd rfl (ne_underscore_of_isWordCharacter firstInWord)
      · exact inductionHypothesis laterInWord back later

/-- An underscore may stand in front of a word. -/
theorem underscore_word
    (separate : UnderscoresSeparate (word ++ text))
    (isWord : IsWord word) :
    UnderscoresSeparate ('_' :: (word ++ text)) := by
  obtain ⟨first, rest, rfl⟩ := List.exists_cons_of_ne_nil isWord.nonempty
  intro back isSuffix
  rcases List.suffix_cons_iff.mp isSuffix with here | later
  · cases here
    exact ⟨first, rfl, isWord.characters first List.mem_cons_self⟩
  · exact separate back later

theorem underscored
    (areWords : ∀ word ∈ words, IsWord word) :
    UnderscoresSeparate (underscored words) := by
  induction words with
  | nil =>
      intro back isSuffix
      exact absurd (List.suffix_nil.mp isSuffix) (List.cons_ne_nil _ _)
  | cons first later inductionHypothesis =>
      obtain ⟨isWord, laterAreWords⟩ := List.forall_mem_cons.mp areWords
      exact
        ((inductionHypothesis laterAreWords).append_word
          isWord.characters).underscore_word isWord

theorem joined
    (areWords : ∀ word ∈ words, IsWord word)
    (nonempty : words ≠ []) :
    UnderscoresSeparate (joinedByUnderscores words) := by
  obtain ⟨first, later, rfl⟩ := List.exists_cons_of_ne_nil nonempty
  obtain ⟨isWord, laterAreWords⟩ := List.forall_mem_cons.mp areWords
  have plain :
      UnderscoresSeparate (first ++ CText.underscored later) :=
    (underscored laterAreWords).append_word isWord.characters
  rw [joinedByUnderscores, intercalate_cons_eq]
  split
  · exact plain.underscore_word isWord
  · exact plain

theorem noDoubleUnderscore
    (separate : UnderscoresSeparate text) :
    ¬['_', '_'] <:+: text := by
  rintro ⟨front, back, rfl⟩
  obtain ⟨next, isNext, inWord⟩ :=
    separate ('_' :: back) ⟨front, by simp⟩
  cases isNext
  exact absurd rfl (ne_underscore_of_isWordCharacter inWord)

theorem noTrailingUnderscore
    (separate : UnderscoresSeparate text) :
    text.getLast? ≠ some '_' := by
  intro isLast
  obtain ⟨front, rfl⟩ := List.getLast?_eq_some_iff.mp isLast
  obtain ⟨next, isNext, -⟩ := separate [] ⟨front, rfl⟩
  cases isNext

end UnderscoresSeparate

theorem mem_joined
    {character : Char}
    (member : character ∈ joinedByUnderscores words) :
    character = '_' ∨ ∃ word ∈ words, character ∈ word := by
  rcases List.mem_append.mp member with inFront | inWords
  · split at inFront
    · exact .inl (List.mem_singleton.mp inFront)
    · cases inFront
  · rcases mem_intercalate inWords with between | inWord
    · exact .inl (List.mem_singleton.mp between)
    · exact .inr inWord

/-- What is joined starts with a letter or an underscore. -/
theorem head?_joined
    (areWords : ∀ word ∈ words, IsWord word)
    (nonempty : words ≠ []) :
    ∃ first ∈ (joinedByUnderscores words).head?, first.isDigit = false := by
  obtain ⟨first, later, rfl⟩ := List.exists_cons_of_ne_nil nonempty
  obtain ⟨isWord, -⟩ := List.forall_mem_cons.mp areWords
  obtain ⟨character, rest, rfl⟩ := List.exists_cons_of_ne_nil isWord.nonempty
  rw [joinedByUnderscores, intercalate_cons_eq]
  cases leading : character.isDigit with
  | false => exact ⟨character, by simp [startWithDigit, leading], leading⟩
  | true => exact ⟨'_', by simp [startWithDigit, leading], by decide⟩

theorem isCanonicalName_identifier
    (label : String) :
    IsCanonicalName (identifier label) := by
  have areWords := isWord_of_mem_labelWords label
  have nonempty := labelWords_ne_nil label
  have separate := UnderscoresSeparate.joined areWords nonempty
  have lowercase :
      ∀ character ∈ joinedByUnderscores (labelWords label),
        isWordCharacter character = true ∨ character = '_' := by
    intro character member
    rcases mem_joined member with underscore | ⟨word, isWord, inWord⟩
    · exact .inr underscore
    · exact .inl ((areWords word isWord).characters character inWord)
  have text :
      (identifier label).toList = joinedByUnderscores (labelWords label) := by
    rw [identifier_eq_joined, String.toList_ofList]
  rw [← text] at separate lowercase
  exact
    { characters := isNameCharacter_of_mem_identifier label
      start := text ▸ head?_joined areWords nonempty
      lowercase
      noDoubleUnderscore := separate.noDoubleUnderscore
      noTrailingUnderscore := separate.noTrailingUnderscore }

end Canonical

/--
The identifier of a label is its words with an underscore between any two, and
with one in front exactly if the first word starts with a digit.  It is a name
of lowercase letters, digits and single underscores, none of them last.  Labels
share it exactly if they share their words, and it is its own identifier.
-/
theorem identifier_canonical
    (label other : String) :
    identifier label =
        String.ofList (joinedByUnderscores (labelWords label)) ∧
      IsCanonicalName (identifier label) ∧
      (identifier label = identifier other ↔
        labelWords label = labelWords other) ∧
      identifier (identifier label) = identifier label := by
  refine
    ⟨identifier_eq_joined label, isCanonicalName_identifier label, ⟨?_, ?_⟩, ?_⟩
  · intro same
    rw [← labelWords_identifier label, same, labelWords_identifier]
  · intro same
    rw [identifier_eq_joined, identifier_eq_joined, same]
  · rw [identifier_eq_joined (identifier label), labelWords_identifier,
      ← identifier_eq_joined]

example :
    identifier "10 bytes, NUL-filled" = "_10_bytes_nul_filled" := by
  cbv

end CText

end LibcConformance
