import LibcConformance.Proofs.Json.StringReadBack
import LibcConformance.Proofs.Numeral

namespace LibcConformance.Json

/-!
# Values are read back

A value without floats, with integers that fit a word and members in the order
of their names, is read back from its compact form.  Every construct is read
off the front of a text, whatever follows it; only a number must not be
followed by a character that would go on with it.  The members of any object
are read back as well, but they come back sorted.
-/

/-- A value that its compact form keeps, nested no deeper than a limit. -/
inductive Value.IsKept : Nat → Value → Prop
  | null
      {limit : Nat} :
      IsKept limit .null
  | bool
      {limit : Nat}
      (value : Bool) :
      IsKept limit (.bool value)
  | integer
      {limit : Nat}
      {value : Int}
      (least : -(2 ^ 63) ≤ value)
      (greatest : value < 2 ^ 64) :
      IsKept limit (.integer value)
  | string
      {limit : Nat}
      (text : String) :
      IsKept limit (.string text)
  | array
      {limit : Nat}
      {items : List Value}
      (kept : ∀ item ∈ items, IsKept limit item) :
      IsKept (limit + 1) (.array items)
  | object
      {limit : Nat}
      {members : List (String × Value)}
      (sorted : members.Pairwise (·.1 < ·.1))
      (kept : ∀ member ∈ members, IsKept limit member.2) :
      IsKept (limit + 1) (.object members)

/-- A text that no number goes on with. -/
def EndsNumber
    (rest : List Char) : Prop :=
  ∀ character ∈ rest.head?,
    character.isDigit = false ∧
      character ≠ '.' ∧ character ≠ 'e' ∧ character ≠ 'E'

theorem EndsNumber.noDigitFirst
    {rest : List Char}
    (ends : EndsNumber rest) :
    Numeral.NoDigitFirst rest :=
  fun character member => (ends character member).1

theorem endsNumber_nil :
    EndsNumber [] := by
  simp [EndsNumber]

theorem endsNumber_comma
    (rest : List Char) :
    EndsNumber (',' :: rest) := by
  simp [EndsNumber]

theorem endsNumber_bracket
    (rest : List Char) :
    EndsNumber (']' :: rest) := by
  simp [EndsNumber]

theorem endsNumber_brace
    (rest : List Char) :
    EndsNumber ('\x7d' :: rest) := by
  simp [EndsNumber]

/--
A spelling of a value within a limit: it starts a value, and it is read as a
document with that value by as many nested calls as twice its length.
-/
structure Spells
    (spelling : List Char)
    (limit : Nat)
    (value : Value) : Prop where
  opens :
    ∃ first behind,
      spelling = first :: behind ∧ isBlank first = false ∧ first ≠ ']'
  reads :
    ∃ document : Document,
      document.valueWithin? limit = some value ∧
        ∀ depth rest,
          2 * spelling.length ≤ depth + 2 →
          EndsNumber rest →
          readValue? (depth + 1) (spelling ++ rest) = some (document, rest)

theorem skipBlank_cons
    (first : Char)
    (rest : List Char)
    (notBlank : isBlank first = false) :
    skipBlank (first :: rest) = first :: rest := by
  simp [skipBlank, notBlank]

section Leaves

variable
  {limit : Nat}

theorem spells_null :
    Spells (Value.null).compactCharacters limit .null where
  opens := ⟨'n', ['u', 'l', 'l'], by rw [Value.compactCharacters], by decide⟩
  reads := by
    refine ⟨.null, by rw [Document.valueWithin?], fun depth rest _ _ => ?_⟩
    rw [Value.compactCharacters]
    rfl

theorem spells_bool
    (value : Bool) :
    Spells (Value.bool value).compactCharacters limit (.bool value) where
  opens := by
    rw [Value.compactCharacters]
    cases value with
    | false =>
        exact ⟨'f', ['a', 'l', 's', 'e'], by decide⟩
    | true =>
        exact ⟨'t', ['r', 'u', 'e'], by decide⟩
  reads := by
    refine
      ⟨.bool value, by rw [Document.valueWithin?], fun depth rest _ _ => ?_⟩
    rw [Value.compactCharacters]
    cases value <;> rfl

theorem spells_string
    (text : String) :
    Spells (Value.string text).compactCharacters limit (.string text) where
  opens :=
    ⟨'"', text.toList.flatMap escaped ++ ['"'],
      by simp [Value.compactCharacters, quoted], by decide⟩
  reads := by
    obtain ⟨units, means, reads⟩ := readString?_quoted text
    refine
      ⟨.string units, by simp [Document.valueWithin?, means],
        fun depth rest _ _ => ?_⟩
    obtain ⟨behind, shape, read⟩ := reads rest
    rw [Value.compactCharacters, shape, readValue?, skipBlank_cons _ _ rfl]
    simp [read]

end Leaves

section Integers

variable
  {limit : Nat}

theorem wholeValue_toDigits
    (size : Nat) :
    wholeValue (Nat.toDigits 10 size) = size := by
  have denoted := Nat.ofDigitChars_ten_toDigits (n := size)
  simpa [wholeValue, Nat.ofDigitChars, Nat.mul_comm] using denoted

theorem readUnsigned?_toDigits
    (negative : Bool)
    (size : Nat)
    {rest : List Char}
    (ends : EndsNumber rest) :
    readUnsigned? negative (Nat.toDigits 10 size ++ rest) =
      some
        ({ negative, whole := Nat.toDigits 10 size
           fraction := none, exponent := none },
          rest) := by
  have digits :
      readDigits? (Nat.toDigits 10 size ++ rest) =
        some (Nat.toDigits 10 size, rest) := by
    obtain ⟨run, behind⟩ :=
      Numeral.span_decimal_append size ends.noDigitFirst
    simp [readDigits?, run, behind]
  have whole :
      readWhole? (Nat.toDigits 10 size ++ rest) =
        some (Nat.toDigits 10 size, rest) := by
    rw [readWhole?, digits, Option.filter_some, if_pos]
    by_cases zero : size = 0
    · simp [zero]
    · have noZero := Numeral.head?_decimal_ne_zero (Nat.pos_of_ne_zero zero)
      simp [noZero]
  have fraction : readFraction? rest = some (none, rest) := by
    cases rest with
    | nil =>
        rfl
    | cons first behind =>
        obtain ⟨-, notPoint, -⟩ := ends first rfl
        simp [readFraction?, notPoint]
  have exponent : readExponent? rest = some (none, rest) := by
    cases rest with
    | nil =>
        rfl
    | cons first behind =>
        obtain ⟨-, -, notSmall, notLarge⟩ := ends first rfl
        simp [readExponent?, notSmall, notLarge]
  simp only [readUnsigned?, whole, fraction, exponent, Option.bind_eq_bind,
    Option.bind_some, Option.pure_def]

/-- The digits of a number are read as a number without a sign. -/
theorem spells_nat
    {size : Nat}
    (fits : size < 2 ^ 64) :
    Spells (Nat.toDigits 10 size) limit (.integer size) := by
  have digits :
      ∀ character ∈ Nat.toDigits 10 size, character.isDigit = true :=
    fun character => Nat.isDigit_of_mem_toDigits (by decide) (by decide)
  cases shape : Nat.toDigits 10 size with
  | nil =>
      exact absurd shape Nat.toDigits_ne_nil
  | cons first behind =>
      have digit : first.isDigit = true :=
        digits first (shape ▸ List.mem_cons_self)
      have apart (other : Char) (notDigit : other.isDigit = false) :
          first ≠ other := by
        rintro rfl
        rw [digit] at notDigit
        cases notDigit
      have notBlank : isBlank first = false := by
        simp [isBlank, apart]
      refine ⟨⟨first, behind, rfl, notBlank, apart ']' rfl⟩, ?_⟩
      refine
        ⟨.number
            { negative := false, whole := Nat.toDigits 10 size
              fraction := none, exponent := none },
          ?_, fun depth rest _ ends => ?_⟩
      · have word : size < wordSize :=
          fits
        simp [Document.valueWithin?, NumberText.value?, wholeValue_toDigits,
          word]
      · have read :
            readNumber? (first :: (behind ++ rest)) =
              some
                ({ negative := false, whole := Nat.toDigits 10 size
                   fraction := none, exponent := none },
                  rest) := by
          rw [← readUnsigned?_toDigits false size ends, shape, readNumber?]
          · rfl
          · simp [apart '-' rfl]
        rw [List.cons_append, readValue?, skipBlank_cons first _ notBlank]
        simp [apart, read]

theorem spells_negative
    {size : Nat}
    (positive : 0 < size)
    (fits : size ≤ 2 ^ 63) :
    Spells ('-' :: Nat.toDigits 10 size) limit (.integer (-size)) where
  opens := ⟨'-', Nat.toDigits 10 size, rfl, by decide⟩
  reads := by
    refine
      ⟨.number
          { negative := true, whole := Nat.toDigits 10 size
            fraction := none, exponent := none },
        ?_, fun depth rest _ ends => ?_⟩
    · have half : 2 * size ≤ wordSize := by
        rw [wordSize]
        omega
      simp [Document.valueWithin?, NumberText.value?, wholeValue_toDigits,
        positive, half]
    · rw [List.cons_append, readValue?, skipBlank_cons _ _ rfl]
      simp [readNumber?, readUnsigned?_toDigits true size ends]

theorem spells_integer
    {value : Int}
    (least : -(2 ^ 63) ≤ value)
    (greatest : value < 2 ^ 64) :
    Spells (Value.integer value).compactCharacters limit (.integer value) := by
  rw [Value.compactCharacters, Int.toString_eq_repr, Int.repr_eq_if]
  by_cases nonnegative : 0 ≤ value
  · have size : (value.toNat : Int) = value :=
      Int.toNat_of_nonneg nonnegative
    have spells :
        Spells (Nat.toDigits 10 value.toNat) limit (.integer value.toNat) :=
      spells_nat (by omega)
    rw [size] at spells
    rwa [if_pos nonnegative, Nat.toList_repr]
  · have size : -((-value).toNat : Int) = value := by
      omega
    have spells :
        Spells ('-' :: Nat.toDigits 10 (-value).toNat) limit
          (.integer (-(-value).toNat)) :=
      spells_negative (by omega) (by omega)
    rw [size] at spells
    rwa [if_neg nonnegative, String.toList_append, Nat.toList_repr]

end Integers

section Arrays

variable
  {limit : Nat}
  {items : List Value}

/-- Items are read in a row, up to the bracket that closes them. -/
theorem readItems?_compactItems
    (nonempty : items ≠ [])
    (spells : ∀ item ∈ items, Spells item.compactCharacters limit item) :
    ∃ documents,
      itemsWithin? limit documents = some items ∧
        ∀ depth rest,
          2 * (compactItems items).length ≤ depth + 1 →
          readItems? (depth + 1) (compactItems items ++ ']' :: rest) =
            some (documents, rest) := by
  induction items with
  | nil =>
      exact absurd rfl nonempty
  | cons item later inductionHypothesis =>
      obtain ⟨⟨first, behind, shape, -⟩, document, means, reads⟩ :=
        spells item List.mem_cons_self
      have positive : 0 < item.compactCharacters.length := by
        simp [shape]
      cases later with
      | nil =>
          refine ⟨[document], by simp [itemsWithin?, means], fun depth rest enough => ?_⟩
          rw [compactItems] at enough ⊢
          obtain _ | depth := depth
          · omega
          have read := reads depth (']' :: rest) enough (endsNumber_bracket rest)
          rw [readItems?, read]
          simp [skipBlank_cons ']' rest rfl]
      | cons next others =>
          obtain ⟨documents, laterMean, laterRead⟩ :=
            inductionHypothesis (List.cons_ne_nil next others)
              (fun other member => spells other (List.mem_cons_of_mem item member))
          refine
            ⟨document :: documents, by simp [itemsWithin?, means, laterMean],
              fun depth rest enough => ?_⟩
          have shape :
              compactItems (item :: next :: others) =
                item.compactCharacters ++ ',' :: compactItems (next :: others) := by
            simp [compactItems]
          rw [shape, List.length_append, List.length_cons] at enough
          obtain _ | depth := depth
          · omega
          have read :=
            reads depth (',' :: (compactItems (next :: others) ++ ']' :: rest))
              (by omega) (endsNumber_comma _)
          have readLater := laterRead depth rest (by omega)
          rw [shape, List.append_assoc, List.cons_append, readItems?, read]
          simp only [Option.bind_eq_bind, Option.bind_some,
            skipBlank_cons ',' _ rfl]
          rw [readLater]
          rfl

theorem compactItems_cons
    (item : Value)
    (later : List Value) :
    ∃ behind,
      compactItems (item :: later) = item.compactCharacters ++ behind := by
  cases later with
  | nil =>
      exact ⟨[], by simp [compactItems]⟩
  | cons next others =>
      exact ⟨',' :: compactItems (next :: others), by simp [compactItems]⟩

/-- Items that are each read back are read back as an array. -/
theorem spells_array
    (spells : ∀ item ∈ items, Spells item.compactCharacters limit item) :
    Spells (Value.array items).compactCharacters (limit + 1) (.array items) where
  opens :=
    ⟨'[', compactItems items ++ [']'], by rw [Value.compactCharacters]; rfl,
      by decide⟩
  reads := by
    rw [Value.compactCharacters]
    cases items with
    | nil =>
        refine ⟨.array [], by simp [Document.valueWithin?, itemsWithin?],
          fun depth rest _ _ => ?_⟩
        rw [compactItems]
        rfl
    | cons item later =>
        obtain ⟨⟨first, behind, shape, notBlank, notBracket⟩, -⟩ :=
          spells item List.mem_cons_self
        obtain ⟨tail, front⟩ := compactItems_cons item later
        obtain ⟨documents, means, reads⟩ :=
          readItems?_compactItems (List.cons_ne_nil item later) spells
        refine ⟨.array documents, by simp [Document.valueWithin?, means],
          fun depth rest enough _ => ?_⟩
        have goesOn :
            after? [']']
                (skipBlank (compactItems (item :: later) ++ ']' :: rest)) =
              none := by
          rw [front, shape, List.cons_append, List.cons_append,
            skipBlank_cons first _ notBlank]
          simp [after?, notBracket.symm]
        simp only [List.cons_append, List.append_assoc, List.nil_append,
          List.length_cons, List.length_append, List.length_nil] at enough ⊢
        obtain _ | depth := depth
        · omega
        have read := reads depth rest (by omega)
        rw [readValue?, skipBlank_cons _ _ rfl]
        simp [goesOn, read]

end Arrays

section Objects

variable
  {limit : Nat}
  {members : List (String × Value)}

/-- A quoted text in front of a colon is read as a name. -/
theorem readName?_quoted
    (name : String) :
    ∃ units,
      StringUnit.text? units = some name ∧
        ∀ rest, readName? (quoted name ++ ':' :: rest) = some (units, rest) := by
  obtain ⟨units, means, reads⟩ := readString?_quoted name
  refine ⟨units, means, fun rest => ?_⟩
  obtain ⟨behind, shape, read⟩ := reads (':' :: rest)
  rw [shape, readName?, skipBlank_cons _ _ rfl]
  simp [read, skipBlank_cons ':' rest rfl]

/-- Members are read in a row, up to the brace that closes them. -/
theorem readMembers?_compactMembers
    (nonempty : members ≠ [])
    (spells :
      ∀ member ∈ members, Spells member.2.compactCharacters limit member.2) :
    ∃ documents,
      membersWithin? limit documents = some members ∧
        ∀ depth rest,
          2 * (compactMembers members).length ≤ depth + 1 →
          readMembers? (depth + 1) (compactMembers members ++ '\x7d' :: rest) =
            some (documents, rest) := by
  induction members with
  | nil =>
      exact absurd rfl nonempty
  | cons member later inductionHypothesis =>
      obtain ⟨name, value⟩ := member
      obtain ⟨units, nameMeans, nameReads⟩ := readName?_quoted name
      obtain ⟨-, document, means, reads⟩ :=
        spells (name, value) List.mem_cons_self
      dsimp only at means reads
      cases later with
      | nil =>
          refine ⟨[(units, document)], by simp [membersWithin?, nameMeans, means],
            fun depth rest enough => ?_⟩
          rw [compactMembers] at enough ⊢
          rw [List.length_append, List.length_cons] at enough
          obtain _ | depth := depth
          · omega
          have read :=
            reads depth ('\x7d' :: rest) (by omega) (endsNumber_brace rest)
          rw [List.append_assoc, List.cons_append, readMembers?, nameReads]
          simp [read, skipBlank_cons '\x7d' rest rfl]
      | cons next others =>
          obtain ⟨documents, laterMean, laterRead⟩ :=
            inductionHypothesis (List.cons_ne_nil next others)
              (fun other member => spells other (List.mem_cons_of_mem _ member))
          refine
            ⟨(units, document) :: documents,
              by simp [membersWithin?, nameMeans, means, laterMean],
              fun depth rest enough => ?_⟩
          have shape :
              compactMembers ((name, value) :: next :: others) =
                quoted name ++ ':' :: value.compactCharacters ++
                  ',' :: compactMembers (next :: others) := by
            simp [compactMembers]
          simp only [shape, List.length_append, List.length_cons] at enough
          obtain _ | depth := depth
          · omega
          have read :=
            reads depth
              (',' :: (compactMembers (next :: others) ++ '\x7d' :: rest))
              (by omega) (endsNumber_comma _)
          have readLater := laterRead depth rest (by omega)
          simp only [shape, List.append_assoc, List.cons_append]
          rw [readMembers?, nameReads]
          simp only [Option.bind_eq_bind, Option.bind_some, read,
            skipBlank_cons ',' _ rfl]
          rw [readLater]
          rfl

theorem compactMembers_cons
    (member : String × Value)
    (later : List (String × Value)) :
    ∃ behind, compactMembers (member :: later) = '"' :: behind := by
  cases later with
  | nil =>
      exact ⟨_, by rw [compactMembers, quoted]; rfl⟩
  | cons next others =>
      exact ⟨_, by rw [compactMembers, quoted]; rfl; simp⟩

/-- Members whose values are each read back are read back as an object, but sorted. -/
theorem spells_object
    (spells :
      ∀ member ∈ members, Spells member.2.compactCharacters limit member.2) :
    Spells (Value.object members).compactCharacters (limit + 1)
      (.object (sortMembers members)) where
  opens :=
    ⟨'\x7b', compactMembers members ++ ['\x7d'],
      by rw [Value.compactCharacters]; rfl, by decide⟩
  reads := by
    rw [Value.compactCharacters]
    cases members with
    | nil =>
        refine ⟨.object [], by simp [Document.valueWithin?, membersWithin?],
          fun depth rest _ _ => ?_⟩
        rw [compactMembers]
        rfl
    | cons member later =>
        obtain ⟨behind, shape⟩ := compactMembers_cons member later
        obtain ⟨documents, means, reads⟩ :=
          readMembers?_compactMembers (List.cons_ne_nil member later) spells
        refine ⟨.object documents, by simp [Document.valueWithin?, means],
          fun depth rest enough _ => ?_⟩
        have goesOn :
            after? ['\x7d']
                (skipBlank (compactMembers (member :: later) ++ '\x7d' :: rest)) =
              none := by
          rw [shape, List.cons_append, skipBlank_cons _ _ rfl]
          rfl
        simp only [List.cons_append, List.append_assoc, List.nil_append,
          List.length_cons, List.length_append, List.length_nil] at enough ⊢
        obtain _ | depth := depth
        · omega
        have read := reads depth rest (by omega)
        rw [readValue?, skipBlank_cons _ _ rfl]
        simp [goesOn, read]

end Objects

section Sorting

variable
  {members : List (String × Value)}

/-- A member goes behind those whose names are all smaller. -/
theorem insertMember_of_forall_lt
    {name : String}
    (value : Value)
    (smaller : ∀ member ∈ members, member.1 < name) :
    insertMember name value members = members ++ [(name, value)] := by
  induction members with
  | nil =>
      rfl
  | cons member rest inductionHypothesis =>
      obtain ⟨other, present⟩ := member
      have below : other < name :=
        smaller (other, present) List.mem_cons_self
      have notAbove : ¬ name < other :=
        String.lt_asymm below
      have different : name ≠ other := by
        rintro rfl
        exact notAbove below
      rw [insertMember, if_neg different, if_neg notAbove,
        inductionHypothesis fun member isRest =>
          smaller member (List.mem_cons_of_mem _ isRest)]
      rfl

theorem sortMembers_append_singleton
    (members : List (String × Value))
    (member : String × Value) :
    sortMembers (members ++ [member]) =
      insertMember member.1 member.2 (sortMembers members) := by
  simp [sortMembers]

theorem sortMembers_of_sorted
    (sorted : members.Pairwise (·.1 < ·.1)) :
    sortMembers members = members := by
  induction members using List.reverseRecOn with
  | nil =>
      rfl
  | append_singleton members member inductionHypothesis =>
      obtain ⟨front, -, smaller⟩ := List.pairwise_append.mp sorted
      rw [sortMembers_append_singleton, inductionHypothesis front,
        insertMember_of_forall_lt]
      exact fun other isFront => smaller other isFront member List.mem_cons_self

/-- After a member was put into its place, its name finds it and others find what they did. -/
theorem member?_insertMember
    (name : String)
    (value : Value)
    (members : List (String × Value))
    (sought : String) :
    (Value.object (insertMember name value members)).member? sought =
      if name = sought then
        some value
      else
        (Value.object members).member? sought := by
  induction members with
  | nil =>
      by_cases same : name = sought <;> simp [insertMember, Value.member?, same]
  | cons member rest inductionHypothesis =>
      obtain ⟨other, present⟩ := member
      simp only [Value.member?] at inductionHypothesis ⊢
      rw [insertMember]
      split
      · rename_i sameName
        subst sameName
        by_cases same : name = sought <;> simp [same]
      · rename_i different
        split
        · by_cases same : name = sought <;> simp [same]
        · by_cases same : other = sought
          · have otherName : name ≠ sought := same ▸ different
            simp [same, otherName]
          · simpa [same] using inductionHypothesis

/-- Among sorted members a name finds the one that was written last. -/
theorem member?_sortMembers
    (members : List (String × Value))
    (sought : String) :
    (Value.object (sortMembers members)).member? sought =
      (Value.object members.reverse).member? sought := by
  induction members using List.reverseRecOn with
  | nil =>
      rfl
  | append_singleton members member inductionHypothesis =>
      rw [sortMembers_append_singleton, member?_insertMember,
        inductionHypothesis, List.reverse_append]
      by_cases same : member.1 = sought <;> simp [Value.member?, same]

end Sorting

/-- A value that its compact form keeps is read back from it. -/
theorem Value.IsKept.spells
    {limit : Nat}
    {value : Value}
    (kept : value.IsKept limit) :
    Spells value.compactCharacters limit value := by
  induction kept with
  | null =>
      exact spells_null
  | bool value =>
      exact spells_bool value
  | integer least greatest =>
      exact spells_integer least greatest
  | string text =>
      exact spells_string text
  | array _ inductionHypothesis =>
      exact spells_array inductionHypothesis
  | object sorted _ inductionHypothesis =>
      have spells := spells_object inductionHypothesis
      rwa [sortMembers_of_sorted sorted] at spells

/-- A text that is nothing but the spelling of a value is read as that value. -/
theorem Spells.ofTextWithin?
    {spelling : List Char}
    {limit : Nat}
    {value : Value}
    (spells : Spells spelling limit value) :
    Value.ofTextWithin? limit (String.ofList spelling) = some value := by
  obtain ⟨-, document, means, reads⟩ := spells
  have read :=
    reads (2 * spelling.length + 1) [] (by omega) endsNumber_nil
  rw [List.append_nil] at read
  rw [Value.ofTextWithin?, Document.ofText?, String.length_ofList,
    String.toList_ofList, read]
  simp [skipBlank, means]

end LibcConformance.Json
