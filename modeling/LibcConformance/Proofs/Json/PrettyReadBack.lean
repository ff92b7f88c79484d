import LibcConformance.Proofs.Json.ReadBack

namespace LibcConformance.Json

/-!
# Pretty forms are read back as documents

The pretty form puts a line break and blanks in front of each item and each
member.  A reader passes over them, so it answers a document that holds the
value which was written: the same leaves in arrays of the same length, and in
objects the same names in the same order.  Only floats are left out.
-/

/-- A value without floats, whose integers fit a word. -/
inductive Value.IsExact : Value → Prop
  | null :
      IsExact .null
  | bool
      (value : Bool) :
      IsExact (.bool value)
  | integer
      {value : Int}
      (least : -(2 ^ 63) ≤ value)
      (greatest : value < 2 ^ 64) :
      IsExact (.integer value)
  | string
      (text : String) :
      IsExact (.string text)
  | array
      {items : List Value}
      (exact : ∀ item ∈ items, IsExact item) :
      IsExact (.array items)
  | object
      {members : List (String × Value)}
      (exact : ∀ member ∈ members, IsExact member.2) :
      IsExact (.object members)

mutual

/-- A document that says a value item by item and member by member. -/
inductive Document.Holds : Document → Value → Prop
  | leaf
      {document : Document}
      {value : Value}
      (means : document.valueWithin? 0 = some value) :
      Document.Holds document value
  | array
      {documents : List Document}
      {items : List Value}
      (hold : List.Forall₂ Document.Holds documents items) :
      Document.Holds (.array documents) (.array items)
  | object
      {documents : List (List StringUnit × Document)}
      {members : List (String × Value)}
      (hold : MembersHold documents members) :
      Document.Holds (.object documents) (.object members)

/-- Members that say names and values one by one. -/
inductive MembersHold :
    List (List StringUnit × Document) → List (String × Value) → Prop
  | nil :
      MembersHold [] []
  | cons
      {units : List StringUnit}
      {name : String}
      {document : Document}
      {value : Value}
      {documents : List (List StringUnit × Document)}
      {members : List (String × Value)}
      (named : StringUnit.text? units = some name)
      (holds : Document.Holds document value)
      (later : MembersHold documents members) :
      MembersHold ((units, document) :: documents) ((name, value) :: members)

end

namespace Document.Holds

variable
  {document : Document}

theorem of_array
    {items : List Value}
    (holds : document.Holds (.array items)) :
    ∃ documents,
      document = .array documents ∧
        List.Forall₂ Document.Holds documents items := by
  cases holds with
  | array hold => exact ⟨_, rfl, hold⟩
  | leaf means =>
      cases document with
      | number number =>
          rw [valueWithin?, NumberText.value?] at means
          split_ifs at means <;> simp at means
      | _ => simp [valueWithin?] at means

theorem of_object
    {members : List (String × Value)}
    (holds : document.Holds (.object members)) :
    ∃ documents,
      document = .object documents ∧ MembersHold documents members := by
  cases holds with
  | object hold => exact ⟨_, rfl, hold⟩
  | leaf means =>
      cases document with
      | number number =>
          rw [valueWithin?, NumberText.value?] at means
          split_ifs at means <;> simp at means
      | _ => simp [valueWithin?] at means

end Document.Holds

/--
A text of a value: it starts a value, and it is read as a document that holds
the value by as many nested calls as twice its length.
-/
structure Shows
    (spelling : List Char)
    (value : Value) : Prop where
  opens :
    ∃ first behind,
      spelling = first :: behind ∧ isBlank first = false ∧ first ≠ ']'
  reads :
    ∃ document : Document,
      document.Holds value ∧
        ∀ depth rest,
          2 * spelling.length ≤ depth + 2 →
          EndsNumber rest →
          readValue? (depth + 1) (spelling ++ rest) = some (document, rest)

/-- A spelling of a leaf shows it. -/
theorem Spells.shows
    {spelling : List Char}
    {value : Value}
    (spells : Spells spelling 0 value) :
    Shows spelling value where
  opens := spells.opens
  reads := by
    obtain ⟨document, means, reads⟩ := spells.reads
    exact ⟨document, .leaf means, reads⟩

section Blanks

theorem skipBlank_lineBreak
    (level : Nat)
    (text : List Char) :
    skipBlank (lineBreak level ++ text) = skipBlank text := by
  refine List.dropWhile_append_of_pos fun character member => ?_
  rcases List.mem_cons.mp member with rfl | inBlanks
  · rfl
  · rw [List.eq_of_mem_replicate inBlanks]
    rfl

theorem endsNumber_lineBreak
    (level : Nat)
    (rest : List Char) :
    EndsNumber (lineBreak level ++ rest) := by
  simp [EndsNumber, lineBreak]

/-- A value is read from behind the blanks in front of it. -/
theorem readValue?_skipBlank
    {front text : List Char}
    (same : skipBlank front = skipBlank text)
    (depth : Nat) :
    readValue? depth front = readValue? depth text := by
  cases depth with
  | zero =>
      rw [readValue?, readValue?]
  | succ depth =>
      rw [readValue?, readValue?, same]

theorem readValue?_blank
    (depth : Nat)
    (text : List Char) :
    readValue? depth (' ' :: text) = readValue? depth text := by
  have same : skipBlank (' ' :: text) = skipBlank text :=
    rfl
  exact readValue?_skipBlank same depth

end Blanks

section Arrays

variable
  {level : Nat}
  {items : List Value}

/-- Items on lines of their own are read in a row, up to the bracket that closes them. -/
theorem readItems?_prettyItems
    (nonempty : items ≠ [])
    (shows : ∀ item ∈ items, Shows (item.prettyCharacters level) item) :
    ∃ documents,
      List.Forall₂ Document.Holds documents items ∧
        ∀ depth outer rest,
          2 * (prettyItems level items).length ≤ depth + 1 →
          readItems? (depth + 1)
              (prettyItems level items ++ (lineBreak outer ++ ']' :: rest)) =
            some (documents, rest) := by
  induction items with
  | nil =>
      exact absurd rfl nonempty
  | cons item later inductionHypothesis =>
      obtain ⟨⟨first, behind, opening, -⟩, document, holds, reads⟩ :=
        shows item List.mem_cons_self
      have positive : 0 < (item.prettyCharacters level).length := by
        simp [opening]
      cases later with
      | nil =>
          refine ⟨[document], .cons holds .nil, fun depth outer rest enough => ?_⟩
          rw [prettyItems] at enough ⊢
          rw [List.length_append] at enough
          obtain _ | depth := depth
          · omega
          have read :=
            reads depth (lineBreak outer ++ ']' :: rest) (by omega)
              (endsNumber_lineBreak outer _)
          rw [List.append_assoc, readItems?,
            readValue?_skipBlank (skipBlank_lineBreak level _), read]
          simp [skipBlank_lineBreak, skipBlank_cons ']' rest rfl]
      | cons next others =>
          obtain ⟨documents, laterHold, laterRead⟩ :=
            inductionHypothesis (List.cons_ne_nil next others)
              (fun other member => shows other (List.mem_cons_of_mem item member))
          refine
            ⟨document :: documents, .cons holds laterHold,
              fun depth outer rest enough => ?_⟩
          have shape :
              prettyItems level (item :: next :: others) =
                lineBreak level ++ item.prettyCharacters level ++
                  ',' :: prettyItems level (next :: others) := by
            simp [prettyItems]
          simp only [shape, List.length_append, List.length_cons] at enough
          obtain _ | depth := depth
          · omega
          have read :=
            reads depth
              (',' ::
                (prettyItems level (next :: others) ++
                  (lineBreak outer ++ ']' :: rest)))
              (by omega) (endsNumber_comma _)
          have readLater := laterRead depth outer rest (by omega)
          rw [shape, List.append_assoc, List.append_assoc, List.cons_append,
            readItems?, readValue?_skipBlank (skipBlank_lineBreak level _), read]
          simp only [Option.bind_eq_bind, Option.bind_some,
            skipBlank_cons ',' _ rfl]
          rw [readLater]
          rfl

theorem exists_prettyItems_cons
    (level : Nat)
    (item : Value)
    (later : List Value) :
    ∃ behind,
      prettyItems level (item :: later) =
        lineBreak level ++ (item.prettyCharacters level ++ behind) := by
  cases later with
  | nil =>
      exact ⟨[], by simp [prettyItems]⟩
  | cons next others =>
      exact
        ⟨',' :: prettyItems level (next :: others), by simp [prettyItems]⟩

/-- Items that are each shown are shown as an array over indented lines. -/
theorem shows_array
    (shows :
      ∀ item ∈ items, Shows (item.prettyCharacters (level + 1)) item) :
    Shows ((Value.array items).prettyCharacters level) (.array items) := by
  cases items with
  | nil =>
      rw [Value.prettyCharacters]
      · exact
          ⟨⟨'[', [']'], by simp [Value.compactCharacters, compactItems], by decide⟩,
            .array [], .array .nil, fun depth rest _ _ => by
              simp only [Value.compactCharacters, compactItems]
              rfl⟩
      · simp
      · simp
  | cons item later =>
      obtain ⟨⟨first, behind, opening, notBlank, notBracket⟩, -⟩ :=
        shows item List.mem_cons_self
      obtain ⟨tail, front⟩ := exists_prettyItems_cons (level + 1) item later
      obtain ⟨documents, hold, reads⟩ :=
        readItems?_prettyItems (List.cons_ne_nil item later) shows
      rw [Value.prettyCharacters]
      refine
        ⟨⟨'[', _, rfl, by decide⟩, .array documents, .array hold,
          fun depth rest enough _ => ?_⟩
      have goesOn :
          after? [']']
              (skipBlank
                (prettyItems (level + 1) (item :: later) ++
                  (lineBreak level ++ ']' :: rest))) =
            none := by
        rw [front, List.append_assoc, skipBlank_lineBreak, opening,
          List.cons_append, List.cons_append, skipBlank_cons first _ notBlank]
        simp [after?, notBracket.symm]
      simp only [List.cons_append, List.append_assoc, List.nil_append,
        List.length_cons, List.length_append, List.length_nil] at enough ⊢
      obtain _ | depth := depth
      · omega
      have read := reads depth level rest (by omega)
      rw [readValue?, skipBlank_cons _ _ rfl]
      simp [goesOn, read]

end Arrays

section Objects

variable
  {level : Nat}
  {members : List (String × Value)}

theorem readName?_lineBreak
    (level : Nat)
    (text : List Char) :
    readName? (lineBreak level ++ text) = readName? text := by
  rw [readName?, readName?, skipBlank_lineBreak]

/-- Members on lines of their own are read in a row, up to the brace that closes them. -/
theorem readMembers?_prettyMembers
    (nonempty : members ≠ [])
    (shows :
      ∀ member ∈ members, Shows (member.2.prettyCharacters level) member.2) :
    ∃ documents,
      MembersHold documents members ∧
        ∀ depth outer rest,
          2 * (prettyMembers level members).length ≤ depth + 1 →
          readMembers? (depth + 1)
              (prettyMembers level members ++
                (lineBreak outer ++ '\x7d' :: rest)) =
            some (documents, rest) := by
  induction members with
  | nil =>
      exact absurd rfl nonempty
  | cons member later inductionHypothesis =>
      obtain ⟨name, value⟩ := member
      obtain ⟨units, named, nameReads⟩ := readName?_quoted name
      obtain ⟨-, document, holds, reads⟩ := shows (name, value) List.mem_cons_self
      dsimp only at holds reads
      cases later with
      | nil =>
          refine
            ⟨[(units, document)], .cons named holds .nil,
              fun depth outer rest enough => ?_⟩
          simp only [prettyMembers, List.length_append, List.length_cons] at enough
          obtain _ | depth := depth
          · omega
          have read :=
            reads depth (lineBreak outer ++ '\x7d' :: rest) (by omega)
              (endsNumber_lineBreak outer _)
          simp only [prettyMembers, List.append_assoc, List.cons_append,
            List.nil_append]
          rw [readMembers?, readName?_lineBreak, nameReads]
          simp only [Option.bind_eq_bind, Option.bind_some]
          rw [readValue?_blank, read]
          simp [skipBlank_lineBreak, skipBlank_cons '\x7d' rest rfl]
      | cons next others =>
          obtain ⟨documents, laterHold, laterRead⟩ :=
            inductionHypothesis (List.cons_ne_nil next others)
              (fun other member => shows other (List.mem_cons_of_mem _ member))
          refine
            ⟨(units, document) :: documents, .cons named holds laterHold,
              fun depth outer rest enough => ?_⟩
          have shape :
              prettyMembers level ((name, value) :: next :: others) =
                lineBreak level ++ quoted name ++ [':', ' '] ++
                  value.prettyCharacters level ++
                    ',' :: prettyMembers level (next :: others) := by
            simp [prettyMembers]
          simp only [shape, List.length_append, List.length_cons] at enough
          obtain _ | depth := depth
          · omega
          have read :=
            reads depth
              (',' ::
                (prettyMembers level (next :: others) ++
                  (lineBreak outer ++ '\x7d' :: rest)))
              (by omega) (endsNumber_comma _)
          have readLater := laterRead depth outer rest (by omega)
          simp only [shape, List.append_assoc, List.cons_append, List.nil_append]
          rw [readMembers?, readName?_lineBreak, nameReads]
          simp only [Option.bind_eq_bind, Option.bind_some]
          rw [readValue?_blank, read]
          simp only [Option.bind_some, skipBlank_cons ',' _ rfl]
          rw [readLater]
          rfl

theorem exists_prettyMembers_cons
    (level : Nat)
    (member : String × Value)
    (later : List (String × Value)) :
    ∃ behind,
      prettyMembers level (member :: later) =
        lineBreak level ++ (quoted member.1 ++ behind) := by
  cases later with
  | nil =>
      exact
        ⟨[':', ' '] ++ member.2.prettyCharacters level, by simp [prettyMembers]⟩
  | cons next others =>
      exact
        ⟨[':', ' '] ++ member.2.prettyCharacters level ++
            ',' :: prettyMembers level (next :: others),
          by simp [prettyMembers]⟩

/-- Members whose values are each shown are shown as an object over indented lines. -/
theorem shows_object
    (shows :
      ∀ member ∈ members,
        Shows (member.2.prettyCharacters (level + 1)) member.2) :
    Shows ((Value.object members).prettyCharacters level) (.object members) := by
  cases members with
  | nil =>
      rw [Value.prettyCharacters]
      · exact
          ⟨⟨'\x7b', ['\x7d'], by simp [Value.compactCharacters, compactMembers],
              by decide⟩,
            .object [], .object .nil, fun depth rest _ _ => by
              simp only [Value.compactCharacters, compactMembers]
              rfl⟩
      · simp
      · simp
  | cons member later =>
      obtain ⟨tail, front⟩ := exists_prettyMembers_cons (level + 1) member later
      obtain ⟨documents, hold, reads⟩ :=
        readMembers?_prettyMembers (List.cons_ne_nil member later) shows
      rw [Value.prettyCharacters]
      refine
        ⟨⟨'\x7b', _, rfl, by decide⟩, .object documents, .object hold,
          fun depth rest enough _ => ?_⟩
      have goesOn :
          after? ['\x7d']
              (skipBlank
                (prettyMembers (level + 1) (member :: later) ++
                  (lineBreak level ++ '\x7d' :: rest))) =
            none := by
        rw [front, List.append_assoc, skipBlank_lineBreak, quoted,
          List.cons_append, List.cons_append, List.cons_append,
          skipBlank_cons _ _ rfl]
        rfl
      simp only [List.cons_append, List.append_assoc, List.nil_append,
        List.length_cons, List.length_append, List.length_nil] at enough ⊢
      obtain _ | depth := depth
      · omega
      have read := reads depth level rest (by omega)
      rw [readValue?, skipBlank_cons _ _ rfl]
      simp [goesOn, read]

end Objects

theorem prettyCharacters_of_leaf
    {value : Value}
    (notArray : ∀ items, value ≠ .array items)
    (notObject : ∀ members, value ≠ .object members)
    (level : Nat) :
    value.prettyCharacters level = value.compactCharacters := by
  rw [Value.prettyCharacters]
  · exact fun item rest => notArray (item :: rest)
  · exact fun member rest => notObject (member :: rest)

/-- The pretty form of a value without floats shows it at every level. -/
theorem Value.IsExact.shows
    {value : Value}
    (exact : value.IsExact)
    (level : Nat) :
    Shows (value.prettyCharacters level) value := by
  induction exact generalizing level with
  | null =>
      rw [prettyCharacters_of_leaf (by simp) (by simp)]
      exact spells_null.shows
  | bool value =>
      rw [prettyCharacters_of_leaf (by simp) (by simp)]
      exact (spells_bool value).shows
  | integer least greatest =>
      rw [prettyCharacters_of_leaf (by simp) (by simp)]
      exact (spells_integer least greatest).shows
  | string text =>
      rw [prettyCharacters_of_leaf (by simp) (by simp)]
      exact (spells_string text).shows
  | array _ inductionHypothesis =>
      exact shows_array fun item member => inductionHypothesis item member (level + 1)
  | object _ inductionHypothesis =>
      exact
        shows_object fun member isMember =>
          inductionHypothesis member isMember (level + 1)

/-- The pretty form of a value without floats is read as a document that holds it. -/
theorem Value.IsExact.ofText?_pretty
    {value : Value}
    (exact : value.IsExact) :
    ∃ document,
      Document.ofText? value.pretty = some document ∧ document.Holds value := by
  obtain ⟨-, document, holds, reads⟩ := exact.shows 0
  have read :=
    reads (2 * (value.prettyCharacters 0).length + 1) [] (by omega)
      endsNumber_nil
  rw [List.append_nil] at read
  refine ⟨document, ?_, holds⟩
  rw [Document.ofText?, Value.pretty, String.length_ofList,
    String.toList_ofList, read]
  simp [skipBlank]

end LibcConformance.Json
