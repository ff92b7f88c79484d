import LibcConformance.Log.Entry

namespace LibcConformance

/-!
# The shape of an entry

A value gives an entry if its fields do, each by a rule of its own: in an
object they are found by name, in an array by place.  A level or a result may
be given by its name or by an object of that name alone, and the fields that
need not be set may be missing or null.  Reading an entry from an object
answers what the object gives.
-/

namespace Json.Value

theorem text?_eq_some_iff
    (value : Value)
    (text : String) :
    value.text? = some text ↔ value = .string text := by
  cases value <;> simp [Value.text?]

theorem texts?_map_string
    (texts : List String) :
    (Value.array (texts.map .string)).texts? = some texts := by
  rw [Value.texts?]
  induction texts with
  | nil =>
      rfl
  | cons text rest inductionHypothesis =>
      simp [Value.text?, inductionHypothesis]

theorem texts?_eq_some_iff
    (value : Value)
    (texts : List String) :
    value.texts? = some texts ↔ value = .array (texts.map .string) := by
  constructor
  · intro isRead
    cases value with
    | array items =>
        rw [Value.texts?] at isRead
        congr 1
        induction items generalizing texts with
        | nil =>
            obtain rfl : [] = texts := by simpa using isRead
            rfl
        | cons item rest inductionHypothesis =>
            simp only [List.mapM_cons, Option.pure_def, Option.bind_eq_bind,
              Option.bind_eq_some_iff, Option.some.injEq] at isRead
            obtain ⟨text, isText, later, areTexts, rfl⟩ := isRead
            rw [List.map_cons, ← inductionHypothesis later areTexts,
              (text?_eq_some_iff item text).mp isText]
    | _ => simp [Value.texts?] at isRead
  · rintro rfl
    exact texts?_map_string texts

end Json.Value

namespace Log

section Shape

/-- The names of the fields of an entry, in order. -/
def Entry.fieldNames : List String :=
  ["timestamp", "trace_id", "level", "event", "api_family", "symbol", "outcome",
    "artifact_refs", "details"]

/--
What a value has for a field: the member of its name in an object, the item of
its place in an array of as many items as there are fields.
-/
def fieldIn?
    (value : Json.Value)
    (name : String) : Option Json.Value :=
  match value with
  | .object _ => value.member? name
  | .array items =>
      if items.length = Entry.fieldNames.length then
        items[Entry.fieldNames.idxOf name]?
      else
        none
  | _ => none

theorem fieldIn?_object
    (members : List (String × Json.Value))
    (name : String) :
    fieldIn? (.object members) name = (Json.Value.object members).member? name :=
  rfl

/-- A value that gives a name: its text, or an object of it alone, without content. -/
inductive GivesName : Json.Value → String → Prop
  | text
      (name : String) :
      GivesName (.string name) name
  | member
      (name : String) :
      GivesName (.object [(name, .null)]) name

/-- A field that may be missing or null, and has a meaning otherwise. -/
inductive GivesOptional
    {Content : Type}
    (Gives : Json.Value → Content → Prop) :
    Option Json.Value → Option Content → Prop
  | missing :
      GivesOptional Gives none none
  | null :
      GivesOptional Gives (some .null) none
  | present
      {value : Json.Value}
      {content : Content}
      (notNull : value ≠ .null)
      (gives : Gives value content) :
      GivesOptional Gives (some value) (some content)

/-- A value whose fields give an entry; all other fields are passed over. -/
structure Entry.IsGivenBy
    (entry : Entry)
    (value : Json.Value) : Prop where
  timestamp : fieldIn? value "timestamp" = some (.string entry.timestamp)
  traceId : fieldIn? value "trace_id" = some (.string entry.traceId)
  level :
    ∃ given, fieldIn? value "level" = some given ∧ GivesName given entry.level.name
  event : fieldIn? value "event" = some (.string entry.event)
  family :
    GivesOptional (fun given text => given = .string text)
      (fieldIn? value "api_family") entry.family
  symbol :
    GivesOptional (fun given text => given = .string text)
      (fieldIn? value "symbol") entry.symbol
  result :
    GivesOptional (fun given result => GivesName given result.name)
      (fieldIn? value "outcome") entry.result
  artifacts :
    GivesOptional (fun given texts => given = .array (texts.map .string))
      (fieldIn? value "artifact_refs") entry.artifacts
  details :
    GivesOptional (fun given details => given = details)
      (fieldIn? value "details") entry.details

end Shape

section Reading

variable
  {value : Json.Value}
  {entry : Entry}

theorem Entry.variantName?_eq_some_iff
    {name : String} :
    variantName? value = some name ↔ GivesName value name := by
  constructor
  · intro isRead
    unfold variantName? at isRead
    split at isRead
    · obtain rfl := Option.some.inj isRead
      exact .text _
    · obtain rfl := Option.some.inj isRead
      exact .member _
    · cases isRead
  · rintro (_ | _) <;> rfl

theorem Entry.optionalField?_eq_some_iff
    {Content : Type}
    {read : Json.Value → Option Content}
    {Gives : Json.Value → Content → Prop}
    (reads : ∀ value content, read value = some content ↔ Gives value content)
    {found : Option Json.Value}
    {content : Option Content} :
    optionalField? read found = some content ↔
      GivesOptional Gives found content := by
  constructor
  · intro isRead
    unfold optionalField? at isRead
    split at isRead
    · obtain rfl := Option.some.inj isRead
      exact .missing
    · obtain rfl := Option.some.inj isRead
      exact .null
    · rename_i value notNull
      obtain ⟨inside, isInside, rfl⟩ := Option.map_eq_some_iff.mp isRead
      exact .present (by simpa using notNull) ((reads value inside).mp isInside)
  · rintro (_ | _ | ⟨notNull, gives⟩)
    · rfl
    · rfl
    · rw [optionalField?, (reads _ _).mpr gives, Option.map_some]
      simpa using notNull

theorem Level.ofName?_eq_some_iff
    {name : String}
    {level : Level} :
    Level.ofName? name = some level ↔ level.name = name := by
  constructor
  · intro found
    simpa using List.find?_some found
  · rintro rfl
    exact level.ofName?_name

theorem Result.ofName?_eq_some_iff
    {name : String}
    {result : Result} :
    Result.ofName? name = some result ↔ result.name = name := by
  constructor
  · intro found
    simpa using List.find?_some found
  · rintro rfl
    exact result.ofName?_name

theorem Entry.resultOfVariant?_eq_some_iff
    (value : Json.Value)
    (result : Result) :
    (variantName? value).bind Result.ofName? = some result ↔
      GivesName value result.name := by
  simp only [Option.bind_eq_some_iff, Result.ofName?_eq_some_iff,
    variantName?_eq_some_iff, exists_eq_right']

/-- Reading an entry from an object answers the entry that the object gives. -/
theorem Entry.ofValue?_object_eq_some_iff
    {members : List (String × Json.Value)} :
    Entry.ofValue? (.object members) = some entry ↔
      entry.IsGivenBy (.object members) := by
  have detailsIff
      (value details : Json.Value) :
      some value = some details ↔ value = details :=
    Option.some_inj
  constructor
  · intro isRead
    rw [ofValue?] at isRead
    obtain ⟨inTimestamp, hasTimestamp, isRead⟩ := Option.bind_eq_some_iff.mp isRead
    obtain ⟨timestamp, isTimestamp, isRead⟩ := Option.bind_eq_some_iff.mp isRead
    obtain ⟨inTraceId, hasTraceId, isRead⟩ := Option.bind_eq_some_iff.mp isRead
    obtain ⟨traceId, isTraceId, isRead⟩ := Option.bind_eq_some_iff.mp isRead
    obtain ⟨inLevel, hasLevel, isRead⟩ := Option.bind_eq_some_iff.mp isRead
    obtain ⟨name, isName, isRead⟩ := Option.bind_eq_some_iff.mp isRead
    obtain ⟨level, isLevel, isRead⟩ := Option.bind_eq_some_iff.mp isRead
    obtain ⟨inEvent, hasEvent, isRead⟩ := Option.bind_eq_some_iff.mp isRead
    obtain ⟨event, isEvent, isRead⟩ := Option.bind_eq_some_iff.mp isRead
    obtain ⟨family, isFamily, isRead⟩ := Option.bind_eq_some_iff.mp isRead
    obtain ⟨symbol, isSymbol, isRead⟩ := Option.bind_eq_some_iff.mp isRead
    obtain ⟨result, isResult, isRead⟩ := Option.bind_eq_some_iff.mp isRead
    obtain ⟨artifacts, areArtifacts, isRead⟩ := Option.bind_eq_some_iff.mp isRead
    obtain ⟨details, areDetails, isRead⟩ := Option.bind_eq_some_iff.mp isRead
    obtain rfl := Option.some.inj isRead
    rw [Json.Value.text?_eq_some_iff] at isTimestamp isTraceId isEvent
    obtain rfl := Level.ofName?_eq_some_iff.mp isLevel
    subst isTimestamp isTraceId isEvent
    exact
      { timestamp := hasTimestamp
        traceId := hasTraceId
        level := ⟨inLevel, hasLevel, variantName?_eq_some_iff.mp isName⟩
        event := hasEvent
        family :=
          (optionalField?_eq_some_iff Json.Value.text?_eq_some_iff).mp isFamily
        symbol :=
          (optionalField?_eq_some_iff Json.Value.text?_eq_some_iff).mp isSymbol
        result :=
          (optionalField?_eq_some_iff resultOfVariant?_eq_some_iff).mp isResult
        artifacts :=
          (optionalField?_eq_some_iff Json.Value.texts?_eq_some_iff).mp areArtifacts
        details := (optionalField?_eq_some_iff detailsIff).mp areDetails }
  · rintro
      ⟨hasTimestamp, hasTraceId, ⟨given, hasLevel, isName⟩, hasEvent, isFamily,
        isSymbol, isResult, areArtifacts, areDetails⟩
    have family :=
      (optionalField?_eq_some_iff Json.Value.text?_eq_some_iff).mpr isFamily
    have symbol :=
      (optionalField?_eq_some_iff Json.Value.text?_eq_some_iff).mpr isSymbol
    have result :=
      (optionalField?_eq_some_iff resultOfVariant?_eq_some_iff).mpr isResult
    have artifacts :=
      (optionalField?_eq_some_iff Json.Value.texts?_eq_some_iff).mpr areArtifacts
    have details := (optionalField?_eq_some_iff detailsIff).mpr areDetails
    rw [fieldIn?_object] at hasTimestamp hasTraceId hasLevel hasEvent
    rw [fieldIn?_object] at family symbol result artifacts details
    simp only [ofValue?, hasTimestamp, hasTraceId, hasLevel, hasEvent, family,
      symbol, result, artifacts, details, variantName?_eq_some_iff.mpr isName,
      Json.Value.text?, Level.ofName?_name, Option.bind_eq_bind,
      Option.bind_some, Option.pure_def]

end Reading

end Log

end LibcConformance
