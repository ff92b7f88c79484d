import LibcConformance.Proofs.Json.CompactLine
import LibcConformance.Proofs.Log.LineCheck

namespace LibcConformance.Log

/-!
# Entries are read back from their lines

The line of an entry is an object whose fields stand in a fixed order; read
back, they are sorted, but each is still found by its name.  So a line has no
faults and gives its entry again, as long as the trace id has its two colons
and the details are a value that its compact form keeps.  Every control
character is escaped in the line, and UTF-8 makes none of the others.
-/

/-- An entry that its line keeps. -/
structure Entry.IsKept
    (entry : Entry) : Prop where
  traceId : [':', ':'] <:+: entry.traceId.toList
  details_notNull : entry.details ≠ some .null
  details : ∀ details ∈ entry.details, details.IsKept 126

/-- An object in which the name of every field finds what an entry has there. -/
structure Entry.IsFoundIn
    (entry : Entry)
    (object : Json.Value) : Prop where
  timestamp : object.member? "timestamp" = some (.string entry.timestamp)
  traceId : object.member? "trace_id" = some (.string entry.traceId)
  level : object.member? "level" = some (.string entry.level.name)
  event : object.member? "event" = some (.string entry.event)
  family : object.member? "api_family" = entry.family.map .string
  symbol : object.member? "symbol" = entry.symbol.map .string
  result : object.member? "outcome" = entry.result.map (.string ·.name)
  artifacts :
    object.member? "artifact_refs" = entry.artifacts.map (.array <| ·.map .string)
  details : object.member? "details" = entry.details

namespace Entry

variable
  {entry : Entry}

section Fields

theorem member?_append
    (front back : List (String × Json.Value))
    (sought : String) :
    (Json.Value.object (front ++ back)).member? sought =
      ((Json.Value.object front).member? sought).or
        ((Json.Value.object back).member? sought) := by
  simp [Json.Value.member?, List.find?_append, Option.map_or]

theorem member?_field
    {Content : Type}
    (name : String)
    (encode : Content → Json.Value)
    (content : Option Content)
    (sought : String) :
    (Json.Value.object (field name encode content).reverse).member? sought =
      if name = sought then content.map encode else none := by
  by_cases same : name = sought <;>
    cases content <;> simp [field, Json.Value.member?, same]

/-- Sorting the fields of an entry loses none of them. -/
theorem isFoundIn_sortMembers
    (entry : Entry) :
    entry.IsFoundIn (.object (Json.sortMembers entry.fields)) := by
  constructor
  all_goals
    rw [Json.member?_sortMembers, fields]
    simp only [List.reverse_append, member?_append, member?_field]
    simp [Json.Value.member?]

theorem mem_field_iff
    {Content : Type}
    (name : String)
    (encode : Content → Json.Value)
    (content : Option Content)
    (member : String × Json.Value) :
    member ∈ field name encode content ↔
      ∃ inside ∈ content, member = (name, encode inside) := by
  cases content <;> simp [field]

/-- Every field of an entry is kept if its details are. -/
theorem isKept_of_mem_fields
    (keptDetails : ∀ details ∈ entry.details, details.IsKept 126)
    {member : String × Json.Value}
    (isField : member ∈ entry.fields) :
    member.2.IsKept 126 := by
  simp only [fields, List.mem_append, List.mem_cons, List.not_mem_nil,
    or_false, mem_field_iff, or_assoc] at isField
  rcases isField with
    rfl | rfl | rfl | rfl | ⟨_, -, rfl⟩ | ⟨_, -, rfl⟩ | ⟨_, -, rfl⟩ |
      ⟨artifacts, -, rfl⟩ | ⟨details, isDetails, rfl⟩
  case inr.inr.inr.inr.inr.inr.inr.inl =>
    refine .array fun item isItem => ?_
    obtain ⟨path, -, rfl⟩ := List.mem_map.mp isItem
    exact .string path
  case inr.inr.inr.inr.inr.inr.inr.inr =>
    exact keptDetails details isDetails
  all_goals exact .string _

end Fields

section Reading

variable
  {members : List (String × Json.Value)}

theorem givesOptional_map
    {Content : Type}
    {Gives : Json.Value → Content → Prop}
    {encode : Content → Json.Value}
    (content : Option Content)
    (notNull : ∀ inside, encode inside ≠ .null)
    (gives : ∀ inside, Gives (encode inside) inside) :
    GivesOptional Gives (content.map encode) content := by
  cases content with
  | none =>
      exact .missing
  | some inside =>
      exact .present (notNull inside) (gives inside)

/-- An object in which an entry is found gives that entry, but for details that are null. -/
theorem IsFoundIn.exists_isGivenBy
    (found : entry.IsFoundIn (.object members)) :
    ∃ details,
      (entry.details ≠ some .null → details = entry.details) ∧
        IsGivenBy { entry with details } (.object members) := by
  have family :
      GivesOptional (fun given text => given = .string text)
        ((Json.Value.object members).member? "api_family") entry.family := by
    rw [found.family]
    exact givesOptional_map _ (by simp) (fun _ => rfl)
  have symbol :
      GivesOptional (fun given text => given = .string text)
        ((Json.Value.object members).member? "symbol") entry.symbol := by
    rw [found.symbol]
    exact givesOptional_map _ (by simp) (fun _ => rfl)
  have result :
      GivesOptional (fun given result => GivesName given result.name)
        ((Json.Value.object members).member? "outcome") entry.result := by
    rw [found.result]
    exact givesOptional_map _ (by simp) (fun result => .text result.name)
  have artifacts :
      GivesOptional (fun given texts => given = .array (texts.map .string))
        ((Json.Value.object members).member? "artifact_refs") entry.artifacts := by
    rw [found.artifacts]
    exact givesOptional_map _ (by simp) (fun _ => rfl)
  have hasDetails :
      ∃ details,
        (entry.details ≠ some .null → details = entry.details) ∧
        GivesOptional (fun given details => given = details)
          ((Json.Value.object members).member? "details") details := by
    rw [found.details]
    cases entry.details with
    | none =>
        exact ⟨none, fun _ => rfl, .missing⟩
    | some details =>
        by_cases isNull : details = .null
        · exact ⟨none, fun notNull => absurd (isNull ▸ rfl) notNull, isNull ▸ .null⟩
        · exact ⟨some details, fun _ => rfl, .present isNull rfl⟩
  obtain ⟨details, sameDetails, givesDetails⟩ := hasDetails
  exact
    ⟨details, sameDetails,
      { timestamp := found.timestamp
        traceId := found.traceId
        level := ⟨_, found.level, .text _⟩
        event := found.event
        family := family
        symbol := symbol
        result := result
        artifacts := artifacts
        details := givesDetails }⟩

theorem IsFoundIn.isGivenBy
    (found : entry.IsFoundIn (.object members))
    (kept : entry.IsKept) :
    entry.IsGivenBy (.object members) := by
  obtain ⟨details, sameDetails, given⟩ := found.exists_isGivenBy
  rwa [sameDetails kept.details_notNull] at given

theorem IsFoundIn.fieldFaults_eq_nil
    (found : entry.IsFoundIn (.object members))
    (kept : entry.IsKept) :
    fieldFaults (.object members) = [] :=
  (found.isGivenBy kept).fieldFaults_eq_nil_iff.mpr kept.traceId

theorem IsFoundIn.ofValue?_eq
    (found : entry.IsFoundIn (.object members))
    (kept : entry.IsKept) :
    ofValue? (.object members) = some entry :=
  Entry.ofValue?_object_eq_some_iff.mpr (found.isGivenBy kept)

end Reading

section Lines

/-- The line of an entry spells an object in which each of its fields is found. -/
theorem spells_line
    (keptDetails : ∀ details ∈ entry.details, details.IsKept 126) :
    Json.Spells entry.line.toList 127
      (.object (Json.sortMembers entry.fields)) := by
  rw [line, Json.Value.compact, String.toList_ofList]
  exact
    Json.spells_object fun member isField =>
      (isKept_of_mem_fields keptDetails isField).spells

/-- The object of an entry whose details are kept is read back from its line. -/
theorem ofText?_line
    (keptDetails : ∀ details ∈ entry.details, details.IsKept 126) :
    Json.Value.ofText? entry.line =
      some (.object (Json.sortMembers entry.fields)) := by
  have spelled := (spells_line keptDetails).ofTextWithin?
  rwa [String.ofList_toList] at spelled

theorem noControl_line
    (entry : Entry) :
    Json.NoControl entry.line.toList := by
  rw [line, Json.Value.compact, String.toList_ofList]
  exact entry.toValue.noControl_compactCharacters

end Lines

end Entry

/-- UTF-8 has no byte below the blank for a character that is not below it. -/
theorem printed_of_mem_utf8EncodeChar
    {character : Char}
    (printed : 0x20 ≤ character.toNat)
    {byte : UInt8}
    (member : byte ∈ String.utf8EncodeChar character) :
    0x20 ≤ byte.toNat := by
  have value : character.val.toNat = character.toNat :=
    rfl
  rw [String.utf8EncodeChar, value] at member
  split_ifs at member
  all_goals
    simp only [List.mem_cons, List.not_mem_nil, or_false] at member
  · rw [member, UInt8.toNat_ofNat']
    omega
  · rcases member with rfl | rfl
    all_goals
      rw [UInt8.toNat_ofNat']
      omega
  · rcases member with rfl | rfl | rfl
    all_goals
      rw [UInt8.toNat_ofNat']
      omega
  · rcases member with rfl | rfl | rfl | rfl
    all_goals
      rw [UInt8.toNat_ofNat']
      omega

/--
An entry is read back from its line without a fault, wherever the line stands,
and the line has no byte below the blank.
-/
theorem validateLine_line
    (entry : Entry)
    (kept : entry.IsKept) :
    (∀ number, validateLine entry.line number = .ok entry) ∧
      ∀ byte ∈ Bytes.ofText entry.line, 0x20 ≤ byte.toNat := by
  constructor
  · intro number
    have found := entry.isFoundIn_sortMembers
    have read :
        Json.Value.ofText? entry.line =
          some (.object (Json.sortMembers entry.fields)) :=
      Entry.ofText?_line kept.details
    simp only [validateLine, read, checkValue, found.fieldFaults_eq_nil kept,
      found.ofValue?_eq kept]
    rfl
  · intro byte member
    obtain ⟨character, inLine, encoded⟩ := List.mem_flatMap.mp member
    exact
      printed_of_mem_utf8EncodeChar (entry.noControl_line character inLine)
        encoded

/--
Controls, quotes, text beyond ASCII, the ends of the range of integers and an
empty name come back from a line.
-/
theorem validateLine_line_controls :
    let entry : Entry :=
      { timestamp := "\x00\n\"\\", traceId := "é::", level := .warn
        event := "\x1f\x7f😀", family := some "", symbol := none
        result := some .fail, artifacts := some ["a\tb", "/"]
        details :=
          some <| .object
            [("", .array [.integer (-(2 ^ 63)), .integer (2 ^ 64 - 1), .null]),
              ("\n", .object [("x", .bool true), ("é", .string "\"")])] }
    entry.IsKept ∧
      validateLine entry.line 7 = .ok entry ∧
        ∀ byte ∈ Bytes.ofText entry.line, 0x20 ≤ byte.toNat := by
  intro entry
  have inner :
      (Json.Value.object
        [("x", .bool true), ("é", .string "\"")]).IsKept 125 := by
    refine .object (by decide) fun member isMember => ?_
    simp only [List.mem_cons, List.not_mem_nil, or_false] at isMember
    rcases isMember with rfl | rfl
    · exact .bool true
    · exact .string "\""
  have numbers :
      (Json.Value.array
        [.integer (-(2 ^ 63)), .integer (2 ^ 64 - 1), .null]).IsKept 125 := by
    refine .array fun item isItem => ?_
    simp only [List.mem_cons, List.not_mem_nil, or_false] at isItem
    rcases isItem with rfl | rfl | rfl
    · exact .integer (by decide) (by decide)
    · exact .integer (by decide) (by decide)
    · exact .null
  have kept : entry.IsKept := by
    refine ⟨⟨['é'], [], by decide⟩, by simp [entry], fun details isDetails => ?_⟩
    obtain rfl := Option.some.inj isDetails
    refine .object (by decide) fun member isMember => ?_
    simp only [List.mem_cons, List.not_mem_nil, or_false] at isMember
    rcases isMember with rfl | rfl
    · exact numbers
    · exact inner
  obtain ⟨read, printed⟩ := validateLine_line entry kept
  exact ⟨kept, read 7, printed⟩

end LibcConformance.Log
