import LibcConformance.Log.Validation
import LibcConformance.Proofs.Json.ReadBack
import LibcConformance.Proofs.Log.Schema

namespace LibcConformance.Log

/-!
# The check of a line

The check of a line looks at the fields of an object before it reads the entry.
It finds each fault of these fields once, in a fixed order, and none in an
object that gives an entry, but for a trace id without two colons.  It takes no
array for an entry, although an array of all fields gives one.
-/

section Faults

/-- A fault of the fields of an object, and the field that it is reported for. -/
inductive FaultIn
    (object : Json.Value) : String → Fault → Prop
  | missing
      {name : String}
      (required : name ∈ ["timestamp", "trace_id", "level", "event"])
      (absent : object.member? name = none) :
      FaultIn object name (.missingField name)
  | level
      {name : String}
      (given : object.member? "level" = some (.string name))
      (unknown : name ∉ ["trace", "debug", "info", "warn", "error"]) :
      FaultIn object "level" (.unknownLevel name)
  | result
      {name : String}
      (given : object.member? "outcome" = some (.string name))
      (unknown : name ∉ ["pass", "fail", "error"]) :
      FaultIn object "outcome" (.unknownResult name)
  | traceId
      {text : String}
      (given : object.member? "trace_id" = some (.string text))
      (malformed : ¬[':', ':'] <:+: text.toList) :
      FaultIn object "trace_id" (.malformedTraceId text)

/-- The place of a fault among those that are reported for one line. -/
def Fault.place : Fault → Nat
  | .missingField name => ["timestamp", "trace_id", "level", "event"].idxOf name
  | .unknownLevel _ => 4
  | .unknownResult _ => 5
  | .malformedTraceId _ => 6
  | .notJson | .notObject | .notEntry => 7

/-- What is reported for a line that is refused: fields and their faults. -/
inductive Refused
    (line : String) : List (String × Fault) → Prop
  | notJson
      (noValue : Json.Value.ofText? line = none) :
      Refused line [("<json>", .notJson)]
  | notObject
      {value : Json.Value}
      (isRead : Json.Value.ofText? line = some value)
      (notObject : ∀ members, value ≠ .object members) :
      Refused line [("<root>", .notObject)]
  | faults
      {members : List (String × Json.Value)}
      {reported : List (String × Fault)}
      (isRead : Json.Value.ofText? line = some (.object members))
      (nonempty : reported ≠ [])
      (ordered : reported.Pairwise (·.2.place < ·.2.place))
      (complete :
        ∀ name fault,
          (name, fault) ∈ reported ↔ FaultIn (.object members) name fault) :
      Refused line reported
  | notEntry
      {members : List (String × Json.Value)}
      (isRead : Json.Value.ofText? line = some (.object members))
      (faultless : ∀ name fault, ¬FaultIn (.object members) name fault)
      (noEntry : ∀ entry : Entry, ¬entry.IsGivenBy (.object members)) :
      Refused line [("<deserialization>", .notEntry)]

end Faults

section Finding

variable
  {object : Json.Value}
  {fault : Fault}

theorem hasDoubleColon_of_infix
    {text : List Char}
    (colons : [':', ':'] <:+: text) :
    hasDoubleColon text = true := by
  obtain ⟨front, back, rfl⟩ := colons
  induction front with
  | nil =>
      rfl
  | cons first rest inductionHypothesis =>
      simp only [List.cons_append]
      unfold hasDoubleColon
      split
      · rfl
      · simp_all
      · simp_all

theorem hasDoubleColon_iff_infix
    {text : List Char} :
    hasDoubleColon text = true ↔ [':', ':'] <:+: text := by
  refine ⟨fun has => ?_, hasDoubleColon_of_infix⟩
  fun_induction hasDoubleColon text with
  | case1 rest =>
      exact ⟨[], rest, rfl⟩
  | case2 first rest _ inductionHypothesis =>
      exact (inductionHypothesis has).trans (List.suffix_cons first rest).isInfix
  | case3 =>
      cases has

theorem mem_textFault_iff
    {name : String}
    {accepts : String → Bool}
    {make : String → Fault} :
    fault ∈ textFault object name accepts make ↔
      ∃ text,
        object.member? name = some (.string text) ∧
          accepts text = false ∧ fault = make text := by
  rw [textFault]
  split
  · rename_i text found
    obtain ⟨given, isGiven, isText⟩ := Option.bind_eq_some_iff.mp found
    obtain rfl := (Json.Value.text?_eq_some_iff given text).mp isText
    by_cases accepted : accepts text = true <;>
      simp [isGiven, accepted]
  · rename_i notFound
    simp only [List.not_mem_nil, false_iff, not_exists, not_and]
    intro text isGiven
    simp [isGiven, Json.Value.text?] at notFound

theorem pairwise_textFault
    (name : String)
    (accepts : String → Bool)
    (make : String → Fault)
    (Ordered : Fault → Fault → Prop) :
    (textFault object name accepts make).Pairwise Ordered := by
  rw [textFault]
  split
  · split_ifs
    · exact .nil
    · exact List.pairwise_singleton _ _
  · exact .nil

theorem Level.ofName?_refuses_iff
    {name : String} :
    (Level.ofName? name).isSome = false ↔
      name ∉ ["trace", "debug", "info", "warn", "error"] := by
  rw [Option.isSome_eq_false_iff, Option.isNone_iff_eq_none, Level.ofName?,
    List.find?_eq_none]
  simp [Level.all, Level.name, eq_comm]

theorem Result.ofName?_refuses_iff
    {name : String} :
    (Result.ofName? name).isSome = false ↔ name ∉ ["pass", "fail", "error"] := by
  rw [Option.isSome_eq_false_iff, Option.isNone_iff_eq_none, Result.ofName?,
    List.find?_eq_none]
  simp [Result.all, Result.name, eq_comm]

/-- The faults that are found are those of the fields. -/
theorem mem_fieldFaults_iff :
    fault ∈ fieldFaults object ↔ FaultIn object fault.field fault := by
  simp only [fieldFaults, List.mem_append, List.mem_map, List.mem_filter,
    mem_textFault_iff, Level.ofName?_refuses_iff, Result.ofName?_refuses_iff,
    Option.isNone_iff_eq_none]
  constructor
  · rintro
      (((⟨name, ⟨required, absent⟩, rfl⟩ | ⟨name, given, unknown, rfl⟩) |
          ⟨name, given, unknown, rfl⟩) |
        ⟨text, given, malformed, rfl⟩)
    · exact .missing required absent
    · exact .level given unknown
    · exact .result given unknown
    · refine .traceId given ?_
      rw [← hasDoubleColon_iff_infix, malformed]
      decide
  · intro isFault
    generalize fault.field = name at isFault
    cases isFault with
    | missing required absent =>
        exact .inl (.inl (.inl ⟨_, ⟨required, absent⟩, rfl⟩))
    | level given unknown =>
        exact .inl (.inl (.inr ⟨_, given, unknown, rfl⟩))
    | result given unknown =>
        exact .inl (.inr ⟨_, given, unknown, rfl⟩)
    | traceId given malformed =>
        rw [← hasDoubleColon_iff_infix, Bool.not_eq_true] at malformed
        exact .inr ⟨_, given, malformed, rfl⟩

/-- Faults are found in the order in which they are reported, each once. -/
theorem pairwise_fieldFaults
    (object : Json.Value) :
    (fieldFaults object).Pairwise (·.place < ·.place) := by
  have inOrder :
      requiredFields.Pairwise fun first second =>
        (Fault.missingField first).place < (Fault.missingField second).place := by
    decide
  have placeOfRequired :
      ∀ name ∈ requiredFields, (Fault.missingField name).place < 4 := by
    decide
  simp only [fieldFaults, List.pairwise_append, List.mem_append, List.mem_map,
    List.mem_filter, mem_textFault_iff, List.pairwise_map, pairwise_textFault,
    true_and]
  refine ⟨⟨⟨inOrder.filter _, ?beforeLevel⟩, ?beforeResult⟩, ?beforeTraceId⟩
  case beforeLevel =>
    rintro _ ⟨name, ⟨required, -⟩, rfl⟩ _ ⟨_, -, -, rfl⟩
    exact placeOfRequired name required
  case beforeResult =>
    rintro _ (⟨name, ⟨required, -⟩, rfl⟩ | ⟨_, -, -, rfl⟩) _ ⟨_, -, -, rfl⟩
    · exact (placeOfRequired name required).trans (by decide : 4 < 5)
    · exact (by decide : 4 < 5)
  case beforeTraceId =>
    rintro _ ((⟨name, ⟨required, -⟩, rfl⟩ | ⟨_, -, -, rfl⟩) | ⟨_, -, -, rfl⟩) _
      ⟨_, -, -, rfl⟩
    · exact (placeOfRequired name required).trans (by decide : 4 < 6)
    · exact (by decide : 4 < 6)
    · exact (by decide : 5 < 6)

end Finding

section Giving

variable
  {members : List (String × Json.Value)}
  {entry : Entry}

theorem Level.name_mem
    (level : Level) :
    level.name ∈ ["trace", "debug", "info", "warn", "error"] := by
  cases level <;> simp [Level.name]

theorem Result.name_mem
    (result : Result) :
    result.name ∈ ["pass", "fail", "error"] := by
  cases result <;> simp [Result.name]

/-- Of the fields of an entry only the trace id can have a fault. -/
theorem Entry.IsGivenBy.faultIn_iff
    (given : entry.IsGivenBy (.object members))
    {name : String}
    {fault : Fault} :
    FaultIn (.object members) name fault ↔
      ¬[':', ':'] <:+: entry.traceId.toList ∧
        name = "trace_id" ∧ fault = .malformedTraceId entry.traceId := by
  obtain ⟨hasTimestamp, hasTraceId, ⟨inLevel, hasLevel, isLevel⟩, hasEvent, -, -,
    isResult, -, -⟩ := given
  rw [fieldIn?_object] at hasTimestamp hasTraceId hasLevel hasEvent isResult
  constructor
  · intro isFault
    cases isFault with
    | missing required absent =>
        simp only [List.mem_cons, List.not_mem_nil, or_false] at required
        rcases required with rfl | rfl | rfl | rfl
        · simp [hasTimestamp] at absent
        · simp [hasTraceId] at absent
        · simp [hasLevel] at absent
        · simp [hasEvent] at absent
    | level inText unknown =>
        obtain rfl := Option.some.inj (hasLevel.symm.trans inText)
        cases isLevel
        exact absurd entry.level.name_mem unknown
    | @result name inText unknown =>
        rw [inText] at isResult
        generalize entry.result = result at isResult
        cases isResult with
        | @present _ result _ isName =>
            generalize named : result.name = name' at isName
            cases isName
            exact absurd (named ▸ result.name_mem) unknown
    | traceId inText malformed =>
        cases hasTraceId.symm.trans inText
        exact ⟨malformed, rfl, rfl⟩
  · rintro ⟨malformed, rfl, rfl⟩
    exact .traceId hasTraceId malformed

theorem Entry.IsGivenBy.fieldFaults_eq_nil_iff
    (given : entry.IsGivenBy (.object members)) :
    fieldFaults (.object members) = [] ↔
      [':', ':'] <:+: entry.traceId.toList := by
  simp only [List.eq_nil_iff_forall_not_mem, mem_fieldFaults_iff,
    given.faultIn_iff]
  constructor
  · intro faultless
    by_contra malformed
    exact faultless (.malformedTraceId entry.traceId) ⟨malformed, rfl, rfl⟩
  · rintro wellFormed _ ⟨malformed, -⟩
    exact malformed wellFormed

end Giving

section Checking

variable
  {members : List (String × Json.Value)}
  {line : String}

/-- An object is an entry if it gives one whose trace id has two colons. -/
theorem checkValue_object_eq_ok_iff
    {entry : Entry} :
    checkValue (.object members) = .ok entry ↔
      entry.IsGivenBy (.object members) ∧
        [':', ':'] <:+: entry.traceId.toList := by
  constructor
  · intro accepted
    rw [checkValue] at accepted
    split at accepted
    · rename_i faultless
      split at accepted
      · rename_i isRead
        cases accepted
        have given := Entry.ofValue?_object_eq_some_iff.mp isRead
        exact ⟨given, given.fieldFaults_eq_nil_iff.mp faultless⟩
      · cases accepted
    · cases accepted
  · rintro ⟨given, wellFormed⟩
    rw [checkValue, given.fieldFaults_eq_nil_iff.mpr wellFormed,
      Entry.ofValue?_object_eq_some_iff.mpr given]

theorem checkValue_object_eq_error_iff
    {faults : List Fault} :
    checkValue (.object members) = .error faults ↔
      (faults ≠ [] ∧ faults = fieldFaults (.object members)) ∨
        (fieldFaults (.object members) = [] ∧
          (∀ entry : Entry, ¬entry.IsGivenBy (.object members)) ∧
            faults = [.notEntry]) := by
  simp only [← Entry.ofValue?_object_eq_some_iff, ← Option.eq_none_iff_forall_ne_some]
  rw [checkValue]
  cases found : fieldFaults (.object members) with
  | nil =>
      cases read : Entry.ofValue? (.object members) with
      | none => simp [eq_comm]
      | some entry => simp
  | cons first later =>
      have nonempty : faults = first :: later → ¬faults = [] := by
        rintro rfl
        simp
      simpa [eq_comm] using nonempty

/-- The faults of a line, or the entry that it holds. -/
def checkLine
    (line : String) : Except (List Fault) Entry :=
  match Json.Value.ofText? line with
  | none => .error [.notJson]
  | some value => checkValue value

theorem validateLine_eq_mapError
    (line : String)
    (number : Nat) :
    validateLine line number =
      (checkLine line).mapError (·.map (⟨number, ·⟩)) :=
  rfl

theorem checkLine_eq_ok_iff
    {entry : Entry} :
    checkLine line = .ok entry ↔
      ∃ members,
        Json.Value.ofText? line = some (.object members) ∧
          entry.IsGivenBy (.object members) ∧
            [':', ':'] <:+: entry.traceId.toList := by
  rw [checkLine]
  cases Json.Value.ofText? line with
  | none =>
      simp
  | some value =>
      cases value with
      | object members => simp [checkValue_object_eq_ok_iff]
      | _ => simp [checkValue]

/-- What is found are the faults of the object, each under the field it is reported for. -/
theorem mem_map_fieldFaults_iff
    {name : String}
    {fault : Fault} :
    (name, fault) ∈
        (fieldFaults (.object members)).map (fun fault => (fault.field, fault)) ↔
      FaultIn (.object members) name fault := by
  simp only [List.mem_map, Prod.mk.injEq, exists_eq_right_right]
  constructor
  · rintro ⟨found, rfl⟩
    exact mem_fieldFaults_iff.mp found
  · intro isFault
    have isField : fault.field = name := by
      cases isFault <;> rfl
    exact ⟨mem_fieldFaults_iff.mpr (isField ▸ isFault), isField⟩

/-- Faults of an object that are all there and in order are those that are found. -/
theorem eq_map_fieldFaults
    {reported : List (String × Fault)}
    (ordered : reported.Pairwise (·.2.place < ·.2.place))
    (complete :
      ∀ name fault,
        (name, fault) ∈ reported ↔ FaultIn (.object members) name fault) :
    reported =
      (fieldFaults (.object members)).map fun fault => (fault.field, fault) := by
  have irreflexive :
      Std.Irrefl fun first second : String × Fault =>
        first.2.place < second.2.place :=
    ⟨fun _ => Nat.lt_irrefl _⟩
  have antisymmetric :
      Std.Antisymm fun first second : String × Fault =>
        first.2.place < second.2.place :=
    ⟨fun _ _ before after => absurd after (Nat.lt_asymm before)⟩
  have foundInOrder :
      ((fieldFaults (.object members)).map fun fault =>
          (fault.field, fault)).Pairwise (·.2.place < ·.2.place) :=
    List.pairwise_map.mpr (pairwise_fieldFaults (.object members))
  refine ordered.eq_of_mem_iff foundInOrder fun ⟨name, fault⟩ => ?_
  rw [complete, mem_map_fieldFaults_iff]

/-- What is reported for a line are its faults, with their fields. -/
theorem refused_iff
    {reported : List (String × Fault)} :
    Refused line reported ↔
      ∃ faults,
        checkLine line = .error faults ∧
          reported = faults.map fun fault => (fault.field, fault) := by
  constructor
  · intro refused
    cases refused with
    | notJson noValue =>
        exact ⟨[.notJson], by rw [checkLine, noValue], rfl⟩
    | @notObject value isRead notObject =>
        refine ⟨[.notObject], ?_, rfl⟩
        rw [checkLine, isRead]
        cases value with
        | object members => exact absurd rfl (notObject members)
        | _ => rfl
    | faults isRead nonempty ordered complete =>
        have areFound := eq_map_fieldFaults ordered complete
        refine ⟨_, ?_, areFound⟩
        rw [checkLine, isRead]
        refine checkValue_object_eq_error_iff.mpr (.inl ⟨?_, rfl⟩)
        rintro noneFound
        exact nonempty (by rw [areFound, noneFound, List.map_nil])
    | notEntry isRead faultless noEntry =>
        refine ⟨[.notEntry], ?_, rfl⟩
        rw [checkLine, isRead]
        refine checkValue_object_eq_error_iff.mpr (.inr ⟨?_, noEntry, rfl⟩)
        rw [List.eq_nil_iff_forall_not_mem]
        intro fault found
        exact faultless _ _ (mem_fieldFaults_iff.mp found)
  · rintro ⟨faults, refused, rfl⟩
    rw [checkLine] at refused
    cases isRead : Json.Value.ofText? line with
    | none =>
        rw [isRead] at refused
        cases refused
        exact .notJson isRead
    | some value =>
        simp only [isRead] at refused
        cases value with
        | object members =>
            rcases checkValue_object_eq_error_iff.mp refused with
              ⟨nonempty, areFound⟩ | ⟨noneFound, noEntry, rfl⟩
            · refine .faults isRead (by simpa using nonempty) ?_ ?_
              · rw [areFound]
                exact List.pairwise_map.mpr (pairwise_fieldFaults (.object members))
              · rw [areFound]
                exact fun name fault => mem_map_fieldFaults_iff
            · refine .notEntry isRead (fun name fault isFault => ?_) noEntry
              have found := mem_map_fieldFaults_iff.mpr isFault
              rw [noneFound] at found
              cases found
        | _ =>
            cases refused
            exact .notObject isRead (by simp)

end Checking

/--
A line is accepted if it holds an object that gives an entry whose trace id has
two colons; else it is refused for everything that is wrong with it, and for
nothing else, in a fixed order and under its number.
-/
theorem validateLine_iff
    (line : String)
    (number : Nat) :
    (∀ entry,
      validateLine line number = .ok entry ↔
        ∃ members,
          Json.Value.ofText? line = some (.object members) ∧
            entry.IsGivenBy (.object members) ∧
              [':', ':'] <:+: entry.traceId.toList) ∧
      ∀ findings,
        validateLine line number = .error findings ↔
          ∃ reported,
            Refused line reported ∧
              findings.map (fun found => (found.line, found.fault.field, found.fault)) =
                reported.map fun (name, fault) => (number, name, fault) := by
  rw [validateLine_eq_mapError]
  constructor
  · intro entry
    rw [← checkLine_eq_ok_iff]
    cases checkLine line <;> simp [Except.mapError]
  · intro findings
    simp only [refused_iff]
    constructor
    · intro refused
      cases isRefused : checkLine line with
      | ok entry =>
          simp [isRefused, Except.mapError] at refused
      | error faults =>
          simp only [isRefused, Except.mapError, Except.error.injEq] at refused
          exact ⟨_, ⟨faults, rfl, rfl⟩, by simp [← refused]⟩
    · rintro ⟨_, ⟨faults, isRefused, rfl⟩, sameReports⟩
      have sameFindings :=
        congrArg (List.map fun (place, _, fault) => Finding.mk place fault) sameReports
      simp only [List.map_map, Function.comp_def, List.map_id'] at sameFindings
      rw [isRefused, sameFindings]
      rfl

/-- An array of all fields gives an entry, but its line is refused. -/
theorem validateLine_array :
    let line := "[\"t\",\"a::1\",\"info\",\"e\",null,null,null,null,null]"
    let entry := Entry.plain "t" "a::1" .info "e"
    ¬(validateLine line 1 = .ok entry ↔
      ∃ value,
        Json.Value.ofText? line = some value ∧
          entry.IsGivenBy value ∧ [':', ':'] <:+: entry.traceId.toList) := by
  intro line entry
  let items : List Json.Value :=
    ["t", "a::1", "info", "e"].map .string ++ List.replicate 5 .null
  have kept : (Json.Value.array items).IsKept 127 := by
    refine .array fun item isItem => ?_
    rcases List.mem_append.mp isItem with isText | isNull
    · obtain ⟨text, -, rfl⟩ := List.mem_map.mp isText
      exact .string text
    · rw [(List.mem_replicate.mp isNull).2]
      exact .null
  have written : (Json.Value.array items).compact = line := by
    decide +kernel
  have isRead : Json.Value.ofText? line = some (.array items) := by
    rw [← written]
    exact kept.spells.ofTextWithin?
  have given : entry.IsGivenBy (.array items) :=
    { timestamp := rfl
      traceId := rfl
      level := ⟨_, rfl, .text _⟩
      event := rfl
      family := .null
      symbol := .null
      result := .null
      artifacts := .null
      details := .null }
  intro accepts
  have accepted :=
    accepts.mpr ⟨.array items, isRead, given, ['a'], ['1'], by decide⟩
  rw [validateLine_eq_mapError, checkLine, isRead] at accepted
  cases accepted

end LibcConformance.Log
