import LibcConformance.Log.Journal
import LibcConformance.Proofs.Log.LogReport

namespace LibcConformance.Log

/-!
# Runs of a journal

A run is any sequence of calls on one journal.  Each call adds the line of its
entry at the end, and each that comes without a trace id is given the next
number; so the ids of a run count on from one without gaps or repetitions, and
the log that a run leaves is accepted line by line.
-/

/-- A call on a journal. -/
inductive Call where
  | emit (timestamp : String) (level : Level) (event : String)
  | record (entry : Entry)
  deriving Repr

namespace Call

/-- Whether a call is given a trace id. -/
def needsId : Call → Bool
  | .emit _ _ _ => true
  | .record entry => entry.traceId.isEmpty

/-- The journal after a call. -/
def apply
    (journal : Journal) : Call → Journal
  | .emit timestamp level event => (journal.emit timestamp level event).2
  | .record entry => journal.record entry

/-- The entry that a call writes with the trace id that it is given, if it needs one. -/
def entry
    (givenId : String) : Call → Entry
  | .emit timestamp level event => .plain timestamp givenId level event
  | .record entry =>
      if entry.traceId.isEmpty then { entry with traceId := givenId } else entry

end Call

/-- The trace id of a number in a run. -/
def generatedId
    (runId : String)
    (number : Nat) : String :=
  runId ++ "::" ++ Numeral.padded 3 number

/-- A call whose own trace id has two colons, if it has one, and whose details are kept. -/
def Call.IsValid : Call → Prop
  | .emit _ _ _ => True
  | .record entry =>
      (entry.traceId = "" ∨ [':', ':'] <:+: entry.traceId.toList) ∧
        ∀ details ∈ entry.details, details.IsKept 126

/-- The trace ids of the entries whose calls needed one. -/
def generatedIds
    (calls : List Call)
    (entries : List Entry) : List String :=
  ((calls.zip entries).filter (·.1.needsId)).map (·.2.traceId)

/-- The journal of a run. -/
def Journal.run
    (runId : String)
    (calls : List Call) : Journal :=
  calls.foldl Call.apply (.start runId)

/-- A journal that holds the entries of the calls of a run. -/
structure Journal.Logs
    (journal : Journal)
    (calls : List Call)
    (entries : List Entry) : Prop where
  issued : journal.issued = calls.countP Call.needsId
  lines : journal.lines = entries.map Entry.line
  written :
    List.Forall₂
      (fun call entry =>
        ∃ number, entry = call.entry (generatedId journal.runId number))
      calls entries
  generated :
    generatedIds calls entries =
      (List.range journal.issued).map fun count =>
        generatedId journal.runId (count + 1)

section Steps

variable
  {journal : Journal}
  {calls : List Call}
  {entries : List Entry}

theorem runId_apply
    (journal : Journal)
    (call : Call) :
    (call.apply journal).runId = journal.runId := by
  cases call <;> rfl

theorem issued_apply
    (journal : Journal)
    (call : Call) :
    (call.apply journal).issued =
      journal.issued + if call.needsId then 1 else 0 := by
  cases call with
  | emit timestamp level event =>
      rfl
  | record entry =>
      rw [Call.apply, Journal.record, Call.needsId]
      cases entry.traceId.isEmpty <;> rfl

theorem lines_apply
    (journal : Journal)
    (call : Call) :
    (call.apply journal).lines =
      journal.lines ++
        [(call.entry (generatedId journal.runId (journal.issued + 1))).line] := by
  cases call <;> rfl

theorem traceId_entry
    {call : Call}
    (needs : call.needsId = true)
    (givenId : String) :
    (call.entry givenId).traceId = givenId := by
  cases call with
  | emit timestamp level event =>
      rfl
  | record entry =>
      rw [Call.needsId] at needs
      rw [Call.entry, if_pos needs]

/-- A call adds its own entry, with the next trace id if it needs one. -/
theorem Journal.Logs.apply
    (logs : journal.Logs calls entries)
    (call : Call) :
    ∃ entry, (call.apply journal).Logs (calls ++ [call]) (entries ++ [entry]) := by
  refine
    ⟨call.entry (generatedId journal.runId (journal.issued + 1)),
      { issued := ?issued, lines := ?lines, written := ?written, generated := ?generated }⟩
  case issued =>
    rw [issued_apply, logs.issued, List.countP_append, List.countP_singleton]
  case lines =>
    rw [lines_apply, logs.lines, List.map_append, List.map_singleton]
  case written =>
    rw [runId_apply]
    exact List.rel_append logs.written (.cons ⟨journal.issued + 1, rfl⟩ .nil)
  case generated =>
    have sameLength := logs.written.length_eq
    rw [generatedIds, List.zip_append sameLength, List.filter_append,
      List.map_append, ← generatedIds, logs.generated, runId_apply, issued_apply]
    cases needs : call.needsId with
    | true =>
        simp [List.range_succ, needs, traceId_entry needs]
    | false =>
        simp [needs]

theorem Journal.logs_start
    (runId : String) :
    (Journal.start runId).Logs [] [] where
  issued := rfl
  lines := rfl
  written := .nil
  generated := rfl

end Steps

section Runs

variable
  {journal : Journal}
  {calls : List Call}
  {entries : List Entry}

theorem Journal.exists_logs_run
    (runId : String)
    (calls : List Call) :
    ∃ entries, (Journal.run runId calls).Logs calls entries := by
  induction calls using List.reverseRecOn with
  | nil =>
      exact ⟨[], Journal.logs_start runId⟩
  | append_singleton calls call inductionHypothesis =>
      obtain ⟨entries, logs⟩ := inductionHypothesis
      obtain ⟨entry, logsCall⟩ := logs.apply call
      rw [Journal.run, List.foldl_append]
      exact ⟨entries ++ [entry], logsCall⟩

theorem Journal.runId_run
    (runId : String)
    (calls : List Call) :
    (Journal.run runId calls).runId = runId := by
  induction calls using List.reverseRecOn with
  | nil =>
      rfl
  | append_singleton calls call inductionHypothesis =>
      rw [Journal.run, List.foldl_append, List.foldl_cons, List.foldl_nil, runId_apply]
      exact inductionHypothesis

theorem Journal.Logs.toList_text
    (logs : journal.Logs calls entries) :
    journal.text.toList =
      (entries.map (·.line.toList)).flatMap (· ++ ['\n']) := by
  simp [Journal.text, logs.lines, String.toList_join, List.flatMap_map]

/-- The text of a journal is split into the lines of its entries. -/
theorem Journal.Logs.splitLines_text
    (logs : journal.Logs calls entries) :
    splitLines journal.text.toList = entries.map (·.line.toList) ++ [[]] := by
  rw [logs.toList_text]
  refine splitLines_flatMap fun line isLine => ?_
  obtain ⟨entry, -, rfl⟩ := List.mem_map.mp isLine
  exact entry.lineBreak_notMem_line

end Runs

section Ids

theorem wholeValue_zeros_append
    (count : Nat)
    (digits : List Char) :
    Json.wholeValue (List.replicate count '0' ++ digits) =
      Json.wholeValue digits := by
  induction count with
  | zero =>
      rfl
  | succ fewer inductionHypothesis =>
      rw [List.replicate_succ, List.cons_append]
      exact inductionHypothesis

theorem wholeValue_padded
    (width value : Nat) :
    Json.wholeValue (Numeral.padded width value).toList = value := by
  rw [Numeral.padded, String.toList_ofList, wholeValue_zeros_append,
    Numeral.digits, Json.wholeValue_toDigits]

/-- Numbers of a run have ids of their own. -/
theorem generatedId_injective
    (runId : String) :
    Function.Injective (generatedId runId) := by
  intro first second same
  rw [generatedId, generatedId] at same
  have sameNumeral : Numeral.padded 3 first = Numeral.padded 3 second :=
    (String.append_right_inj _).mp same
  rw [← wholeValue_padded 3 first, sameNumeral, wholeValue_padded]

theorem colons_generatedId
    (runId : String)
    (number : Nat) :
    [':', ':'] <:+: (generatedId runId number).toList := by
  rw [generatedId, String.toList_append, String.toList_append]
  exact ⟨_, _, rfl⟩

end Ids

section Validity

theorem Call.IsValid.entry
    {call : Call}
    (valid : call.IsValid)
    {givenId : String}
    (colons : [':', ':'] <:+: givenId.toList) :
    (call.entry givenId).IsValid := by
  cases call with
  | emit timestamp level event =>
      exact ⟨colons, by simp [Call.entry, Entry.plain]⟩
  | record entry =>
      obtain ⟨hasColons, keptDetails⟩ := valid
      rw [Call.entry]
      by_cases noId : entry.traceId.isEmpty = true
      · rw [if_pos noId]
        exact ⟨colons, keptDetails⟩
      · rw [if_neg noId]
        rw [String.isEmpty_iff] at noId
        exact ⟨hasColons.resolve_left noId, keptDetails⟩

/-- Valid calls write valid entries. -/
theorem Journal.Logs.isValid
    {journal : Journal}
    {calls : List Call}
    {entries : List Entry}
    (logs : journal.Logs calls entries)
    (valid : ∀ call ∈ calls, call.IsValid) :
    ∀ entry ∈ entries, entry.IsValid := by
  have written := logs.written
  clear logs
  induction written with
  | nil =>
      simp
  | cons isWritten _ inductionHypothesis =>
      rw [List.forall_mem_cons] at valid ⊢
      obtain ⟨number, rfl⟩ := isWritten
      exact
        ⟨valid.1.entry (colons_generatedId journal.runId number),
          inductionHypothesis valid.2⟩

end Validity

/--
A run leaves one line for each call, numbers the calls that need an id from one
on, and, if its calls are valid, leaves a log in which nothing is found.
-/
theorem Journal.run_accepted
    (runId : String)
    (calls : List Call) :
    let journal := Journal.run runId calls
    (∃ entries : List Entry,
      splitLines journal.text.toList = entries.map (·.line.toList) ++ [[]] ∧
        List.Forall₂
          (fun call entry =>
            ∃ number, entry = call.entry (generatedId runId number))
          calls entries ∧
        generatedIds calls entries =
          (List.range (calls.countP Call.needsId)).map (fun count =>
            generatedId runId (count + 1)) ∧
        (generatedIds calls entries).Nodup) ∧
      ((∀ call ∈ calls, call.IsValid) →
        validateBytes (Bytes.ofText journal.text) = some ⟨calls.length, []⟩) := by
  intro journal
  obtain ⟨entries, logs⟩ := Journal.exists_logs_run runId calls
  have written := logs.written
  have generated := logs.generated
  rw [Journal.runId_run] at written generated
  rw [logs.issued] at generated
  have numbersApart :
      Function.Injective fun count => generatedId runId (count + 1) :=
    (generatedId_injective runId).comp (add_left_injective 1)
  refine
    ⟨⟨entries, logs.splitLines_text, written, generated, ?_⟩, fun valid => ?_⟩
  · rw [generated]
    exact List.nodup_range.map numbersApart
  · rw [validateBytes, Bytes.toText?_ofText, Option.map_some, validateText,
      logs.splitLines_text, validateFrom_lines (logs.isValid valid),
      written.length_eq]

/--
Two calls that need an id around one that brings its own; details that are null,
a line break in the name of the run and blanks at the ends of texts are accepted.
-/
theorem Journal.run_accepted_mixed :
    let own : Entry :=
      { timestamp := " ", traceId := "a::b\n", level := .error, event := "\r\n "
        family := none, symbol := some "", result := some .fail, artifacts := some []
        details := some .null }
    let calls :=
      [Call.emit "t" .info "e", .record own, .record { own with traceId := "" }]
    let journal := Journal.run "\n é" calls
    journal.issued = 2 ∧
      validateBytes (Bytes.ofText journal.text) = some ⟨3, []⟩ := by
  intro own calls journal
  have keptDetails : ∀ details ∈ own.details, details.IsKept 126 := by
    rintro details isDetails
    obtain rfl := Option.some.inj isDetails
    exact .null
  have valid : ∀ call ∈ calls, call.IsValid := by
    rw [List.forall_mem_cons, List.forall_mem_cons, List.forall_mem_singleton]
    exact
      ⟨trivial, ⟨.inr ⟨['a'], ['b', '\n'], by decide⟩, keptDetails⟩,
        ⟨.inl rfl, keptDetails⟩⟩
  exact ⟨rfl, (Journal.run_accepted "\n é" calls).2 valid⟩

end LibcConformance.Log
