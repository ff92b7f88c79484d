import LibcConformance.Log.Entry
import LibcConformance.Text.WhiteSpace

namespace LibcConformance.Log

/-!
# Checking logs

A line is checked on its own.  If it is an object, everything that is wrong
with its fields is reported together; only a line without such faults is read
as an entry.  A log is checked line by line, where lines of white space count
for nothing but their place.
-/

/-- What is wrong with a line. -/
inductive Fault where
  | notJson
  | notObject
  | missingField (name : String)
  | unknownLevel (name : String)
  | unknownResult (name : String)
  | malformedTraceId (text : String)
  /-- A field holds a value that it cannot have. -/
  | notEntry
  deriving Repr, DecidableEq

namespace Fault

/-- The field that a fault is reported for. -/
def field : Fault → String
  | .notJson => "<json>"
  | .notObject => "<root>"
  | .missingField name => name
  | .unknownLevel _ => "level"
  | .unknownResult _ => "outcome"
  | .malformedTraceId _ => "trace_id"
  | .notEntry => "<deserialization>"

/-- The description of a fault. -/
def message : Fault → String
  | .notJson => "invalid JSON"
  | .notObject => "expected JSON object"
  | .missingField _ => "required field missing"
  | .unknownLevel name => s!"invalid level: '{name}'"
  | .unknownResult name => s!"invalid outcome: '{name}'"
  | .malformedTraceId text => s!"trace_id should follow <run_id>::<seq> format, got: '{text}'"
  | .notEntry => "failed to deserialize"

end Fault

/-- A fault and the number of the line that has it. -/
structure Finding where
  line : Nat
  fault : Fault
  deriving Repr, DecidableEq

/-- The report of a finding. -/
def Finding.message (finding : Finding) : String :=
  s!"line {finding.line}: field '{finding.fault.field}': {finding.fault.message}"

/-- Whether a text holds two colons side by side. -/
def hasDoubleColon : List Char → Bool
  | ':' :: ':' :: _ => true
  | _ :: rest => hasDoubleColon rest
  | [] => false

/-- The fields that every entry has. -/
def requiredFields : List String :=
  ["timestamp", "trace_id", "level", "event"]

/-- The fault of a field that holds a text which a check refuses. -/
def textFault (object : Json.Value) (name : String) (accepts : String → Bool)
    (fault : String → Fault) : List Fault :=
  match (object.member? name).bind Json.Value.text? with
  | some text => if accepts text then [] else [fault text]
  | none => []

/-- Everything that is wrong with the fields of an object. -/
def fieldFaults (object : Json.Value) : List Fault :=
  (requiredFields.filter fun name => (object.member? name).isNone).map .missingField ++
    textFault object "level" (fun name => (Level.ofName? name).isSome) .unknownLevel ++
    textFault object "outcome" (fun name => (Result.ofName? name).isSome) .unknownResult ++
    textFault object "trace_id" (fun text => hasDoubleColon text.toList) .malformedTraceId

/-- Checks the value of a line. -/
def checkValue (value : Json.Value) : Except (List Fault) Entry :=
  match value with
  | .object _ =>
      match fieldFaults value with
      | [] =>
          match Entry.ofValue? value with
          | some entry => .ok entry
          | none => .error [.notEntry]
      | faults => .error faults
  | _ => .error [.notObject]

/-- Checks a line, and answers its entry or all that is wrong with it. -/
def validateLine (line : String) (number : Nat) : Except (List Finding) Entry :=
  let checked : Except (List Fault) Entry :=
    match Json.Value.ofText? line with
    | none => .error [.notJson]
    | some value => checkValue value
  checked.mapError (·.map (⟨number, ·⟩))

/-- The pieces of a text between its line breaks. -/
def splitLines : List Char → List (List Char)
  | [] => [[]]
  | character :: rest =>
      if character = '\n' then
        [] :: splitLines rest
      else
        match splitLines rest with
        | first :: later => (character :: first) :: later
        | [] => [[character]]

/-- The number of lines that are not blank, and what is wrong with them. -/
structure Report where
  lines : Nat
  findings : List Finding
  deriving Repr, DecidableEq

/-- Checks lines that are numbered on from the given number. -/
def validateFrom (number : Nat) : List (List Char) → Report
  | [] => ⟨0, []⟩
  | line :: rest =>
      let later := validateFrom (number + 1) rest
      let content := WhiteSpace.trim line
      if content.isEmpty then
        later
      else
        let findings :=
          match validateLine (String.ofList content) number with
          | .ok _ => []
          | .error findings => findings
        ⟨later.lines + 1, findings ++ later.findings⟩

/-- Checks a log. -/
def validateText (text : String) : Report :=
  validateFrom 1 (splitLines text.toList)

/-- Checks a log by its bytes, which must be a text. -/
def validateBytes (bytes : Bytes) : Option Report :=
  bytes.toText?.map validateText

end LibcConformance.Log
