import LibcConformance.Json.Printer

namespace LibcConformance.Log

/-!
# Log entries

A log is a sequence of entries, one JSON object on each line.  Every entry has
a timestamp, a trace id, a level and an event; the other fields are written
only where they are set.
-/

/-- How severe an entry is. -/
inductive Level where
  | trace
  | debug
  | info
  | warn
  | error
  deriving Repr, DecidableEq

namespace Level

/-- All levels, from the least severe on. -/
def all : List Level :=
  [.trace, .debug, .info, .warn, .error]

/-- The name of a level. -/
def name : Level → String
  | .trace => "trace"
  | .debug => "debug"
  | .info => "info"
  | .warn => "warn"
  | .error => "error"

/-- The level with the given name. -/
def ofName? (name : String) : Option Level :=
  all.find? (·.name = name)

/-- A level is found by its name. -/
theorem ofName?_name (level : Level) : ofName? level.name = some level := by
  cases level <;> decide

end Level

/-- How what an entry reports has ended. -/
inductive Result where
  | pass
  | fail
  | error
  deriving Repr, DecidableEq

namespace Result

/-- All results. -/
def all : List Result :=
  [.pass, .fail, .error]

/-- The name of a result. -/
def name : Result → String
  | .pass => "pass"
  | .fail => "fail"
  | .error => "error"

/-- The result with the given name. -/
def ofName? (name : String) : Option Result :=
  all.find? (·.name = name)

/-- A result is found by its name. -/
theorem ofName?_name (result : Result) : ofName? result.name = some result := by
  cases result <;> decide

end Result

/-- An entry of a log. -/
structure Entry where
  timestamp : String
  traceId : String
  level : Level
  event : String
  family : Option String
  symbol : Option String
  result : Option Result
  artifacts : Option (List String)
  details : Option Json.Value
  deriving Repr, BEq

namespace Entry

/-- An entry with only the fields that every entry has. -/
def plain (timestamp traceId : String) (level : Level) (event : String) : Entry where
  timestamp := timestamp
  traceId := traceId
  level := level
  event := event
  family := none
  symbol := none
  result := none
  artifacts := none
  details := none

/-- A field of an object, if it is set. -/
def field {Content : Type} (name : String) (encode : Content → Json.Value) :
    Option Content → List (String × Json.Value)
  | none => []
  | some content => [(name, encode content)]

/-- The fields of an entry that are set, in a fixed order. -/
def fields (entry : Entry) : List (String × Json.Value) :=
  [("timestamp", .string entry.timestamp), ("trace_id", .string entry.traceId),
    ("level", .string entry.level.name), ("event", .string entry.event)] ++
  field "api_family" .string entry.family ++
  field "symbol" .string entry.symbol ++
  field "outcome" (.string ·.name) entry.result ++
  field "artifact_refs" (.array <| ·.map .string) entry.artifacts ++
  field "details" id entry.details

/-- The object of an entry. -/
def toValue (entry : Entry) : Json.Value :=
  .object entry.fields

/-- The line of an entry. -/
def line (entry : Entry) : String :=
  entry.toValue.compact

/-- A name given as a string, or as the only member of an object whose value is null. -/
def variantName? : Json.Value → Option String
  | .string name => some name
  | .object [(name, .null)] => some name
  | _ => none

/-- Reads a field that may be missing or null. -/
def optionalField? {Content : Type} (read : Json.Value → Option Content) :
    Option Json.Value → Option (Option Content)
  | none => some none
  | some .null => some none
  | some value => (read value).map some

/-- Reads an entry from an object; fields of other names are passed over. -/
def ofValue? (value : Json.Value) : Option Entry := do
  let timestamp ← (← value.member? "timestamp").text?
  let traceId ← (← value.member? "trace_id").text?
  let level ← (← variantName? (← value.member? "level")) |> Level.ofName?
  let event ← (← value.member? "event").text?
  let family ← optionalField? Json.Value.text? (value.member? "api_family")
  let symbol ← optionalField? Json.Value.text? (value.member? "symbol")
  let result ←
    optionalField? (fun given => (variantName? given).bind Result.ofName?)
      (value.member? "outcome")
  let artifacts ← optionalField? Json.Value.texts? (value.member? "artifact_refs")
  let details ← optionalField? some (value.member? "details")
  pure { timestamp, traceId, level, event, family, symbol, result, artifacts, details }

end Entry

end LibcConformance.Log
