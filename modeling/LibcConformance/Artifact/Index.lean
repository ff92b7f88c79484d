import LibcConformance.Artifact.Sha256
import LibcConformance.Json.Printer

namespace LibcConformance.Artifact

/-!
# Artifact indexes

An index lists the files that a run has written, with their sizes and digests.
It is written as indented JSON.  Reading one is strict about its own fields and
blind to all others: a field may stand only once, numbers must be written as
whole numbers, and only a description may be missing or null.  A record may
also be written as an array of all its fields in order.
-/

/-- A file that a run has written. -/
structure Record where
  path : String
  kind : String
  sha256 : String
  size : UInt64
  description : Option String
  deriving Repr, DecidableEq

/-- The files that a run has written. -/
structure Index where
  version : UInt32
  runId : String
  seed : UInt64
  generated : String
  artifacts : List Record
  deriving Repr, DecidableEq

/-- The kind of the test programs. -/
def fixtureKind : String :=
  "c_fixture"

namespace Record

/-- The record of contents written to a path. -/
def ofContents (path kind : String) (contents : Bytes) : Record where
  path := path
  kind := kind
  sha256 := Sha256.hexDigest contents
  size := UInt64.ofNat contents.length
  description := none

/-- A record with a description. -/
def described (record : Record) (description : String) : Record :=
  { record with description := some description }

/-- The fields of a record, in order. -/
def fields : List String :=
  ["path", "kind", "sha256", "size_bytes", "description"]

/-- The object of a record; a description stands only where there is one. -/
def toValue (record : Record) : Json.Value :=
  .object <|
    [("path", .string record.path), ("kind", .string record.kind),
      ("sha256", .string record.sha256), ("size_bytes", .integer record.size.toNat)] ++
    match record.description with
    | some description => [("description", .string description)]
    | none => []

end Record

namespace Index

/-- An index without files. -/
def empty (runId : String) (seed : UInt64) (generated : String) : Index where
  version := 1
  runId := runId
  seed := seed
  generated := generated
  artifacts := []

/-- Adds a record at the end. -/
def push (index : Index) (record : Record) : Index :=
  { index with artifacts := index.artifacts ++ [record] }

/-- Adds what was written to a path. -/
def add (index : Index) (path kind : String) (contents : Bytes) : Index :=
  index.push (.ofContents path kind contents)

/-- The fields of an index, in order. -/
def fields : List String :=
  ["index_version", "run_id", "seed", "generated_utc", "artifacts"]

/-- The object of an index. -/
def toValue (index : Index) : Json.Value :=
  .object
    [("index_version", .integer index.version.toNat), ("run_id", .string index.runId),
      ("seed", .integer index.seed.toNat), ("generated_utc", .string index.generated),
      ("artifacts", .array (index.artifacts.map Record.toValue))]

/-- The text of an index. -/
def text (index : Index) : String :=
  index.toValue.pretty

end Index

/-- Reads a text. -/
def readText? : Json.Document → Option String
  | .string units => Json.StringUnit.text? units
  | _ => none

/-- Reads a whole number below a bound, written with digits alone. -/
def readWord? (bound : Nat) : Json.Document → Option Nat
  | .number ⟨false, whole, none, none⟩ => some (Json.wholeValue whole) |>.filter (· < bound)
  | _ => none

/-- Reads an array whose items are all read. -/
def readList? {Content : Type} (read : Json.Document → Option Content) :
    Json.Document → Option (List Content)
  | .array items => items.mapM read
  | _ => none

/-- What the members of one name hold: nothing, or the value of the only one; two are refused. -/
def soleMember? (name : String) (members : List (String × Json.Document)) :
    Option (Option Json.Document) :=
  match members.filter (·.1 = name) with
  | [] => some none
  | [(_, value)] => some (some value)
  | _ => none

/-- The members of an object by their names, which must be texts. -/
def namedMembers? (members : List (List Json.StringUnit × Json.Document)) :
    Option (List (String × Json.Document)) :=
  members.mapM fun (units, value) => (Json.StringUnit.text? units).map (·, value)

/-- The values of some fields, in their order, from an object or from an array of all of them. -/
def readFields? (names : List String) : Json.Document → Option (List (Option Json.Document))
  | .object members => do
      let named ← namedMembers? members
      names.mapM fun name => soleMember? name named
  | .array items => if items.length = names.length then some (items.map some) else none
  | _ => none

/-- Reads a description, which may be missing or null. -/
def readDescription? : Option Json.Document → Option (Option String)
  | none => some none
  | some .null => some none
  | some document => (readText? document).map some

/-- Reads a record. -/
def Record.ofDocument? (document : Json.Document) : Option Record := do
  match ← readFields? Record.fields document with
  | [some path, some kind, some sha256, some size, description] =>
      let path ← readText? path
      let kind ← readText? kind
      let sha256 ← readText? sha256
      let size ← readWord? wordSize size
      let description ← readDescription? description
      pure { path, kind, sha256, size := UInt64.ofNat size, description }
  | _ => none

/-- Reads an index. -/
def Index.ofDocument? (document : Json.Document) : Option Index := do
  match ← readFields? Index.fields document with
  | [some version, some runId, some seed, some generated, some artifacts] =>
      let version ← readWord? 0x100000000 version
      let runId ← readText? runId
      let seed ← readWord? wordSize seed
      let generated ← readText? generated
      let artifacts ← readList? Record.ofDocument? artifacts
      pure
        { version := UInt32.ofNat version, runId, seed := UInt64.ofNat seed, generated, artifacts }
  | _ => none

/-- The index that a text holds. -/
def Index.ofText? (text : String) : Option Index :=
  (Json.Document.ofText? text).bind Index.ofDocument?

end LibcConformance.Artifact
