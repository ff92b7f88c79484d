import LibcConformance.Artifact.Index
import LibcConformance.Proofs.Json.PrettyReadBack

namespace LibcConformance.Artifact

/-!
# Indexes are read back

The text of an index is read as a document that holds its object, and every
field of an index or of a record is found in such a document under its name,
once.  What an index lists is what was added to it, in order, each with the
size and the digest of its contents, whatever descriptions are set in between.
-/

section Leaves

variable
  {document : Json.Document}

theorem readText?_of_holds
    {text : String}
    (holds : document.Holds (.string text)) :
    readText? document = some text := by
  cases holds with
  | leaf means =>
      cases document with
      | string units =>
          rw [Json.Document.valueWithin?] at means
          obtain ⟨_, isText, same⟩ := Option.map_eq_some_iff.mp means
          cases same
          exact isText
      | number number =>
          rw [Json.Document.valueWithin?, Json.NumberText.value?] at means
          split_ifs at means <;> simp at means
      | _ => simp [Json.Document.valueWithin?] at means

/-- A document of a whole number holds nothing but its digits. -/
theorem readWord?_of_holds
    {size bound : Nat}
    (below : size < bound)
    (holds : document.Holds (.integer size)) :
    readWord? bound document = some size := by
  cases holds with
  | leaf means =>
      cases document with
      | number number =>
          rw [Json.Document.valueWithin?, Json.NumberText.value?] at means
          split_ifs at means with isWord isNegative
          · rcases number with ⟨negative, whole, fraction, exponent⟩
            obtain ⟨rfl, rfl, notNegative, -⟩ := isWord
            obtain rfl : negative = false := by simpa using notNegative
            have same : Json.wholeValue whole = size := by
              simpa using means
            simp [readWord?, same, below]
          · simp at means
            omega
          · simp at means
      | string units =>
          rw [Json.Document.valueWithin?] at means
          obtain ⟨_, _, other⟩ := Option.map_eq_some_iff.mp means
          cases other
      | _ => simp [Json.Document.valueWithin?] at means

end Leaves

section Fields

variable
  {named : List (String × Json.Document)}
  {members : List (String × Json.Value)}

/-- Documents under the names of members, each holding the value of its member. -/
def Named
    (named : List (String × Json.Document))
    (members : List (String × Json.Value)) : Prop :=
  List.Forall₂
    (fun found member => found.1 = member.1 ∧ found.2.Holds member.2)
    named members

theorem namedMembers?_of_hold
    {documents : List (List Json.StringUnit × Json.Document)}
    (hold : Json.MembersHold documents members) :
    ∃ named, namedMembers? documents = some named ∧ Named named members := by
  induction documents generalizing members with
  | nil =>
      cases hold
      exact ⟨[], rfl, .nil⟩
  | cons document rest inductionHypothesis =>
      cases hold with
      | @cons units name found _ _ _ isNamed holds later =>
          obtain ⟨named, isLater, namedLater⟩ := inductionHypothesis later
          rw [namedMembers?] at isLater
          refine ⟨(name, found) :: named, ?_, .cons ⟨rfl, holds⟩ namedLater⟩
          simp [namedMembers?, isNamed, isLater]

theorem Named.filter_of_notMem
    (isNamed : Named named members)
    {name : String}
    (absent : name ∉ members.map Prod.fst) :
    named.filter (·.1 = name) = [] := by
  induction isNamed with
  | nil =>
      rfl
  | cons first _ inductionHypothesis =>
      rw [List.map_cons, List.mem_cons, not_or] at absent
      rw [List.filter_cons_of_neg, inductionHypothesis absent.2]
      simpa [first.1] using Ne.symm absent.1

/-- A name that one member has is found once. -/
theorem Named.filter_of_mem
    (isNamed : Named named members)
    (distinct : (members.map Prod.fst).Nodup)
    {name : String}
    {value : Json.Value}
    (member : (name, value) ∈ members) :
    ∃ document, named.filter (·.1 = name) = [(name, document)] ∧ document.Holds value := by
  induction isNamed with
  | nil =>
      cases member
  | @cons found first laterNamed later isFirst isLater inductionHypothesis =>
      rw [List.map_cons, List.nodup_cons] at distinct
      rcases List.mem_cons.mp member with same | inLater
      · subst same
        have noOther := Named.filter_of_notMem isLater distinct.1
        obtain ⟨foundName, document⟩ := found
        obtain ⟨rfl, holds⟩ := isFirst
        exact ⟨document, by rw [List.filter_cons_of_pos (by simp), noOther], holds⟩
      · obtain ⟨document, isSole, holds⟩ := inductionHypothesis distinct.2 inLater
        refine ⟨document, ?_, holds⟩
        rw [List.filter_cons_of_neg, isSole]
        have isName : name ∈ later.map Prod.fst :=
          List.mem_map_of_mem inLater
        have different : first.1 ≠ name := by
          rintro rfl
          exact distinct.1 isName
        simpa [isFirst.1] using different

theorem Named.soleMember?_of_notMem
    (isNamed : Named named members)
    {name : String}
    (absent : name ∉ members.map Prod.fst) :
    soleMember? name named = some none := by
  rw [soleMember?, isNamed.filter_of_notMem absent]

theorem Named.soleMember?_of_mem
    (isNamed : Named named members)
    (distinct : (members.map Prod.fst).Nodup)
    {name : String}
    {value : Json.Value}
    (member : (name, value) ∈ members) :
    ∃ document,
      soleMember? name named = some (some document) ∧ document.Holds value := by
  obtain ⟨document, isSole, holds⟩ := isNamed.filter_of_mem distinct member
  exact ⟨document, by rw [soleMember?, isSole], holds⟩

end Fields

namespace Record

/-- The members of the object of a record. -/
def members
    (record : Record) : List (String × Json.Value) :=
  [("path", .string record.path), ("kind", .string record.kind),
    ("sha256", .string record.sha256),
    ("size_bytes", .integer record.size.toNat)] ++
  (record.description.map fun text => ("description", .string text)).toList

theorem toValue_eq_object
    (record : Record) :
    record.toValue = .object record.members := by
  rw [toValue, members]
  cases record.description <;> rfl

theorem nodup_members
    (record : Record) :
    (record.members.map Prod.fst).Nodup := by
  rw [members]
  cases record.description <;> simp

end Record

section Reading

variable
  {document : Json.Document}

/-- The record of an object that holds it is read. -/
theorem Record.ofDocument?_of_holds
    {record : Record}
    (holds : document.Holds record.toValue) :
    Record.ofDocument? document = some record := by
  rw [Record.toValue_eq_object] at holds
  obtain ⟨documents, rfl, hold⟩ := holds.of_object
  obtain ⟨named, isNamed, found⟩ := namedMembers?_of_hold hold
  have sole
      {name : String}
      {value : Json.Value}
      (member : (name, value) ∈ record.members) :=
    found.soleMember?_of_mem record.nodup_members member
  rcases record with ⟨path, kind, sha256, size, description⟩
  obtain ⟨pathFound, solePath, holdsPath⟩ :=
    sole (List.mem_append_left _ (.head _))
  obtain ⟨kindFound, soleKind, holdsKind⟩ :=
    sole (List.mem_append_left _ (.tail _ (.head _)))
  obtain ⟨digestFound, soleDigest, holdsDigest⟩ :=
    sole (List.mem_append_left _ (.tail _ (.tail _ (.head _))))
  obtain ⟨sizeFound, soleSize, holdsSize⟩ :=
    sole (List.mem_append_left _ (.tail _ (.tail _ (.tail _ (.head _)))))
  have readSize : readWord? wordSize sizeFound = some size.toNat :=
    readWord?_of_holds size.toNat_lt holdsSize
  cases description with
  | none =>
      have noDescription : soleMember? "description" named = some none :=
        found.soleMember?_of_notMem (by simp [Record.members])
      simp [Record.ofDocument?, readFields?, Record.fields, isNamed, solePath,
        soleKind, soleDigest, soleSize, noDescription,
        readText?_of_holds holdsPath, readText?_of_holds holdsKind,
        readText?_of_holds holdsDigest, readSize, readDescription?]
  | some description =>
      obtain ⟨descriptionFound, soleDescription, holdsDescription⟩ :=
        sole (List.mem_append_right _ (.head _))
      have readDescription :
          readDescription? (some descriptionFound) = some (some description) := by
        have read := readText?_of_holds holdsDescription
        rw [readDescription?, read, Option.map_some]
        rintro rfl
        simp [readText?] at read
      simp [Record.ofDocument?, readFields?, Record.fields, isNamed, solePath,
        soleKind, soleDigest, soleSize, soleDescription,
        readText?_of_holds holdsPath, readText?_of_holds holdsKind,
        readText?_of_holds holdsDigest, readSize, readDescription]

theorem readList?_of_hold
    {documents : List Json.Document}
    {artifacts : List Record}
    (hold :
      List.Forall₂ Json.Document.Holds documents (artifacts.map Record.toValue)) :
    readList? Record.ofDocument? (.array documents) = some artifacts := by
  rw [readList?]
  induction artifacts generalizing documents with
  | nil =>
      cases hold
      rfl
  | cons record rest inductionHypothesis =>
      cases hold with
      | cons holds later =>
          simp [Record.ofDocument?_of_holds holds, inductionHypothesis later]

/-- The index of an object that holds it is read. -/
theorem Index.ofDocument?_of_holds
    {index : Index}
    (holds : document.Holds index.toValue) :
    Index.ofDocument? document = some index := by
  obtain ⟨documents, rfl, hold⟩ := holds.of_object
  obtain ⟨named, isNamed, found⟩ := namedMembers?_of_hold hold
  have distinct :
      (([("index_version", .integer index.version.toNat),
          ("run_id", .string index.runId), ("seed", .integer index.seed.toNat),
          ("generated_utc", .string index.generated),
          ("artifacts", .array (index.artifacts.map Record.toValue))] :
        List (String × Json.Value)).map Prod.fst).Nodup := by
    simp
  obtain ⟨versionFound, soleVersion, holdsVersion⟩ :=
    found.soleMember?_of_mem distinct (.head _)
  obtain ⟨runFound, soleRun, holdsRun⟩ :=
    found.soleMember?_of_mem distinct (.tail _ (.head _))
  obtain ⟨seedFound, soleSeed, holdsSeed⟩ :=
    found.soleMember?_of_mem distinct (.tail _ (.tail _ (.head _)))
  obtain ⟨timeFound, soleTime, holdsTime⟩ :=
    found.soleMember?_of_mem distinct (.tail _ (.tail _ (.tail _ (.head _))))
  obtain ⟨listFound, soleList, holdsList⟩ :=
    found.soleMember?_of_mem distinct
      (.tail _ (.tail _ (.tail _ (.tail _ (.head _)))))
  obtain ⟨records, rfl, holdRecords⟩ := holdsList.of_array
  have readVersion :
      readWord? 0x100000000 versionFound = some index.version.toNat :=
    readWord?_of_holds index.version.toNat_lt holdsVersion
  have readSeed : readWord? wordSize seedFound = some index.seed.toNat :=
    readWord?_of_holds index.seed.toNat_lt holdsSeed
  simp [Index.ofDocument?, readFields?, Index.fields, isNamed, soleVersion,
    soleRun, soleSeed, soleTime, soleList, readVersion,
    readText?_of_holds holdsRun, readSeed, readText?_of_holds holdsTime,
    readList?_of_hold holdRecords]

end Reading

section Writing

theorem Record.isExact_toValue
    (record : Record) :
    record.toValue.IsExact := by
  have greatest := record.size.toNat_lt
  rw [toValue_eq_object]
  refine .object fun member isMember => ?_
  simp only [members, List.cons_append, List.nil_append, List.mem_cons,
    Option.mem_toList, Option.map_eq_some_iff] at isMember
  rcases isMember with rfl | rfl | rfl | rfl | ⟨text, -, rfl⟩
  case inr.inr.inr.inl =>
    exact .integer (by omega) (by omega)
  all_goals exact .string _

theorem Index.isExact_toValue
    (index : Index) :
    index.toValue.IsExact := by
  have greatestVersion := index.version.toNat_lt
  have greatestSeed := index.seed.toNat_lt
  refine .object fun member isMember => ?_
  simp only [List.mem_cons, List.not_mem_nil, or_false] at isMember
  rcases isMember with rfl | rfl | rfl | rfl | rfl
  · exact .integer (by omega) (by omega)
  · exact .string _
  · exact .integer (by omega) (by omega)
  · exact .string _
  · refine .array fun item isItem => ?_
    obtain ⟨record, -, rfl⟩ := List.mem_map.mp isItem
    exact record.isExact_toValue

/-- An index is read back from its text. -/
theorem Index.ofText?_text
    (index : Index) :
    Index.ofText? index.text = some index := by
  obtain ⟨document, isRead, holds⟩ := index.isExact_toValue.ofText?_pretty
  rw [Index.ofText?, Index.text, isRead, Option.bind_some,
    Index.ofDocument?_of_holds holds]

end Writing

/-- What is added to an index: the contents that were written to a path. -/
structure Addition where
  path : String
  kind : String
  contents : Bytes
  deriving Repr, DecidableEq

/-- What is done to an index: files are added, and their records described. -/
inductive Edit where
  | add (addition : Addition)
  | describe (place : Nat) (description : String)
  deriving Repr, DecidableEq

namespace Edit

/-- What an edit adds. -/
def addition? : Edit → Option Addition
  | .add addition => some addition
  | .describe _ _ => none

/-- An index after an edit. -/
def apply
    (index : Index) : Edit → Index
  | .add addition => index.add addition.path addition.kind addition.contents
  | .describe place description =>
      { index with
        artifacts := index.artifacts.modify place (·.described description) }

end Edit

/-- An index with no files in its list. -/
def Index.heading
    (index : Index) : Index :=
  { index with artifacts := [] }

/-- A record of what was added, whatever its description. -/
structure Addition.IsRecorded
    (addition : Addition)
    (record : Record) : Prop where
  path : record.path = addition.path
  kind : record.kind = addition.kind
  size : record.size.toNat = addition.contents.length
  sha256 : record.sha256 = Sha256.hexDigest addition.contents

section Editing

variable
  {additions : List Addition}
  {index : Index}

theorem isRecorded_ofContents
    {addition : Addition}
    (inWord : addition.contents.length < wordSize) :
    addition.IsRecorded
      (.ofContents addition.path addition.kind addition.contents) where
  path := rfl
  kind := rfl
  size := UInt64.toNat_ofNat_of_lt inWord
  sha256 := rfl

theorem isRecorded_modify
    {records : List Record}
    (recorded : List.Forall₂ Addition.IsRecorded additions records)
    (place : Nat)
    (description : String) :
    List.Forall₂ Addition.IsRecorded additions
      (records.modify place (·.described description)) := by
  induction recorded generalizing place with
  | nil =>
      cases place <;> exact .nil
  | cons first later inductionHypothesis =>
      cases place with
      | zero =>
          exact .cons ⟨first.path, first.kind, first.size, first.sha256⟩ later
      | succ before =>
          exact .cons first (inductionHypothesis before)

/-- An edit keeps what is listed, and adds what it brings at the end. -/
theorem isRecorded_apply
    {edit : Edit}
    (inWord :
      ∀ addition ∈ edit.addition?, addition.contents.length < wordSize)
    (recorded : List.Forall₂ Addition.IsRecorded additions index.artifacts) :
    List.Forall₂ Addition.IsRecorded (additions ++ edit.addition?.toList)
      (edit.apply index).artifacts := by
  cases edit with
  | add addition =>
      have added := isRecorded_ofContents (inWord addition rfl)
      exact List.rel_append recorded (.cons added .nil)
  | describe place description =>
      rw [Edit.addition?, Option.toList_none, List.append_nil]
      exact isRecorded_modify recorded place description

theorem heading_apply
    (edit : Edit)
    (index : Index) :
    (edit.apply index).heading = index.heading := by
  cases edit <;> rfl

/-- Edits keep what is listed, and add what they bring in their order. -/
theorem isRecorded_foldl
    {edits : List Edit}
    (inWord :
      ∀ addition ∈ edits.filterMap Edit.addition?,
        addition.contents.length < wordSize)
    (recorded : List.Forall₂ Addition.IsRecorded additions index.artifacts) :
    List.Forall₂ Addition.IsRecorded
      (additions ++ edits.filterMap Edit.addition?)
      (edits.foldl Edit.apply index).artifacts := by
  induction edits generalizing additions index with
  | nil =>
      simpa using recorded
  | cons edit rest inductionHypothesis =>
      have additionsOf :
          (edit :: rest).filterMap Edit.addition? =
            edit.addition?.toList ++ rest.filterMap Edit.addition? := by
        cases edit <;> rfl
      rw [additionsOf] at inWord ⊢
      rw [List.forall_mem_append] at inWord
      have afterFirst :=
        isRecorded_apply (by simpa using inWord.1) recorded
      rw [List.foldl_cons, ← List.append_assoc]
      exact inductionHypothesis inWord.2 afterFirst

theorem heading_foldl
    (edits : List Edit)
    (index : Index) :
    (edits.foldl Edit.apply index).heading = index.heading := by
  induction edits generalizing index with
  | nil =>
      rfl
  | cons edit rest inductionHypothesis =>
      rw [List.foldl_cons, inductionHypothesis, heading_apply]

end Editing

/--
However an index is edited, it keeps its heading and lists every addition, in
order; and every index is read back from its text, which is then written again.
-/
theorem edits_recorded_readBack
    (runId : String)
    (seed : UInt64)
    (generated : String)
    (edits : List Edit)
    (inWord :
      ∀ addition ∈ edits.filterMap Edit.addition?,
        addition.contents.length < wordSize) :
    let edited := edits.foldl Edit.apply (Index.empty runId seed generated)
    (edited.heading = Index.empty runId seed generated ∧
      List.Forall₂ Addition.IsRecorded
        (edits.filterMap Edit.addition?) edited.artifacts) ∧
      ∀ index : Index,
        Index.ofText? index.text = some index ∧
          (Index.ofText? index.text).map Index.text = some index.text := by
  intro edited
  refine ⟨⟨?_, ?_⟩, fun index => ?_⟩
  · exact heading_foldl edits (Index.empty runId seed generated)
  · have noneYet :
        List.Forall₂ Addition.IsRecorded []
          (Index.empty runId seed generated).artifacts :=
      .nil
    exact isRecorded_foldl inWord noneYet
  · rw [index.ofText?_text]
    exact ⟨rfl, rfl⟩

/-- A description set after two additions, one of them empty, of one path. -/
theorem edits_recorded_readBack_samePath :
    let first : Addition := ⟨"a\"\n", "", []⟩
    let second : Addition := ⟨"a\"\n", "c_fixture", [0x00, 0xff]⟩
    let index :=
      [Edit.add first, .add second, .describe 0 "é"].foldl Edit.apply
        (Index.empty "" 0xffffffffffffffff "t")
    index.heading = Index.empty "" 0xffffffffffffffff "t" ∧
      List.Forall₂ Addition.IsRecorded [first, second] index.artifacts ∧
        Index.ofText? index.text = some index := by
  intro first second index
  have inWord :
      ∀ addition ∈ [first, second], addition.contents.length < wordSize := by
    decide
  obtain ⟨⟨heading, recorded⟩, readBack⟩ :=
    edits_recorded_readBack "" 0xffffffffffffffff "t"
      [.add first, .add second, .describe 0 "é"] inWord
  exact ⟨heading, recorded, (readBack index).1⟩

end LibcConformance.Artifact
