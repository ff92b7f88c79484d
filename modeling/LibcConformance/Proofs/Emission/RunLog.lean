import LibcConformance.Proofs.Emission.SuiteRun

namespace LibcConformance.Emission

open FileSystem (Path)
open FileSystem.Tree (OpenFile)

/-!
# What the log of a run says

The entries of a run differ from what is recorded in their trace ids alone.
Each reports its file under the path, with the size and the digest of what is
written to it, and all their lines are accepted.
-/

/-- A detail of an entry. -/
def detail?
    (entry : Log.Entry)
    (name : String) : Option Json.Value :=
  entry.details.bind (·.member? name)

/-- An entry that reports a file: its path, its size and its digest. -/
structure ReportsFile
    (path : String)
    (size : Nat)
    (digest : String)
    (entry : Log.Entry) : Prop where
  event : entry.event = "fixture_written"
  artifacts : entry.artifacts = some [path]
  bytes : detail? entry "bytes" = some (.integer size)
  sha256 : detail? entry "sha256" = some (.string digest)

/-- An entry without what a run gives it: the time and its trace id. -/
def content
    (entry : Log.Entry) : Log.Entry :=
  { entry with timestamp := "", traceId := "" }

/-- An entry that is another one under a trace id of its own. -/
def IsRenamed
    (entry renamed : Log.Entry) : Prop :=
  renamed = { entry with traceId := renamed.traceId }

section Numbering

variable
  {runId : String}
  {entries : List Log.Entry}

theorem length_numbered
    (runId : String)
    (entries : List Log.Entry) :
    (numbered runId entries).length = entries.length :=
  List.length_mapIdx

/-- The trace ids of a run count on from one. -/
theorem traceIds_numbered
    (runId : String)
    (entries : List Log.Entry) :
    (numbered runId entries).map Log.Entry.traceId =
      (List.range entries.length).map fun count => Log.generatedId runId (count + 1) := by
  induction entries using List.reverseRecOn with
  | nil =>
      rfl
  | append_singleton entries entry inductionHypothesis =>
      rw [numbered_concat, List.map_append, inductionHypothesis, List.length_append,
        List.length_singleton, List.range_succ, List.map_append]
      rfl

theorem renamed_numbered
    (runId : String)
    (entries : List Log.Entry) :
    List.Forall₂ IsRenamed entries (numbered runId entries) := by
  induction entries using List.reverseRecOn with
  | nil =>
      exact .nil
  | append_singleton entries entry inductionHypothesis =>
      rw [numbered_concat]
      exact List.rel_append inductionHypothesis (.cons rfl .nil)

theorem contents_of_renamed
    {renamed : List Log.Entry}
    (isRenamed : List.Forall₂ IsRenamed entries renamed) :
    renamed.map content = entries.map content := by
  induction isRenamed with
  | nil =>
      rfl
  | cons first _ inductionHypothesis =>
      rw [List.map_cons, List.map_cons, inductionHypothesis, first]
      rfl

/-- Entries whose details are kept are accepted under the trace ids of a run. -/
theorem isValid_of_mem_numbered
    (kept : ∀ entry ∈ entries, ∀ details ∈ entry.details, details.IsKept 126)
    {entry : Log.Entry}
    (isEntry : entry ∈ numbered runId entries) :
    entry.IsValid := by
  obtain ⟨place, inside, rfl⟩ := List.mem_mapIdx.mp isEntry
  exact
    { traceId := Log.colons_generatedId runId (place + 1)
      details := kept entries[place] (List.getElem_mem inside) }

end Numbering

/-- The entries of a run, numbered on from one, that are the lines of its journal. -/
structure IsRunLog
    (runId : String)
    (journal : Log.Journal)
    (entries : List Log.Entry) : Prop where
  lines : journal.lines = entries.map Log.Entry.line
  ids :
    entries.map Log.Entry.traceId =
      (List.range entries.length).map fun count => Log.generatedId runId (count + 1)

theorem Recorder.Records.isRunLog
    {recorder : Recorder OpenFile}
    {runId : String}
    {entries : List Log.Entry}
    (records : recorder.Records runId entries) :
    IsRunLog runId recorder.journal (numbered runId entries) where
  lines := by
    rw [records]
  ids := by
    rw [length_numbered, traceIds_numbered]

section Details

/-- An object is kept whose names are sorted and whose values are kept. -/
theorem isKept_object
    {limit : Nat}
    {members : List (String × Json.Value)}
    (sorted : (members.map Prod.fst).Pairwise (· < ·))
    (kept : ∀ value ∈ members.map Prod.snd, value.IsKept limit) :
    (Json.Value.object members).IsKept (limit + 1) :=
  .object (List.pairwise_map.mp sorted) (List.forall_mem_map.mp kept)

theorem isKept_number
    {limit number : Nat}
    (inWord : number < wordSize) :
    (Json.Value.integer number).IsKept limit := by
  rw [wordSize] at inWord
  exact .integer (by omega) (by omega)

theorem keptDetails_startEntry
    (instant : Instant)
    (directory : String)
    (seed : UInt64)
    {count : Nat}
    (inWord : count < wordSize) :
    ∀ details ∈ (startEntry instant directory seed count).details,
      details.IsKept 126 := by
  intro details isDetails
  obtain rfl := Option.some.inj isDetails
  have sorted : ["output_dir", "routines", "seed"].Pairwise (· < ·) := by
    decide
  refine isKept_object sorted ?_
  simp only [List.map_cons, List.map_nil, List.forall_mem_cons]
  exact
    ⟨.string directory, isKept_number inWord, isKept_number seed.toNat_lt, by simp⟩

theorem keptDetails_of_isEntryOf
    {directory : String}
    {program : Program}
    {entry : Log.Entry}
    (size : (Bytes.ofText program.source).length < wordSize)
    (count : program.tests.length < wordSize)
    (isEntry : IsEntryOf directory program entry) :
    ∀ details ∈ entry.details, details.IsKept 126 := by
  obtain ⟨instant, rfl⟩ := isEntry
  intro details isDetails
  obtain rfl := Option.some.inj isDetails
  have sorted : ["bytes", "cases", "sha256"].Pairwise (· < ·) := by
    decide
  refine isKept_object sorted ?_
  simp only [List.map_cons, List.map_nil, List.forall_mem_cons]
  exact ⟨isKept_number size, isKept_number count, .string _, by simp⟩

theorem keptDetails_completeEntry
    (instant : Instant)
    {report : Report}
    (cases : report.caseCount < wordSize)
    (files : report.fileCount < wordSize) :
    ∀ details ∈ (completeEntry instant report).details, details.IsKept 126 := by
  intro details isDetails
  obtain rfl := Option.some.inj isDetails
  have sorted : ["cases", "files"].Pairwise (· < ·) := by
    decide
  refine isKept_object sorted ?_
  simp only [List.map_cons, List.map_nil, List.forall_mem_cons]
  exact ⟨isKept_number cases, isKept_number files, by simp⟩

end Details

section Files

variable
  {directory : String}
  {programs : List Program}
  {written : List Log.Entry}

theorem reportsFile_of_isEntryOf
    {program : Program}
    {entry renamed : Log.Entry}
    (isEntry : IsEntryOf directory program entry)
    (isRenamed : IsRenamed entry renamed) :
    ReportsFile (Path.join directory program.fileName) (Bytes.ofText program.source).length
      (Sha256.hexDigest (Bytes.ofText program.source)) renamed := by
  obtain ⟨instant, rfl⟩ := isEntry
  rw [isRenamed]
  exact { event := rfl, artifacts := rfl, bytes := rfl, sha256 := rfl }

/-- The entries of programs report their files in the same order. -/
theorem reportFiles_of_forall₂
    {renamed : List Log.Entry}
    (isEntries : List.Forall₂ (IsEntryOf directory) programs written)
    (isRenamed : List.Forall₂ IsRenamed written renamed) :
    List.Forall₂
      (fun program entry =>
        ReportsFile (Path.join directory program.fileName)
          (Bytes.ofText program.source).length
          (Sha256.hexDigest (Bytes.ofText program.source)) entry)
      programs renamed := by
  induction isEntries generalizing renamed with
  | nil =>
      cases isRenamed
      exact .nil
  | cons isEntry _ inductionHypothesis =>
      cases isRenamed with
      | cons isFirst isRest =>
          exact
            .cons (reportsFile_of_isEntryOf isEntry isFirst) (inductionHypothesis isRest)

/-- The log of a run that starts and then writes programs, entry by entry. -/
theorem exists_numbered_started
    (runId : String)
    (started : Instant)
    (seed : UInt64)
    (count : Nat)
    (isEntries : List.Forall₂ (IsEntryOf directory) programs written) :
    ∃ first renamed,
      numbered runId (startEntry started directory seed count :: written) =
          first :: renamed ∧
        first.event = "emit_start" ∧
          List.Forall₂
            (fun program entry =>
              ReportsFile (Path.join directory program.fileName)
                (Bytes.ofText program.source).length
                (Sha256.hexDigest (Bytes.ofText program.source)) entry)
            programs renamed := by
  obtain ⟨first, renamed, isFirst, isRenamed, shape⟩ :=
    List.forall₂_cons_left_iff.mp
      (renamed_numbered runId (startEntry started directory seed count :: written))
  refine ⟨first, renamed, shape, ?_, reportFiles_of_forall₂ isEntries isRenamed⟩
  rw [isFirst]
  rfl

theorem keptDetails_of_forall₂
    {seed : UInt64}
    (theirs : ∀ program ∈ programs, Suite.IsProgramOf seed program.routine program)
    (isEntries : List.Forall₂ (IsEntryOf directory) programs written) :
    ∀ entry ∈ written, ∀ details ∈ entry.details, details.IsKept 126 := by
  induction isEntries with
  | nil =>
      simp
  | @cons program _ _ _ isEntry _ inductionHypothesis =>
      rw [List.forall_mem_cons] at theirs
      have size := Suite.length_source_lt_wordSize theirs.1.made
      have count := theirs.1.count ▸ Suite.caseCount_lt_wordSize program.routine
      exact
        List.forall_mem_cons.mpr
          ⟨keptDetails_of_isEntryOf size count isEntry, inductionHypothesis theirs.2⟩

/-- The entries of the same programs differ in no more than their times and trace ids. -/
theorem contents_of_forall₂
    {others : List Log.Entry}
    (isEntries : List.Forall₂ (IsEntryOf directory) programs written)
    (areOthers : List.Forall₂ (IsEntryOf directory) programs others) :
    written.map content = others.map content := by
  induction isEntries generalizing others with
  | nil =>
      cases areOthers
      rfl
  | cons isEntry _ inductionHypothesis =>
      cases areOthers with
      | cons isOther rest =>
          obtain ⟨instant, rfl⟩ := isEntry
          obtain ⟨moment, rfl⟩ := isOther
          simp only [List.map_cons, inductionHypothesis rest, content, writtenEntry,
            Log.Entry.plain]

end Files

end LibcConformance.Emission
