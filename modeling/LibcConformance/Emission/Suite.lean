import LibcConformance.Artifact.Index
import LibcConformance.Emission.Recorder
import LibcConformance.Seed.Numeral
import LibcConformance.Suite.Collection

namespace LibcConformance.Emission

/-!
# Emitting the suite

An emission writes the program of every routine into one directory, one after
the other.  The journal takes down each file once it is written, so at a
failure it holds exactly the files that are there.  A log that cannot be written
ends an emission as a file does.
-/

/-- Why an emission fails. -/
inductive EmissionError where
  | makeDirectory (path : String) (fault : FileSystem.Fault)
  | writeFile (path : String) (fault : FileSystem.Fault)
  | writeLog (fault : FileSystem.Fault)
  | deriveCase (error : CaseError)
  deriving Repr, DecidableEq

/-- The report of a failed emission. -/
def EmissionError.message : EmissionError → String
  | .makeDirectory path fault => s!"cannot create output directory {path}: {fault.message}"
  | .writeFile path fault => s!"cannot write fixture {path}: {fault.message}"
  | .writeLog fault => s!"structured log: {fault.message}"
  | .deriveCase error => error.message

/-- What an emission has produced. -/
structure Report where
  directory : String
  programs : List Program
  index : Artifact.Index
  deriving Repr, DecidableEq

namespace Report

/-- The number of files. -/
def fileCount (report : Report) : Nat :=
  report.programs.length

/-- The number of cases in all files. -/
def caseCount (report : Report) : Nat :=
  (report.programs.flatMap Program.tests).length

end Report

/-- The directory of the programs when none is given. -/
def defaultDirectory : String :=
  "am-kernels/tests/klib-tests/tests"

/-- The journal entry before anything is written. -/
def startEntry (instant : Instant) (directory : String) (seed : UInt64) (count : Nat) :
    Log.Entry :=
  { Log.Entry.plain instant.timestamp "" .info "emit_start" with
    details :=
      some
        (.object
          [("output_dir", .string directory), ("routines", .integer count),
            ("seed", .integer seed.toNat)]) }

/-- The journal entry of a file that is written. -/
def writtenEntry (instant : Instant) (program : Program) (path : String) (contents : Bytes) :
    Log.Entry :=
  { Log.Entry.plain instant.timestamp "" .info "fixture_written" with
    family := some program.routine.family.name
    symbol := some program.routine.symbol
    result := some .pass
    artifacts := some [path]
    details :=
      some
        (.object
          [("bytes", .integer contents.length), ("cases", .integer program.tests.length),
            ("sha256", .string (Sha256.hexDigest contents))]) }

/-- The journal entry after everything is written. -/
def completeEntry (instant : Instant) (report : Report) : Log.Entry :=
  { Log.Entry.plain instant.timestamp "" .info "emit_complete" with
    result := some .pass
    details :=
      some
        (.object
          [("cases", .integer report.caseCount), ("files", .integer report.fileCount)]) }

/-- What has been recorded of an emission, and what it has come to. -/
structure Progress (Handle Answer : Type) where
  recorder : Recorder Handle
  answer : Except EmissionError Answer

section

variable {Handle : Type} {m : Type → Type} [Monad m]

/-- Writes programs in order, up to the first that cannot be written or recorded. -/
def emitPrograms (host : Host Handle m) (directory : String) :
    List Program → Recorder Handle → Artifact.Index → m (Progress Handle Artifact.Index)
  | [], recorder, index => pure ⟨recorder, .ok index⟩
  | program :: rest, recorder, index => do
      let path := FileSystem.Path.join directory program.fileName
      let contents := Bytes.ofText program.source
      match ← host.writeFile path contents with
      | .error fault => pure ⟨recorder, .error (.writeFile path fault)⟩
      | .ok () =>
          let entry := writtenEntry (← host.now) program path contents
          match ← recorder.record host entry with
          | (recorded, .error fault) => pure ⟨recorded, .error (.writeLog fault)⟩
          | (recorded, .ok ()) =>
              emitPrograms host directory rest recorded
                (index.add path Artifact.fixtureKind contents)

/-- Ends an emission that has written everything: records that, and writes the log out. -/
def complete (host : Host Handle m) (report : Report) (recorder : Recorder Handle) :
    m (Progress Handle Report) := do
  match ← recorder.record host (completeEntry (← host.now) report) with
  | (recorded, .error fault) => pure ⟨recorded, .error (.writeLog fault)⟩
  | (recorded, .ok ()) =>
      match ← recorded.flush host with
      | (flushed, .error fault) => pure ⟨flushed, .error (.writeLog fault)⟩
      | (flushed, .ok ()) => pure ⟨flushed, .ok report⟩

/-- Writes programs into a directory, which is made if it is missing. -/
def emitInto (host : Host Handle m) (directory : String) (seed : UInt64)
    (programs : List Program) (recorder : Recorder Handle) : m (Progress Handle Report) := do
  match ← host.makeDirectories directory with
  | .error fault => pure ⟨recorder, .error (.makeDirectory directory fault)⟩
  | .ok () =>
      let index := Artifact.Index.empty recorder.journal.runId seed (← host.now).timestamp
      let written ← emitPrograms host directory programs recorder index
      match written.answer with
      | .error error => pure ⟨written.recorder, .error error⟩
      | .ok index => complete host { directory, programs, index } written.recorder

/-- Emits the suite of a seed into a directory. -/
def emit (host : Host Handle m) (directory : String) (seed : UInt64)
    (recorder : Recorder Handle) : m (Progress Handle Report) :=
  match Suite.programs seed with
  | .error error => pure ⟨recorder, .error (.deriveCase error)⟩
  | .ok programs => do
      let entry := startEntry (← host.now) directory seed programs.length
      match ← recorder.record host entry with
      | (recorded, .error fault) => pure ⟨recorded, .error (.writeLog fault)⟩
      | (recorded, .ok ()) => emitInto host directory seed programs recorded

/-- Emits the suite and writes its journal to an open log, which is given up at the end. -/
def emitLogged (host : Host Handle m) (handle : Handle) (directory : String) (seed : UInt64)
    (runId : String) : m (Except EmissionError Report) := do
  let progress ← emit host directory seed (.start runId (some (.opened handle)))
  progress.recorder.close host
  pure progress.answer

/-- Emits the suite and writes its journal to the log at a path, or nowhere. -/
def emitTo (host : Host Handle m) (log : Option String) (directory : String) (seed : UInt64)
    (runId : String) : m (Except EmissionError Report) := do
  match log with
  | none => pure (← emit host directory seed (.start runId none)).answer
  | some path =>
      match ← host.openLog path with
      | .error fault => pure (.error (.writeLog fault))
      | .ok handle => emitLogged host handle directory seed runId

/-- Emits the suite of the default seed, without a log. -/
def emitDefault (host : Host Handle m) (directory : String) : m (Except EmissionError Report) :=
  emitTo host none directory Seed.default (Seed.runId Seed.default)

end

end LibcConformance.Emission
