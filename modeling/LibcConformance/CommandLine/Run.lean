import LibcConformance.CommandLine.Options
import LibcConformance.Verification.Summary

namespace LibcConformance.CommandLine

/-!
# Running the command

The command emits the suite, then writes the index and verifies the cases as
far as it is asked to.  What it prints is collected, and the first failure ends
it with a line that names the failure.
-/

/-- What a run prints and how it ends. -/
structure Transcript where
  exitCode : Nat
  output : String
  errors : List String
  deriving Repr, DecidableEq

/-- Why a run that understood its arguments fails. -/
inductive Failure where
  | seed (error : Seed.ParseError)
  | files (fault : FileSystem.Fault)
  | emission (error : Emission.EmissionError)
  | verification
  deriving Repr, DecidableEq

namespace Failure

/-- The name of the failure of an emission. -/
def emissionName : Emission.EmissionError → String
  | .makeDirectory _ _ => "CreateDir"
  | .writeFile _ _ => "Write"
  | .writeLog _ => "Log"
  | .deriveCase _ => "Case"

/-- The line that reports a failure: its name, then what it is about. -/
def line : Failure → String
  | .seed error => s!"Error: ParseIntError ({error.message})"
  | .files fault => s!"Error: Os ({fault.message})"
  | .emission error => s!"Error: {emissionName error} ({error.message})"
  | .verification => "Error: \"fixture verification failed\""

end Failure

/-- What a run has printed so far. -/
structure Printed where
  output : String
  errors : List String
  deriving Repr, DecidableEq

namespace Printed

/-- Nothing. -/
def nothing : Printed :=
  ⟨"", []⟩

/-- Prints a line of output. -/
def outputLine (printed : Printed) (text : String) : Printed :=
  { printed with output := printed.output ++ text ++ "\n" }

/-- Prints lines of messages. -/
def errorLines (printed : Printed) (lines : List String) : Printed :=
  { printed with errors := printed.errors ++ lines }

/-- The transcript of a run that ends well. -/
def success (printed : Printed) : Transcript :=
  { exitCode := 0, output := printed.output, errors := printed.errors }

/-- The transcript of a run that fails. -/
def failure (printed : Printed) (failure : Failure) : Transcript :=
  { exitCode := 1, output := printed.output, errors := printed.errors ++ [failure.line] }

end Printed

/-- The lines that report a verification. -/
def verificationLines (summary : Summary) : List String :=
  s!"Verification complete: total={summary.total}, passed={summary.passed}, failed={summary.failed}"
    :: summary.failures.map fun verdict =>
      s!"  {verdict.routine.symbol} / {verdict.label}: expected {verdict.expected}, " ++
        s!"got {verdict.actual}"

/-- Verifies the emitted cases, if asked to, and ends the run. -/
def finish (options : Options) (report : Emission.Report) (printed : Printed) : Transcript :=
  if options.verify then
    let summary := Summary.ofPrograms report.programs
    let verified := printed.errorLines (verificationLines summary)
    if summary.allPassed then verified.success else verified.failure .verification
  else
    printed.success

section

variable {Handle : Type} {m : Type → Type} [Monad m]

/-- Makes the directory that a file is to stand in. -/
def makeParent (host : Emission.Host Handle m) (path : String) :
    m (Except FileSystem.Fault Unit) :=
  match (FileSystem.Path.ofText path).parent? with
  | none => pure (.ok ())
  | some parent => host.makeDirectories parent.text

/-- Writes a file, and first makes the directory that it is to stand in. -/
def writeBelow (host : Emission.Host Handle m) (path : String) (contents : Bytes) :
    m (Except FileSystem.Fault Unit) := do
  match ← makeParent host path with
  | .error fault => pure (.error fault)
  | .ok () => host.writeFile path contents

/-- Goes on after an emission: reports it, and writes the index if asked to. -/
def conclude (host : Emission.Host Handle m) (options : Options) (report : Emission.Report)
    (printed : Printed) : m Transcript := do
  let reported :=
    printed.outputLine s!"Generated {report.fileCount} fixture files in {report.directory}"
  match options.manifest with
  | none => pure (finish options report reported)
  | some path =>
      match ← writeBelow host path (Bytes.ofText report.index.text) with
      | .error fault => pure (reported.failure (.files fault))
      | .ok () =>
          pure (finish options report (reported.errorLines [s!"Wrote artifact index to {path}"]))

/-- Goes on from the outcome of an emission. -/
def proceed (host : Emission.Host Handle m) (options : Options) (printed : Printed) :
    Except Emission.EmissionError Emission.Report → m Transcript
  | .ok report => conclude host options report printed
  | .error error => pure (printed.failure (.emission error))

/-- Emits with a log in a file, in a directory that is made for it. -/
def runWithLog (host : Emission.Host Handle m) (options : Options) (seed : UInt64)
    (path : String) : m Transcript := do
  match ← makeParent host path with
  | .error fault => pure (Printed.nothing.failure (.files fault))
  | .ok () =>
      match ← host.openLog path with
      | .error fault => pure (Printed.nothing.failure (.files fault))
      | .ok handle =>
          let answer ←
            Emission.emitLogged host handle options.directory seed (Seed.runId seed)
          proceed host options .nothing answer

/-- Runs what the options ask for: the log goes to a file, nowhere, or among the messages. -/
def runOptions (host : Emission.Host Handle m) (options : Options) : m Transcript :=
  match Seed.parse options.seed with
  | .error error => pure (Printed.nothing.failure (.seed error))
  | .ok seed =>
      match options.quiet, options.log with
      | false, some path => runWithLog host options seed path
      | quiet, _ => do
          let progress ←
            Emission.emit host options.directory seed (.start (Seed.runId seed) none)
          let shown := if quiet then [] else progress.recorder.journal.lines
          proceed host options (Printed.nothing.errorLines shown) progress.answer

/-- Runs the command; arguments that break a rule end it with a code of their own. -/
def run (host : Emission.Host Handle m) (arguments : List String) : m Transcript :=
  match Options.ofArguments? arguments with
  | none => pure { exitCode := 2, output := "", errors := [] }
  | some options => runOptions host options

end

end LibcConformance.CommandLine
