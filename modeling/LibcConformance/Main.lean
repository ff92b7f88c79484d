import LibcConformance.CommandLine.Run
import Std.Time.DateTime.Timestamp

namespace LibcConformance

/-!
# The program

The command on the files and the clock of the machine.
-/

/-- The fault that an error of the machine stands for. -/
def machineFault : IO.Error → FileSystem.Fault
  | .noFileOrDirectory .. => .notFound
  | .alreadyExists .. => .alreadyExists
  | .inappropriateType .. => .notDirectory
  | .resourceExhausted .. => .noSpace
  | .invalidArgument _ 36 _ => .nameTooLong
  | error => .other (toString error)

/-- The outcome of an action on files. -/
def attempt {Answer : Type} (action : IO Answer) : IO (Except FileSystem.Fault Answer) := do
  match ← action.toBaseIO with
  | .ok answer => pure (.ok answer)
  | .error error => pure (.error (machineFault error))

/-- The time of the machine. -/
def machineInstant : IO Instant := do
  let milliseconds := (← Std.Time.Timestamp.now).toMillisecondsSinceUnixEpoch.toInt
  pure (.ofClock (milliseconds / 1000) (1000000 * (milliseconds % 1000).toNat))

/-- The machine as a host. -/
def machineHost : Emission.Host IO.FS.Handle IO where
  now := machineInstant
  makeDirectories path := attempt (if path.isEmpty then pure () else IO.FS.createDirAll path)
  writeFile path bytes := attempt (IO.FS.writeBinFile path bytes.toByteArray)
  openLog path := attempt (IO.FS.Handle.mk path .write)
  writeLog handle bytes := attempt do
    handle.write bytes.toByteArray
    handle.flush
    pure handle

/-- How the command is called. -/
def usage : String :=
  "usage: klibc-fixtures [--seed SEED] [--log PATH] [--quiet] [--manifest PATH] [--verify] " ++
    "[OUTPUT_DIR]"

end LibcConformance

open LibcConformance in
/-- Runs the command with the arguments of the program. -/
def main (arguments : List String) : IO UInt32 := do
  let transcript ← CommandLine.run machineHost arguments
  IO.print transcript.output
  let errors := if transcript.exitCode = 2 then [usage] else transcript.errors
  errors.forM IO.eprintln
  pure (UInt32.ofNat transcript.exitCode)
