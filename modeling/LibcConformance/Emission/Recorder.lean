import LibcConformance.Emission.Host
import LibcConformance.Log.Journal

namespace LibcConformance.Emission

/-!
# Recorders

A recorder keeps the journal of a run and writes its lines to a log, if there
is one.  A log gathers what it is given in a buffer.  The buffer is written
when a piece does not fit behind what it holds, and at the end; a piece that
would fill the buffer alone is written at once.  Bytes that cannot be written
stay in the buffer.
-/

/-- A log that is open, and the bytes that are still to be written to it. -/
structure BufferedLog (Handle : Type) where
  handle : Handle
  pending : Bytes

/-- The number of bytes that a buffer holds. -/
def bufferSize : Nat :=
  8192

section

variable {Handle : Type} {m : Type → Type} [Monad m]

namespace BufferedLog

/-- A log that has just been opened. -/
def opened (handle : Handle) : BufferedLog Handle :=
  ⟨handle, []⟩

/-- Writes what the buffer holds. -/
def flush (host : Host Handle m) (log : BufferedLog Handle) :
    m (BufferedLog Handle × Except FileSystem.Fault Unit) := do
  match ← host.writeLog log.handle log.pending with
  | .ok handle => pure (opened handle, .ok ())
  | .error fault => pure (log, .error fault)

/-- Takes in a piece for which the buffer has room, or which it could not hold in any case. -/
def takeIn (host : Host Handle m) (log : BufferedLog Handle) (piece : Bytes) :
    m (BufferedLog Handle × Except FileSystem.Fault Unit) := do
  if piece.length < bufferSize then
    pure ({ log with pending := log.pending ++ piece }, .ok ())
  else
    match ← host.writeLog log.handle piece with
    | .ok handle => pure ({ log with handle }, .ok ())
    | .error fault => pure (log, .error fault)

/-- Writes a piece, after what the buffer holds if both do not fit in it. -/
def write (host : Host Handle m) (log : BufferedLog Handle) (piece : Bytes) :
    m (BufferedLog Handle × Except FileSystem.Fault Unit) := do
  if log.pending.length + piece.length ≤ bufferSize then
    log.takeIn host piece
  else
    match ← log.flush host with
    | (flushed, .ok ()) => flushed.takeIn host piece
    | (failed, .error fault) => pure (failed, .error fault)

/-- Writes a line and then, as a piece of its own, the line break behind it. -/
def writeLine (host : Host Handle m) (log : BufferedLog Handle) (line : String) :
    m (BufferedLog Handle × Except FileSystem.Fault Unit) := do
  match ← log.write host (Bytes.ofText line) with
  | (written, .ok ()) => written.write host [ascii '\n']
  | (failed, .error fault) => pure (failed, .error fault)

end BufferedLog

/-- The journal of a run, and the log that its lines are written to. -/
structure Recorder (Handle : Type) where
  journal : Log.Journal
  log : Option (BufferedLog Handle)

namespace Recorder

/-- The recorder of a run that has not begun. -/
def start (runId : String) (log : Option (BufferedLog Handle)) : Recorder Handle :=
  ⟨.start runId, log⟩

/-- Records an entry in the journal, and writes its line to the log. -/
def record (host : Host Handle m) (recorder : Recorder Handle) (entry : Log.Entry) :
    m (Recorder Handle × Except FileSystem.Fault Unit) := do
  let journal := recorder.journal.record entry
  match recorder.log with
  | none => pure (⟨journal, none⟩, .ok ())
  | some log =>
      let (written, outcome) ←
        log.writeLine host (recorder.journal.completed entry).line
      pure (⟨journal, some written⟩, outcome)

/-- Writes what the log still holds back. -/
def flush (host : Host Handle m) (recorder : Recorder Handle) :
    m (Recorder Handle × Except FileSystem.Fault Unit) := do
  match recorder.log with
  | none => pure (recorder, .ok ())
  | some log =>
      let (flushed, outcome) ← log.flush host
      pure ({ recorder with log := some flushed }, outcome)

/-- Gives the log up, after one more try to write what it holds back. -/
def close (host : Host Handle m) (recorder : Recorder Handle) : m Unit := do
  let _ ← recorder.flush host
  pure ()

end Recorder

end

end LibcConformance.Emission
