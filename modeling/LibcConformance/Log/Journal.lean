import LibcConformance.Log.Entry

namespace LibcConformance.Log

/-!
# Journals

A journal collects the lines of one run.  An entry that comes without a trace
id is given one: the name of the run and the next number, which entries with
ids of their own do not use up.
-/

/-- The lines of a run so far, and how many trace ids it has given out. -/
structure Journal where
  runId : String
  issued : Nat
  lines : List String
  deriving Repr, DecidableEq

namespace Journal

/-- The journal of a run that has not begun. -/
def start (runId : String) : Journal :=
  { runId, issued := 0, lines := [] }

/-- The trace id with the given number, which has three digits or more. -/
def traceId (journal : Journal) (number : Nat) : String :=
  journal.runId ++ "::" ++ Numeral.padded 3 number

/-- An entry as it is written: with a trace id, if it came without one. -/
def completed (journal : Journal) (entry : Entry) : Entry :=
  if entry.traceId.isEmpty then
    { entry with traceId := journal.traceId (journal.issued + 1) }
  else
    entry

/-- Writes an entry. -/
def record (journal : Journal) (entry : Entry) : Journal :=
  { journal with
    issued := if entry.traceId.isEmpty then journal.issued + 1 else journal.issued
    lines := journal.lines ++ [(journal.completed entry).line] }

/-- Writes an entry that has only the fields that every entry has, and answers it. -/
def emit (journal : Journal) (timestamp : String) (level : Level) (event : String) :
    Entry × Journal :=
  let entry := Entry.plain timestamp (journal.traceId (journal.issued + 1)) level event
  (entry,
    { journal with issued := journal.issued + 1, lines := journal.lines ++ [entry.line] })

/-- The text of a journal: its lines, with a line break behind each. -/
def text (journal : Journal) : String :=
  String.join (journal.lines.map (· ++ "\n"))

end Journal

end LibcConformance.Log
