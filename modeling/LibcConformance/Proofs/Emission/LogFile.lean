import LibcConformance.Emission.Recorder
import LibcConformance.Proofs.Emission.Disk
import LibcConformance.Proofs.Log.JournalRun

namespace LibcConformance.Emission

open FileSystem (Fault Place)
open FileSystem.Tree (OpenFile)

/-!
# Logs on a disk

What has been written to a log is in its file and, behind that, in its buffer.
Every piece that is written goes to the end of it, whether it is gathered or
written through, and so the file of a recorder and its buffer hold the text of
its journal.  No other file changes.
-/

namespace BufferedLog

/-- What has been written to a log: its file holds the front, and its buffer the rest. -/
def Holds
    (log : BufferedLog OpenFile)
    (files : Files)
    (text : Bytes) : Prop :=
  ∃ written, IsAtEnd log.handle files written ∧ written ++ log.pending = text

/-- A step that adds a piece to what a log holds, and leaves every other file alone. -/
def Appends
    (log : BufferedLog OpenFile)
    (disk : Disk)
    (step : StateM Disk (BufferedLog OpenFile × Except Fault Unit))
    (piece : Bytes) : Prop :=
  ∃ extended after,
    step.run disk = ((extended, .ok ()), after) ∧
      extended.handle.place = log.handle.place ∧
      disk.SameBut {log.handle.place} after ∧
        ∀ text, log.Holds disk.files text → extended.Holds after.files (text ++ piece)

variable
  {working : Place}
  {disk : Disk}
  {log : BufferedLog OpenFile}

/-- Pieces that are added one after the other add up. -/
theorem Appends.bind
    {first : StateM Disk (BufferedLog OpenFile × Except Fault Unit)}
    {next :
      BufferedLog OpenFile × Except Fault Unit →
        StateM Disk (BufferedLog OpenFile × Except Fault Unit)}
    {front back : Bytes}
    (appends : log.Appends disk first front)
    (goesOn : ∀ extended after, Appends extended after (next (extended, .ok ())) back) :
    log.Appends disk (first >>= next) (front ++ back) := by
  obtain ⟨extended, between, ran, isPlace, same, holds⟩ := appends
  obtain ⟨last, after, ranNext, isLastPlace, sameNext, holdsNext⟩ := goesOn extended between
  rw [isPlace] at isLastPlace sameNext
  refine
    ⟨last, after, (run_bind ran next).trans ranNext, isLastPlace, same.trans sameNext,
      fun text isText => ?_⟩
  rw [← List.append_assoc]
  exact holdsNext _ (holds text isText)

/-- Once it is flushed, all that has been written to a log is in its file. -/
theorem exists_flush
    (working : Place)
    (disk : Disk)
    (log : BufferedLog OpenFile) :
    ∃ handle after,
      (log.flush (diskHost working)).run disk = ((opened handle, .ok ()), after) ∧
        handle.place = log.handle.place ∧
        disk.SameBut {log.handle.place} after ∧
          ∀ text, log.Holds disk.files text → IsAtEnd handle after.files text := by
  obtain ⟨handle, after, ran, isPlace, same, atEnd⟩ :=
    exists_writeLog working disk log.handle log.pending
  refine ⟨handle, after, run_bind ran _, isPlace, same, ?_⟩
  rintro text ⟨written, isFile, rfl⟩
  exact atEnd written isFile

/-- A log that has just been opened holds what its file holds. -/
theorem holds_opened
    {file : OpenFile}
    {files : Files}
    {text : Bytes}
    (atEnd : IsAtEnd file files text) :
    (opened file).Holds files text :=
  ⟨text, atEnd, List.append_nil text⟩

theorem appends_takeIn
    (working : Place)
    (disk : Disk)
    {piece : Bytes}
    (roomy : log.pending.length + piece.length ≤ bufferSize ∨ log.pending = []) :
    log.Appends disk (log.takeIn (diskHost working) piece) piece := by
  rw [takeIn]
  by_cases fits : piece.length < bufferSize
  · rw [if_pos fits]
    refine ⟨_, disk, rfl, rfl, .refl _ disk, ?_⟩
    rintro text ⟨written, atEnd, rfl⟩
    exact ⟨written, atEnd, (List.append_assoc _ _ _).symm⟩
  · rw [if_neg fits]
    have noneHeld : log.pending = [] := by
      rcases roomy with small | noneHeld
      · rw [← List.length_eq_zero_iff]
        omega
      · exact noneHeld
    obtain ⟨handle, after, ran, isPlace, same, atEnd⟩ :=
      exists_writeLog working disk log.handle piece
    refine ⟨_, after, run_bind ran _, isPlace, same, ?_⟩
    rintro text ⟨written, isFile, rfl⟩
    refine ⟨written ++ piece, atEnd written isFile, ?_⟩
    rw [noneHeld, List.append_nil, List.append_nil]

theorem appends_write
    (working : Place)
    (disk : Disk)
    (log : BufferedLog OpenFile)
    (piece : Bytes) :
    log.Appends disk (log.write (diskHost working) piece) piece := by
  rw [write]
  by_cases fits : log.pending.length + piece.length ≤ bufferSize
  · rw [if_pos fits]
    exact appends_takeIn working disk (.inl fits)
  · rw [if_neg fits]
    obtain ⟨handle, between, ran, isPlace, same, atEnd⟩ := exists_flush working disk log
    have appendsRest :
        (opened handle).Appends between ((opened handle).takeIn (diskHost working) piece) piece :=
      appends_takeIn working between (.inr rfl)
    obtain ⟨last, after, ranLast, isLastPlace, sameLast, holdsLast⟩ := appendsRest
    have isPlaceOpened : (opened handle).handle.place = log.handle.place :=
      isPlace
    rw [isPlaceOpened] at isLastPlace sameLast
    exact
      ⟨last, after, (run_bind ran _).trans ranLast, isLastPlace, same.trans sameLast,
        fun text isText => holdsLast text (holds_opened (atEnd text isText))⟩

/-- A line that is written goes behind what a log holds, with its line break. -/
theorem appends_writeLine
    (working : Place)
    (disk : Disk)
    (log : BufferedLog OpenFile)
    (line : String) :
    log.Appends disk (log.writeLine (diskHost working) line) (Bytes.ofText (line ++ "\n")) := by
  rw [Bytes.ofText_append]
  exact
    (appends_write working disk log (Bytes.ofText line)).bind fun extended after =>
      appends_write working after extended [ascii '\n']

end BufferedLog

/-- Entries with the trace ids that a run gives them, from one on. -/
def numbered
    (runId : String)
    (entries : List Log.Entry) : List Log.Entry :=
  entries.mapIdx fun count entry =>
    { entry with traceId := Log.generatedId runId (count + 1) }

theorem numbered_concat
    (runId : String)
    (entries : List Log.Entry)
    (entry : Log.Entry) :
    numbered runId (entries ++ [entry]) =
      numbered runId entries ++
        [{ entry with traceId := Log.generatedId runId (entries.length + 1) }] :=
  List.mapIdx_concat

namespace Recorder

/-- The places of the log that a recorder writes to, if there is one. -/
def places
    (recorder : Recorder OpenFile) : Set Place :=
  {place | ∃ log ∈ recorder.log, log.handle.place = place}

/-- A recorder whose log holds the text of its journal. -/
def IsIntact
    (recorder : Recorder OpenFile)
    (files : Files) : Prop :=
  ∀ log ∈ recorder.log, log.Holds files (Bytes.ofText recorder.journal.text)

/-- A recorder whose journal has the lines of entries that are numbered on from one. -/
def Records
    (recorder : Recorder OpenFile)
    (runId : String)
    (entries : List Log.Entry) : Prop :=
  recorder.journal = ⟨runId, entries.length, (numbered runId entries).map Log.Entry.line⟩

variable
  {disk : Disk}
  {recorder : Recorder OpenFile}
  {runId : String}
  {entries : List Log.Entry}

/-- A log that is left alone stays intact. -/
theorem IsIntact.congr
    {files others : Files}
    (intact : recorder.IsIntact files)
    (same : Set.EqOn others files recorder.places) :
    recorder.IsIntact others := by
  intro log isLog
  obtain ⟨written, atEnd, whole⟩ := intact log isLog
  exact ⟨written, atEnd.congr (same ⟨log, isLog, rfl⟩), whole⟩

/-- Steps that write to nothing but the log of a recorder, and keep it intact. -/
structure OnlyLogs
    (recorder recorded : Recorder OpenFile)
    (disk after : Disk) : Prop where
  places : recorded.places = recorder.places
  same : disk.SameBut recorder.places after
  intact : recorder.IsIntact disk.files → recorded.IsIntact after.files

/-- Recording extends the journal, and writes to nothing but the log. -/
theorem exists_record
    (working : Place)
    (disk : Disk)
    (recorder : Recorder OpenFile)
    (entry : Log.Entry) :
    ∃ recorded after,
      (recorder.record (diskHost working) entry).run disk = ((recorded, .ok ()), after) ∧
        recorded.journal = recorder.journal.record entry ∧
          recorder.OnlyLogs recorded disk after := by
  obtain ⟨journal, log?⟩ := recorder
  rw [record]
  cases log? with
  | none =>
      exact ⟨_, disk, rfl, rfl, rfl, .refl _ disk, fun _ => by simp [IsIntact]⟩
  | some log =>
      obtain ⟨extended, after, ran, isPlace, same, holds⟩ :=
        BufferedLog.appends_writeLine working disk log (journal.completed entry).line
      have extendedText :
          (journal.record entry).text =
            journal.text ++ ((journal.completed entry).line ++ "\n") := by
        rw [Log.Journal.text, Log.Journal.record, List.map_append, String.join_append,
          ← Log.Journal.text]
        simp
      refine
        ⟨_, after, run_bind ran _, rfl,
          { places := by simp [places, isPlace]
            same := same.mono (by simp [places])
            intact := fun intact => ?_ }⟩
      simp only [IsIntact, Option.mem_some_iff, forall_eq'] at intact ⊢
      rw [extendedText, Bytes.ofText_append]
      exact holds _ intact

/-- What is recorded with the time of that moment, before it goes on. -/
theorem exists_recordNow
    (working : Place)
    (disk : Disk)
    (recorder : Recorder OpenFile)
    (entry : Instant → Log.Entry) :
    ∃ instant recorded after,
      (∀ {Last : Type}
        (next : Recorder OpenFile × Except Fault Unit → StateM Disk Last),
        ((diskHost working).now >>= fun instant =>
            recorder.record (diskHost working) (entry instant) >>= next).run disk =
          (next (recorded, .ok ())).run after) ∧
        recorded.journal = recorder.journal.record (entry instant) ∧
          recorder.OnlyLogs recorded disk after := by
  obtain ⟨recorded, after, ran, isRecorded, logs⟩ :=
    exists_record working disk.tick recorder (entry (disk.clock 0))
  refine
    ⟨disk.clock 0, recorded, after, fun next => ?_, isRecorded,
      { places := logs.places
        same := { files := logs.same.files, refusal := logs.same.refusal }
        intact := logs.intact }⟩
  refine (run_bind (run_now working disk) _).trans ?_
  exact run_bind ran next

/-- An entry without a trace id is given the next number. -/
theorem Records.record
    (records : recorder.Records runId entries)
    {entry : Log.Entry}
    (noId : entry.traceId = "")
    {recorded : Recorder OpenFile}
    (isRecorded : recorded.journal = recorder.journal.record entry) :
    recorded.Records runId (entries ++ [entry]) := by
  have isEmpty : entry.traceId.isEmpty = true := by
    rw [noId]
    rfl
  rw [Records] at records ⊢
  rw [isRecorded, records, Log.Journal.record, if_pos isEmpty, Log.Journal.completed,
    if_pos isEmpty, numbered_concat, List.map_append, List.length_append]
  rfl

/-- Once it is flushed, the file of a log that is intact holds the text of the journal. -/
theorem exists_flush
    (working : Place)
    (disk : Disk)
    (recorder : Recorder OpenFile) :
    ∃ flushed after,
      (recorder.flush (diskHost working)).run disk = ((flushed, .ok ()), after) ∧
        flushed.journal = recorder.journal ∧
        disk.SameBut recorder.places after ∧
          (recorder.IsIntact disk.files →
            ∀ place ∈ recorder.places,
              after.files place = some (Bytes.ofText recorder.journal.text)) := by
  obtain ⟨journal, log?⟩ := recorder
  rw [flush]
  cases log? with
  | none =>
      exact ⟨_, disk, rfl, rfl, .refl _ disk, by simp [places]⟩
  | some log =>
      obtain ⟨handle, after, ran, isPlace, same, atEnd⟩ :=
        BufferedLog.exists_flush working disk log
      refine ⟨_, after, run_bind ran _, rfl, same.mono (by simp [places]), ?_⟩
      rintro intact place ⟨_, isLog, rfl⟩
      obtain rfl := Option.some.inj isLog
      rw [← isPlace]
      exact (atEnd _ (intact _ rfl)).holds

/-- A recorder that is given up writes out what its log holds back. -/
theorem exists_close
    (working : Place)
    (disk : Disk)
    (recorder : Recorder OpenFile) :
    ∃ after,
      (recorder.close (diskHost working)).run disk = ((), after) ∧
        disk.SameBut recorder.places after ∧
          (recorder.IsIntact disk.files →
            ∀ place ∈ recorder.places,
              after.files place = some (Bytes.ofText recorder.journal.text)) := by
  obtain ⟨flushed, after, ran, -, same, holds⟩ := exists_flush working disk recorder
  exact ⟨after, run_bind ran _, same, holds⟩

end Recorder

end LibcConformance.Emission
