import LibcConformance.Proofs.Emission.ProgramFiles
import LibcConformance.Proofs.Suite.ProgramSize

namespace LibcConformance.Emission

open FileSystem (Fault Path Place)
open FileSystem.Tree (OpenFile)

/-!
# Runs of the suite

Around the programs an emission records that it starts and, once everything is
written, that it is complete.  A run therefore ends in one of three ways: the
directory is refused and nothing is written, the program of a routine is refused
and those of the routines before it are written, or every program is.
-/

/-- The place of a log, if there is one. -/
def logPlaces
    (log? : Option OpenFile) : Set Place :=
  {place | ∃ file ∈ log?, file.place = place}

section Start

variable
  {log? : Option OpenFile}

theorem places_start
    (runId : String)
    (log? : Option OpenFile) :
    (Recorder.start runId (log?.map .opened)).places = logPlaces log? := by
  cases log? with
  | none =>
      simp [Recorder.places, Recorder.start, logPlaces]
  | some file =>
      simp [Recorder.places, Recorder.start, logPlaces, BufferedLog.opened]

/-- No program stands in the place of a log that has another name. -/
theorem programPlace_notMem_logPlaces
    {file : OpenFile}
    {name : String}
    (isLast : file.place.getLast? = some name)
    (noProgram : ∀ routine : Routine, routine.fileName ≠ name)
    (working : Place)
    (directory : String)
    (routine : Routine) :
    programPlace working directory routine ∉ logPlaces (some file) := by
  rintro ⟨log, isLog, isPlace⟩
  obtain rfl := Option.some.inj isLog
  rw [isPlace, programPlace, Path.locate_join (isPlain_fileName routine),
    List.getLast?_concat] at isLast
  exact noProgram routine (Option.some.inj isLast)

theorem isIntact_start
    {files : Files}
    (fresh : ∀ file ∈ log?, IsAtEnd file files [])
    (runId : String) :
    (Recorder.start runId (log?.map .opened)).IsIntact files := by
  rintro log isLog
  obtain ⟨file, isFile, rfl⟩ := Option.map_eq_some_iff.mp isLog
  exact BufferedLog.holds_opened (fresh file isFile)

theorem records_start
    (runId : String)
    (log? : Option (BufferedLog OpenFile)) :
    (Recorder.start runId log?).Records runId [] :=
  rfl

end Start

variable
  {working : Place}
  {directory : String}
  {seed : UInt64}
  {disk : Disk}
  {recorder : Recorder OpenFile}
  {runId : String}
  {entries : List Log.Entry}
  {programs : List Program}

/-- An emission first records that it starts, whatever comes of it. -/
theorem exists_started
    (working : Place)
    (directory : String)
    (disk : Disk)
    (records : recorder.Records runId [])
    (made : Suite.programs seed = .ok programs) :
    ∃ instant recorded after,
      (emit (diskHost working) directory seed recorder).run disk =
          (emitInto (diskHost working) directory seed programs recorded).run after ∧
        recorded.Records runId [startEntry instant directory seed programs.length] ∧
          recorder.OnlyLogs recorded disk after := by
  obtain ⟨instant, recorded, after, ran, isRecorded, logs⟩ :=
    Recorder.exists_recordNow working disk recorder
      (startEntry · directory seed programs.length)
  refine ⟨instant, recorded, after, ?_, records.record rfl isRecorded, logs⟩
  rw [emit, made]
  exact ran _

theorem run_emitInto_of_refused
    {fault : Fault}
    (refused : disk.refusal 0 = some fault)
    (directory : String)
    (seed : UInt64)
    (programs : List Program)
    (recorder : Recorder OpenFile) :
    (emitInto (diskHost working) directory seed programs recorder).run disk =
      (⟨recorder, .error (.makeDirectory directory fault)⟩, disk.asked) := by
  rw [emitInto]
  exact run_bind (run_makeDirectories_of_refused refused directory) _

section Granted

variable
  {recorded : Recorder OpenFile}
  {after : Disk}

/-- The index of an emission before anything is written. -/
def firstIndex
    (recorder : Recorder OpenFile)
    (seed : UInt64)
    (disk : Disk) : Artifact.Index :=
  .empty recorder.journal.runId seed (disk.clock 0).timestamp

theorem run_emitInto_of_error
    (granted : disk.refusal 0 = none)
    {error : EmissionError}
    (ran :
      (emitPrograms (diskHost working) directory programs recorder
          (firstIndex recorder seed disk)).run disk.asked.tick =
        (⟨recorded, .error error⟩, after)) :
    (emitInto (diskHost working) directory seed programs recorder).run disk =
      (⟨recorded, .error error⟩, after) := by
  rw [emitInto]
  refine (run_bind (run_makeDirectories_of_granted granted directory) _).trans ?_
  refine (run_bind (run_now working disk.asked) _).trans ?_
  exact run_bind ran _

theorem run_emitInto_of_ok
    (granted : disk.refusal 0 = none)
    {index : Artifact.Index}
    (ran :
      (emitPrograms (diskHost working) directory programs recorder
          (firstIndex recorder seed disk)).run disk.asked.tick =
        (⟨recorded, .ok index⟩, after)) :
    (emitInto (diskHost working) directory seed programs recorder).run disk =
      (complete (diskHost working) { directory, programs, index } recorded).run after := by
  rw [emitInto]
  refine (run_bind (run_makeDirectories_of_granted granted directory) _).trans ?_
  refine (run_bind (run_now working disk.asked) _).trans ?_
  exact run_bind ran _

end Granted

/-- The end of an emission is recorded, and the log is written out. -/
theorem exists_completed
    (working : Place)
    (disk : Disk)
    (records : recorder.Records runId entries)
    (report : Report) :
    ∃ instant completed after,
      (complete (diskHost working) report recorder).run disk =
          (⟨completed, .ok report⟩, after) ∧
        completed.Records runId (entries ++ [completeEntry instant report]) ∧
        disk.SameBut recorder.places after ∧
          (recorder.IsIntact disk.files →
            ∀ place ∈ recorder.places,
              after.files place = some (Bytes.ofText completed.journal.text)) := by
  obtain ⟨instant, recorded, between, ran, isRecorded, logs⟩ :=
    Recorder.exists_recordNow working disk recorder (completeEntry · report)
  obtain ⟨flushed, after, ranFlush, sameJournal, same, holds⟩ :=
    Recorder.exists_flush working between recorded
  rw [logs.places] at same holds
  refine
    ⟨instant, flushed, after, ?_, records.record rfl (sameJournal.trans isRecorded),
      logs.same.trans same, fun intact => ?_⟩
  · rw [complete]
    refine (ran _).trans ?_
    exact run_bind ranFlush _
  · rw [sameJournal]
    exact holds (logs.intact intact)

end LibcConformance.Emission
