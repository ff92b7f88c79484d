import LibcConformance.Proofs.Artifact.IndexReadBack
import LibcConformance.Proofs.Emission.RunLog

namespace LibcConformance.Emission

open FileSystem (Path Place)
open FileSystem.Tree (OpenFile)

/-!
# Files, index and log agree

An emission that is granted everything leaves three records of the same run:
the files themselves, the index of the report and the journal with its log.
They agree file by file.  Another emission of the same seed into the same
directory finds all files as it would write them.
-/

/-- A disk that grants every request, and a log that is new and in no program's place. -/
structure Ready
    (working : Place)
    (directory : String)
    (log? : Option OpenFile)
    (disk : Disk) : Prop where
  granted : ∀ request, disk.refusal request = none
  fresh : ∀ file ∈ log?, IsAtEnd file disk.files []
  apart : ∀ routine, programPlace working directory routine ∉ logPlaces log?

/-- What the emission of a seed leaves once it has ended well. -/
structure Agreement
    (working : Place)
    (directory : String)
    (seed : UInt64)
    (runId : String)
    (log? : Option OpenFile)
    (before after : Files)
    (recorder : Recorder OpenFile)
    (report : Report)
    (entries : List Log.Entry) : Prop where
  programs : Suite.programs seed = .ok report.programs
  isIn : report.directory = directory
  sources :
    ∀ routine,
      ∃ program,
        Suite.program seed routine = .ok program ∧
          after (programPlace working directory routine) =
            some (Bytes.ofText program.source)
  others :
    ∀ place ∉ logPlaces log?,
      (∀ routine, place ≠ programPlace working directory routine) →
        after place = before place
  heading : ∃ generated, report.index.heading = .empty runId seed generated
  index :
    List.Forall₂
      (fun routine record =>
        ∃ contents,
          after (programPlace working directory routine) = some contents ∧
            (Artifact.Addition.mk (Path.join directory routine.fileName)
              Artifact.fixtureKind contents).IsRecorded record)
      Routine.all report.index.artifacts
  journal : IsRunLog runId recorder.journal entries
  count : entries.length = 17
  reported :
    ∃ first written last,
      entries = first :: (written ++ [last]) ∧
        first.event = "emit_start" ∧
        List.Forall₂
          (fun record => ReportsFile record.path record.size.toNat record.sha256)
          report.index.artifacts written ∧
        last.event = "emit_complete" ∧
        detail? last "files" = some (.integer report.fileCount) ∧
          detail? last "cases" = some (.integer report.caseCount)
  accepted :
    ∀ entry ∈ entries, ∀ number, ∃ read, Log.validateLine entry.line number = .ok read
  log :
    ∀ place ∈ logPlaces log?,
      after place = some (Bytes.ofText recorder.journal.text)

/-- What is known of an emission that has ended well. -/
structure Finished
    (working : Place)
    (directory : String)
    (seed : UInt64)
    (runId : String)
    (logs : Set Place)
    (before after : Files)
    (recorder : Recorder OpenFile)
    (report : Report)
    (entries : List Log.Entry) : Prop where
  made : Suite.programs seed = .ok report.programs
  theirs : List.Forall₂ (Suite.IsProgramOf seed) Routine.all report.programs
  isIn : report.directory = directory
  index :
    ∃ generated,
      report.index = indexed directory report.programs (.empty runId seed generated)
  records : recorder.Records runId entries
  recorded :
    ∃ started written finished,
      entries =
          startEntry started directory seed report.fileCount ::
            (written ++ [completeEntry finished report]) ∧
        List.Forall₂ (IsEntryOf directory) report.programs written
  files : HoldPrograms working directory report.programs logs before after
  log : ∀ place ∈ logs, after place = some (Bytes.ofText recorder.journal.text)

/-- The record of a program tells where its text stands, how long it is, and its digest. -/
theorem isRecorded_recordOf
    (directory : String)
    {program : Program}
    (inWord : (Bytes.ofText program.source).length < wordSize) :
    (Artifact.Addition.mk (Path.join directory program.fileName) Artifact.fixtureKind
      (Bytes.ofText program.source)).IsRecorded (recordOf directory program) := by
  rw [recordOf]
  generalize Bytes.ofText program.source = contents at inWord ⊢
  exact Artifact.isRecorded_ofContents inWord

section Running

variable
  {working : Place}
  {directory : String}
  {log? : Option OpenFile}
  {disk : Disk}

/-- An emission that is granted everything starts, writes every program and is complete. -/
theorem exists_emit
    (ready : Ready working directory log? disk)
    (seed : UInt64)
    (runId : String) :
    ∃ report recorder after entries,
      (emit (diskHost working) directory seed (.start runId (log?.map .opened))).run disk =
          (⟨recorder, .ok report⟩, after) ∧
        (∀ request, after.refusal request = none) ∧
          Finished working directory seed runId (logPlaces log?) disk.files after.files
            recorder report entries := by
  obtain ⟨programs, made, theirs⟩ := Suite.exists_mapM_program seed Routine.all
  have routines := Suite.routines_of_forall₂ theirs
  have places := places_start runId log?
  obtain ⟨started, first, begun, ranStart, recordsStart, onlyStart⟩ :=
    exists_started working directory disk (records_start runId (log?.map .opened)) made
  have granted (request : Nat) : begun.refusal request = none := by
    rw [onlyStart.same.refusal]
    exact ready.granted request
  have distinct : (programs.map Program.routine).Nodup := by
    rw [routines]
    decide
  -- The directory takes the first request, and the programs those behind it.
  have grantedPrograms :
      ∀ request < programs.length, begun.asked.tick.refusal request = none :=
    fun request _ => granted (request + 1)
  obtain ⟨last, between, written, ranPrograms, recordsPrograms, isWritten⟩ :=
    exists_emitPrograms working directory recordsStart distinct grantedPrograms
      (firstIndex first seed begun)
  let report : Report :=
    { directory, programs, index := indexed directory programs (firstIndex first seed begun) }
  obtain ⟨finished, recorder, after, ranEnd, recordsEnd, same, holds⟩ :=
    exists_completed working between recordsPrograms report
  have ran := ranPrograms []
  rw [List.append_nil] at ran
  have isRunId : first.journal.runId = runId := by
    rw [recordsStart]
  have apart :
      ∀ program ∈ programs, programPlace working directory program.routine ∉ first.places := by
    intro program _
    rw [onlyStart.places, places]
    exact ready.apart program.routine
  have intact : last.IsIntact between.files :=
    isWritten.intact apart (onlyStart.intact (isIntact_start ready.fresh runId))
  rw [isWritten.places, onlyStart.places, places] at same holds
  refine
    ⟨report, recorder, after, _,
      ranStart.trans ((run_emitInto_of_ok (granted 0) ran).trans ranEnd),
      fun request => ?_,
      { made, theirs
        isIn := rfl
        index := ⟨(begun.clock 0).timestamp, ?_⟩
        records := recordsEnd
        recorded := ⟨started, written, finished, rfl, isWritten.entries⟩
        files := ?_
        log := holds intact }⟩
  · rw [same.refusal, isWritten.refusal]
    exact granted (request + programs.length + 1)
  · rw [← isRunId]
    rfl
  · have hold := isWritten.files
    rw [onlyStart.places, places] at hold
    have begun := onlyStart.same.files
    rw [places] at begun
    exact hold.extend begun same.files

end Running

namespace Finished

variable
  {working : Place}
  {directory : String}
  {seed : UInt64}
  {runId otherId : String}
  {log? : Option OpenFile}
  {logs otherLogs : Set Place}
  {before after again last : Files}
  {recorder otherRecorder : Recorder OpenFile}
  {report repeated : Report}
  {entries otherEntries : List Log.Entry}

theorem artifacts_eq_map
    (finished :
      Finished working directory seed runId logs before after recorder report entries) :
    report.index.artifacts = report.programs.map (recordOf directory) := by
  obtain ⟨generated, isIndex⟩ := finished.index
  rw [isIndex]
  rfl

theorem caseCount_eq
    (finished :
      Finished working directory seed runId logs before after recorder report entries) :
    report.caseCount = 80 :=
  Suite.length_tests_of_forall₂ finished.theirs

theorem fileCount_eq
    (finished :
      Finished working directory seed runId logs before after recorder report entries) :
    report.fileCount = 15 :=
  finished.theirs.length_eq.symm

/-- The details of all entries are kept, so their lines are accepted. -/
theorem keptDetails
    (finished :
      Finished working directory seed runId logs before after recorder report entries) :
    ∀ entry ∈ entries, ∀ details ∈ entry.details, details.IsKept 126 := by
  obtain ⟨started, written, moment, rfl, isWritten⟩ := finished.recorded
  have cases : report.caseCount < wordSize := by
    rw [finished.caseCount_eq]
    decide
  have files : report.fileCount < wordSize := by
    rw [finished.fileCount_eq]
    decide
  have each := Suite.isProgramOf_of_mem finished.theirs
  refine List.forall_mem_cons.mpr ⟨keptDetails_startEntry started directory seed files, ?_⟩
  refine List.forall_mem_append.mpr ⟨keptDetails_of_forall₂ each isWritten, ?_⟩
  exact List.forall_mem_singleton.mpr (keptDetails_completeEntry moment cases files)

/-- Every program is recorded with the path, the size and the digest of its text. -/
theorem isRecorded
    (finished :
      Finished working directory seed runId logs before after recorder report entries) :
    ∀ program ∈ report.programs,
      (Artifact.Addition.mk (Path.join directory program.fileName) Artifact.fixtureKind
        (Bytes.ofText program.source)).IsRecorded (recordOf directory program) := by
  intro program isProgram
  have isProgramOf := Suite.isProgramOf_of_mem finished.theirs program isProgram
  exact isRecorded_recordOf directory (Suite.length_source_lt_wordSize isProgramOf.made)

/-- The entries report the files as the index lists them. -/
theorem exists_reported
    (finished :
      Finished working directory seed runId logs before after recorder report entries) :
    ∃ first written last,
      numbered runId entries = first :: (written ++ [last]) ∧
        first.event = "emit_start" ∧
        List.Forall₂
          (fun record => ReportsFile record.path record.size.toNat record.sha256)
          report.index.artifacts written ∧
        last.event = "emit_complete" ∧
        detail? last "files" = some (.integer report.fileCount) ∧
          detail? last "cases" = some (.integer report.caseCount) := by
  obtain ⟨started, written, moment, rfl, isWritten⟩ := finished.recorded
  obtain ⟨first, renamed, shape, event, reports⟩ :=
    exists_numbered_started runId started seed report.fileCount isWritten
  refine
    ⟨first, renamed,
      { completeEntry moment report with
        traceId :=
          Log.generatedId runId
            ((startEntry started directory seed report.fileCount :: written).length + 1) },
      ?_, event, ?_, rfl, rfl, rfl⟩
  · rw [← List.cons_append, numbered_concat, shape, List.cons_append]
  · rw [finished.artifacts_eq_map, List.forall₂_map_left_iff]
    have reported := (List.forall₂_and_left _ _).mpr ⟨finished.isRecorded, reports⟩
    refine reported.imp fun program entry both => ?_
    obtain ⟨isRecorded, isReported⟩ := both
    rw [isRecorded.path, isRecorded.size, isRecorded.sha256]
    dsimp only
    exact isReported

/-- What an emission has written, listed and recorded agrees. -/
theorem agreement
    (finished :
      Finished working directory seed runId (logPlaces log?) before after recorder report
        entries)
    (apart : ∀ routine, programPlace working directory routine ∉ logPlaces log?) :
    Agreement working directory seed runId log? before after recorder report
      (numbered runId entries) := by
  have each := Suite.isProgramOf_of_mem finished.theirs
  have routines := Suite.routines_of_forall₂ finished.theirs
  have held :
      ∀ program ∈ report.programs,
        after (programPlace working directory program.routine) =
          some (Bytes.ofText program.source) :=
    fun program isProgram => finished.files.sources program isProgram (apart program.routine)
  refine
    { programs := finished.made
      isIn := finished.isIn
      sources := ?sources
      others := ?others
      heading := ?heading
      index := ?index
      journal := finished.records.isRunLog
      count := ?count
      reported := finished.exists_reported
      accepted := fun entry isEntry =>
        (isValid_of_mem_numbered finished.keptDetails isEntry).line_accepted
      log := finished.log }
  case sources =>
    intro routine
    have isRoutine := routine.mem_all
    rw [← routines] at isRoutine
    obtain ⟨program, isProgram, rfl⟩ := List.mem_map.mp isRoutine
    exact ⟨program, (each program isProgram).made, held program isProgram⟩
  case others =>
    intro place notLog elsewhere
    exact finished.files.others place notLog fun program _ => elsewhere program.routine
  case heading =>
    obtain ⟨generated, isIndex⟩ := finished.index
    rw [isIndex]
    exact ⟨generated, rfl⟩
  case index =>
    rw [finished.artifacts_eq_map, ← routines, List.forall₂_map_left_iff,
      List.forall₂_map_right_iff, List.forall₂_same]
    exact fun program isProgram =>
      ⟨Bytes.ofText program.source, held program isProgram,
        finished.isRecorded program isProgram⟩
  case count =>
    obtain ⟨started, written, moment, rfl, isWritten⟩ := finished.recorded
    rw [length_numbered, List.length_cons, List.length_append, ← isWritten.length_eq,
      ← finished.theirs.length_eq]
    rfl

/-- Two emissions of one seed write the same programs. -/
theorem programs_eq
    (finished :
      Finished working directory seed runId logs before after recorder report entries)
    (other :
      Finished working directory seed otherId otherLogs again last otherRecorder repeated
        otherEntries) :
    repeated.programs = report.programs :=
  Except.ok.inj (other.made.symm.trans finished.made)

/-- Two emissions of one seed record the same, but for times and trace ids. -/
theorem contents_eq
    (finished :
      Finished working directory seed runId logs before after recorder report entries)
    (other :
      Finished working directory seed otherId otherLogs again last otherRecorder repeated
        otherEntries) :
    (numbered otherId otherEntries).map content = (numbered runId entries).map content := by
  have samePrograms := finished.programs_eq other
  have sameFiles : repeated.fileCount = report.fileCount := by
    rw [other.fileCount_eq, finished.fileCount_eq]
  have sameCases : repeated.caseCount = report.caseCount := by
    rw [other.caseCount_eq, finished.caseCount_eq]
  rw [contents_of_renamed (renamed_numbered otherId otherEntries),
    contents_of_renamed (renamed_numbered runId entries)]
  obtain ⟨started, written, moment, rfl, isWritten⟩ := finished.recorded
  obtain ⟨otherStarted, otherWritten, otherMoment, rfl, isOther⟩ := other.recorded
  rw [samePrograms] at isOther
  simp only [List.map_cons, List.map_append, List.map_nil,
    contents_of_forall₂ isOther isWritten, content, startEntry, completeEntry,
    Log.Entry.plain, sameFiles, sameCases]

end Finished

/-- An emission that finds the files of another as it has left them leaves them like that. -/
theorem Agreement.unchanged
    {working : Place}
    {directory : String}
    {seed : UInt64}
    {runId otherId : String}
    {log? other? : Option OpenFile}
    {before after again last : Files}
    {recorder otherRecorder : Recorder OpenFile}
    {report repeated : Report}
    {entries otherEntries : List Log.Entry}
    (first :
      Agreement working directory seed runId log? before after recorder report entries)
    (second :
      Agreement working directory seed otherId other? again last otherRecorder repeated
        otherEntries)
    (left : Set.EqOn again after (logPlaces other?)ᶜ) :
    Set.EqOn last again (logPlaces other?)ᶜ := by
  intro place notLog
  by_cases isProgram : ∃ routine, place = programPlace working directory routine
  · obtain ⟨routine, rfl⟩ := isProgram
    obtain ⟨program, made, holds⟩ := first.sources routine
    obtain ⟨other, otherMade, holdsOther⟩ := second.sources routine
    obtain rfl := Except.ok.inj (made.symm.trans otherMade)
    rw [left notLog, holds, holdsOther]
  · exact second.others place notLog fun routine same => isProgram ⟨routine, same⟩

/--
An emission that is granted everything ends well, and its files, its index and
its log agree.  Another one of the same seed, on a disk whose files are as the
first has left them, changes none but its own log; it writes the same programs,
lists the same records and reports the same, up to the times and trace ids.
-/
theorem emit_agrees
    (working : Place)
    (directory : String)
    (seed : UInt64)
    (runId : String)
    (log? : Option OpenFile)
    (disk : Disk)
    (ready : Ready working directory log? disk) :
    ∃ report recorder after entries,
      (emit (diskHost working) directory seed (.start runId (log?.map .opened))).run disk =
          (⟨recorder, .ok report⟩, after) ∧
        (∀ request, after.refusal request = none) ∧
        Agreement working directory seed runId log? disk.files after.files recorder report
          entries ∧
        ∀ again otherId other?,
          Ready working directory other? again →
            Set.EqOn again.files after.files (logPlaces other?)ᶜ →
              ∃ repeated otherRecorder last otherEntries,
                (emit (diskHost working) directory seed
                      (.start otherId (other?.map .opened))).run again =
                    (⟨otherRecorder, .ok repeated⟩, last) ∧
                  Agreement working directory seed otherId other? again.files last.files
                    otherRecorder repeated otherEntries ∧
                  Set.EqOn last.files again.files (logPlaces other?)ᶜ ∧
                  repeated.programs = report.programs ∧
                  repeated.index.artifacts = report.index.artifacts ∧
                    otherEntries.map content = entries.map content := by
  obtain ⟨report, recorder, after, entries, ran, granted, finished⟩ :=
    exists_emit ready seed runId
  have agreement := finished.agreement ready.apart
  refine
    ⟨report, recorder, after, numbered runId entries, ran, granted, agreement,
      fun again otherId other? readyAgain left => ?_⟩
  obtain ⟨repeated, otherRecorder, last, otherEntries, ranAgain, -, finishedAgain⟩ :=
    exists_emit readyAgain seed otherId
  have agreementAgain := finishedAgain.agreement readyAgain.apart
  refine
    ⟨repeated, otherRecorder, last, numbered otherId otherEntries, ranAgain, agreementAgain,
      agreement.unchanged agreementAgain left, finished.programs_eq finishedAgain, ?_,
      finished.contents_eq finishedAgain⟩
  rw [finishedAgain.artifacts_eq_map, finished.artifacts_eq_map,
    finished.programs_eq finishedAgain]

/--
A stale program and a note stand on the disk of the first emission, which has a
log beside the directory; the second has none and finds everything in place.
-/
theorem emit_agrees_overStaleFile :
    let log : OpenFile := ⟨["work", "log.jsonl"], 0⟩
    let files : Files := fun place =>
      if place = log.place then some []
      else if place = ["work", "out", "memset_test.c"] then some [0x00, 0xff]
      else if place = ["work", "out", "notes"] then some [0x0a]
      else none
    let disk : Disk := ⟨files, fun _ => ⟨0, 0⟩, fun _ => none⟩
    Ready ["work"] "out/" (some log) disk ∧
      ∃ report recorder after entries,
        (emit (diskHost ["work"]) "out/" 0xffffffffffffffff
              (.start "a\nb" (some (.opened log)))).run disk =
            (⟨recorder, .ok report⟩, after) ∧
          Agreement ["work"] "out/" 0xffffffffffffffff "a\nb" (some log) files after.files
            recorder report entries ∧
          Ready ["work"] "out/" none after ∧
            ∃ repeated otherRecorder last,
              (emit (diskHost ["work"]) "out/" 0xffffffffffffffff (.start "" none)).run after =
                  (⟨otherRecorder, .ok repeated⟩, last) ∧
                last.files = after.files ∧
                  repeated.index.artifacts = report.index.artifacts := by
  intro log files disk
  have noProgram : ∀ routine : Routine, routine.fileName ≠ "log.jsonl" := by
    intro routine
    cases routine <;> decide
  have ready : Ready ["work"] "out/" (some log) disk :=
    { granted := fun _ => rfl
      fresh := by
        rintro file isFile
        obtain rfl := Option.some.inj isFile
        exact { holds := by simp [disk, files], offset := rfl }
      apart := programPlace_notMem_logPlaces rfl noProgram ["work"] "out/" }
  obtain ⟨report, recorder, after, entries, ran, granted, agreement, repeats⟩ :=
    emit_agrees ["work"] "out/" 0xffffffffffffffff "a\nb" (some log) disk ready
  have readyAgain : Ready ["work"] "out/" none after :=
    { granted
      fresh := by simp
      apart := by simp [logPlaces] }
  obtain ⟨repeated, otherRecorder, last, otherEntries, ranAgain, -, unchanged, -, listed, -⟩ :=
    repeats after "" none readyAgain (Set.eqOn_refl _ _)
  have everywhere : last.files = after.files :=
    funext fun place => unchanged (by simp [logPlaces])
  exact
    ⟨ready, report, recorder, after, entries, ran, agreement, readyAgain, repeated,
      otherRecorder, last, ranAgain, everywhere, listed⟩

end LibcConformance.Emission
