import LibcConformance.Proofs.Emission.RunLog

namespace LibcConformance.Emission

open FileSystem (Path Place)
open FileSystem.Tree (OpenFile)

/-!
# Emissions that are refused

The first request that is refused ends an emission.  What has been written then
are the programs of the routines before, and the log reports these and nothing
else, once the recorder is given up.
-/

/-- What an emission that is refused leaves when the programs of some routines are written. -/
structure Interrupted
    (working : Place)
    (directory : String)
    (seed : UInt64)
    (runId : String)
    (log? : Option OpenFile)
    (front : List Routine)
    (disk after closed : Disk)
    (recorder : Recorder OpenFile)
    (entries : List Log.Entry) : Prop where
  sources :
    ∀ routine ∈ front,
      programPlace working directory routine ∉ logPlaces log? →
        ∃ program,
          Suite.program seed routine = .ok program ∧
            after.files (programPlace working directory routine) =
              some (Bytes.ofText program.source)
  others :
    ∀ place ∉ logPlaces log?,
      (∀ routine ∈ front, place ≠ programPlace working directory routine) →
        after.files place = disk.files place
  behind :
    ∀ routine ∉ front,
      programPlace working directory routine ∉ logPlaces log? →
        after.files (programPlace working directory routine) =
          disk.files (programPlace working directory routine)
  journal : IsRunLog runId recorder.journal entries
  reported :
    ∃ first written,
      entries = first :: written ∧
        first.event = "emit_start" ∧
          List.Forall₂
            (fun routine entry =>
              ∃ program,
                Suite.program seed routine = .ok program ∧
                  ReportsFile (Path.join directory routine.fileName)
                    (Bytes.ofText program.source).length
                    (Sha256.hexDigest (Bytes.ofText program.source)) entry)
            front written
  closes : (recorder.close (diskHost working)).run after = ((), closed)
  released : Set.EqOn closed.files after.files (logPlaces log?)ᶜ
  log :
    (∀ file ∈ log?, IsAtEnd file disk.files []) →
      (∀ routine ∈ front, programPlace working directory routine ∉ logPlaces log?) →
        ∀ place ∈ logPlaces log?,
          closed.files place = some (Bytes.ofText recorder.journal.text)

section

variable
  {working : Place}
  {directory : String}
  {seed : UInt64}
  {runId : String}
  {log? : Option OpenFile}
  {front : List Program}
  {disk after : Disk}
  {recorder : Recorder OpenFile}

/-- A recorder that has recorded the programs in front, and no more, is interrupted there. -/
theorem exists_interrupted
    (each : ∀ program ∈ front, Suite.IsProgramOf seed program.routine program)
    {started : Instant}
    {count : Nat}
    {written : List Log.Entry}
    (records :
      recorder.Records runId (startEntry started directory seed count :: written))
    (isWritten : List.Forall₂ (IsEntryOf directory) front written)
    (hold :
      HoldPrograms working directory front (logPlaces log?) disk.files after.files)
    (places : recorder.places = logPlaces log?)
    (intact :
      (∀ program ∈ front,
        programPlace working directory program.routine ∉ logPlaces log?) →
        (∀ file ∈ log?, IsAtEnd file disk.files []) → recorder.IsIntact after.files) :
    ∃ closed entries,
      Interrupted working directory seed runId log? (front.map Program.routine) disk after
        closed recorder entries := by
  obtain ⟨closed, closes, same, holds⟩ := Recorder.exists_close working after recorder
  rw [places] at same holds
  have others :
      ∀ place ∉ logPlaces log?,
        (∀ routine ∈ front.map Program.routine,
          place ≠ programPlace working directory routine) →
          after.files place = disk.files place :=
    fun place notLog elsewhere =>
      hold.others place notLog fun program isProgram =>
        elsewhere program.routine (List.mem_map_of_mem isProgram)
  refine
    ⟨closed, numbered runId (startEntry started directory seed count :: written),
      { sources := ?sources
        others
        behind := ?behind
        journal := records.isRunLog
        reported := ?reported
        closes
        released := same.files
        log := fun fresh apart =>
          holds
            (intact
              (fun program isProgram =>
                apart program.routine (List.mem_map_of_mem isProgram))
              fresh) }⟩
  case sources =>
    refine List.forall_mem_map.mpr fun program isProgram notLog => ?_
    exact ⟨program, (each program isProgram).made, hold.sources program isProgram notLog⟩
  case behind =>
    intro routine notFront notLog
    refine others _ notLog fun other isFront samePlace => ?_
    exact notFront (programPlace_injective working directory samePlace ▸ isFront)
  case reported =>
    obtain ⟨first, renamed, shape, event, reports⟩ :=
      exists_numbered_started runId started seed count isWritten
    refine ⟨first, renamed, shape, event, ?_⟩
    rw [List.forall₂_map_left_iff]
    have reported := (List.forall₂_and_left _ _).mpr ⟨each, reports⟩
    exact reported.imp fun program entry both => ⟨program, both.1.made, both.2⟩

end

/--
An emission whose directory is refused says so, and has done nothing but start.
One whose first refusal is the program of a routine names that file; the
programs of the routines before it are written and reported, in order, and
those of this and all later routines are left alone.
-/
theorem emit_refused
    (working : Place)
    (directory : String)
    (seed : UInt64)
    (runId : String)
    (log? : Option OpenFile)
    (disk : Disk) :
    (∀ fault,
      disk.refusal 0 = some fault →
        ∃ recorder after closed entries,
          (emit (diskHost working) directory seed (.start runId (log?.map .opened))).run disk =
              (⟨recorder, .error (.makeDirectory directory fault)⟩, after) ∧
            Interrupted working directory seed runId log? [] disk after closed recorder
              entries) ∧
      ∀ front routine later fault,
        Routine.all = front ++ routine :: later →
          (∀ request ≤ front.length, disk.refusal request = none) →
            disk.refusal (front.length + 1) = some fault →
              ∃ recorder after closed entries,
                (emit (diskHost working) directory seed
                      (.start runId (log?.map .opened))).run disk =
                    (⟨recorder,
                        .error (.writeFile (Path.join directory routine.fileName) fault)⟩,
                      after) ∧
                  Interrupted working directory seed runId log? front disk after closed
                    recorder entries := by
  obtain ⟨programs, made, theirs⟩ := Suite.exists_mapM_program seed Routine.all
  have routines := Suite.routines_of_forall₂ theirs
  have each := Suite.isProgramOf_of_mem theirs
  have places := places_start runId log?
  obtain ⟨started, first, begun, ranStart, recordsStart, onlyStart⟩ :=
    exists_started working directory disk (records_start runId (log?.map .opened)) made
  have firstPlaces : first.places = logPlaces log? :=
    onlyStart.places.trans places
  have startedFiles : Set.EqOn begun.files disk.files (logPlaces log?)ᶜ := by
    rw [← places]
    exact onlyStart.same.files
  have startedIntact
      (fresh : ∀ file ∈ log?, IsAtEnd file disk.files []) :
      first.IsIntact begun.files :=
    onlyStart.intact (isIntact_start fresh runId)
  refine ⟨fun fault refused => ?_, fun front routine later fault shape granted refused => ?_⟩
  · have refusedStart : begun.refusal 0 = some fault := by
      rw [onlyStart.same.refusal, refused]
    have noPrograms :
        HoldPrograms working directory [] (logPlaces log?) disk.files begun.asked.files :=
      holdPrograms_nil startedFiles
    obtain ⟨closed, entries, interrupted⟩ :=
      exists_interrupted (by simp) recordsStart .nil noPrograms firstPlaces
        (fun _ => startedIntact)
    exact
      ⟨first, begun.asked, closed, entries,
        ranStart.trans (run_emitInto_of_refused refusedStart directory seed programs first),
        interrupted⟩
  · rw [shape] at routines
    obtain ⟨frontPrograms, backPrograms, rfl, isFront, isBack⟩ :=
      List.map_eq_append_iff.mp routines
    obtain ⟨program, rest, rfl, isRoutine, -⟩ := List.map_eq_cons_iff.mp isBack
    have length : frontPrograms.length = front.length := by
      rw [← isFront, List.length_map]
    have grantedDirectory : begun.refusal 0 = none := by
      rw [onlyStart.same.refusal]
      exact granted 0 (Nat.zero_le _)
    have requests
        (request : Nat) :
        begun.asked.tick.refusal request = disk.refusal (request + 1) :=
      congrFun onlyStart.same.refusal (request + 1)
    have grantedFront :
        ∀ request < frontPrograms.length, begun.asked.tick.refusal request = none := by
      intro request isRequest
      rw [requests]
      exact granted (request + 1) (by omega)
    have distinct : (frontPrograms.map Program.routine).Nodup := by
      have all : Routine.all.Nodup := by
        decide
      rw [shape] at all
      rw [isFront]
      exact all.of_append_left
    obtain ⟨recorder, between, written, ranFront, records, isWritten⟩ :=
      exists_emitPrograms working directory recordsStart distinct grantedFront
        (firstIndex first seed begun)
    have refusedProgram : between.refusal 0 = some fault := by
      rw [isWritten.refusal, requests, Nat.zero_add, length, refused]
    have hold :
        HoldPrograms working directory frontPrograms (logPlaces log?) disk.files
          between.asked.files := by
      have frontHold := isWritten.files
      rw [firstPlaces] at frontHold
      exact frontHold.extend startedFiles (Set.eqOn_refl _ _)
    obtain ⟨closed, entries, interrupted⟩ :=
      exists_interrupted (List.forall_mem_append.mp each).1 records isWritten.entries hold
        (isWritten.places.trans firstPlaces)
        (fun apart fresh =>
          isWritten.intact (firstPlaces ▸ apart) (startedIntact fresh))
    rw [isFront] at interrupted
    have ranPrograms := ranFront (program :: rest)
    rw [run_emitPrograms_of_refused refusedProgram] at ranPrograms
    have fileName : program.fileName = routine.fileName := by
      rw [Program.fileName, isRoutine]
    rw [fileName] at ranPrograms
    exact
      ⟨recorder, between.asked, closed, entries,
        ranStart.trans (run_emitInto_of_error grantedDirectory ranPrograms), interrupted⟩

/--
A disk that makes no directory, and one that has no room for the third program;
the log of the second stands beside the directory.
-/
theorem emit_refused_thirdProgram :
    let log : OpenFile := ⟨["work", "log.jsonl"], 0⟩
    let files : Files := fun place => if place = log.place then some [] else none
    let noDirectory : Disk := ⟨files, fun _ => ⟨0, 0⟩, fun _ => some .alreadyExists⟩
    let noRoom : Disk :=
      ⟨files, fun _ => ⟨0, 0⟩, fun request => if request = 3 then some .noSpace else none⟩
    (∃ recorder after closed entries,
      (emit (diskHost ["work"]) "out/." 0 (.start "run" none)).run noDirectory =
          (⟨recorder, .error (.makeDirectory "out/." .alreadyExists)⟩, after) ∧
        Interrupted ["work"] "out/." 0 "run" none [] noDirectory after closed recorder
          entries) ∧
      ∃ recorder after closed entries,
        (emit (diskHost ["work"]) "out/." 0 (.start "run" (some (.opened log)))).run noRoom =
            (⟨recorder, .error (.writeFile "out/./memmove_test.c" .noSpace)⟩, after) ∧
          Interrupted ["work"] "out/." 0 "run" (some log) [.memset, .memcpy] noRoom after
            closed recorder entries ∧
            closed.files log.place = some (Bytes.ofText recorder.journal.text) := by
  intro log files noDirectory noRoom
  have directoryRefused :=
    (emit_refused ["work"] "out/." 0 "run" none noDirectory).1 .alreadyExists rfl
  have grantedFront :
      ∀ request ≤ [Routine.memset, Routine.memcpy].length, noRoom.refusal request = none := by
    decide
  have programRefused :=
    (emit_refused ["work"] "out/." 0 "run" (some log) noRoom).2 [.memset, .memcpy] .memmove _
      .noSpace rfl grantedFront rfl
  obtain ⟨recorder, after, closed, entries, ran, interrupted⟩ := programRefused
  have path : Path.join "out/." Routine.memmove.fileName = "out/./memmove_test.c" := by
    decide
  rw [path] at ran
  refine ⟨directoryRefused, recorder, after, closed, entries, ran, interrupted, ?_⟩
  have noProgram : ∀ routine : Routine, routine.fileName ≠ "log.jsonl" := by
    intro routine
    cases routine <;> decide
  refine interrupted.log ?_ ?_ log.place ⟨log, rfl, rfl⟩
  · rintro file isFile
    obtain rfl := Option.some.inj isFile
    exact { holds := by simp [noRoom, files], offset := rfl }
  · exact fun routine _ => programPlace_notMem_logPlaces rfl noProgram ["work"] "out/." routine

end LibcConformance.Emission
