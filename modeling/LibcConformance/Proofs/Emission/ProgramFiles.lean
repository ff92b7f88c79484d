import LibcConformance.Emission.Suite
import LibcConformance.Proofs.Emission.LogFile

namespace LibcConformance.Emission

open FileSystem (Fault Path Place locate)
open FileSystem.Tree (OpenFile)

/-!
# Program files

Programs are written into a directory one after the other, each to a file of
its own.  As long as they are granted, every file holds its program, the index
lists it and the journal reports it, in the same order; a write that is refused
ends that, and leaves what has been written before.
-/

section Places

/-- The place that the program of a routine is written to. -/
def programPlace
    (working : Place)
    (directory : String)
    (routine : Routine) : Place :=
  locate working (Path.join directory routine.fileName)

theorem isPlain_fileName
    (routine : Routine) :
    Path.IsPlain routine.fileName := by
  cases routine <;> exact ⟨by decide, by decide, by decide, by decide⟩

/-- Every routine has a place of its own, right below the directory. -/
theorem programPlace_injective
    (working : Place)
    (directory : String) :
    Function.Injective (programPlace working directory) := by
  intro first second same
  have names : ∀ first second : Routine, first.fileName = second.fileName → first = second := by
    intro first second
    cases first <;> cases second <;> decide
  rw [programPlace, programPlace, Path.locate_join (isPlain_fileName first),
    Path.locate_join (isPlain_fileName second)] at same
  exact names first second (List.cons.inj (List.append_cancel_left same)).1

end Places

/-- Files of which those of programs hold their texts, and the others what they held. -/
structure HoldPrograms
    (working : Place)
    (directory : String)
    (programs : List Program)
    (logs : Set Place)
    (files after : Files) : Prop where
  sources :
    ∀ program ∈ programs,
      programPlace working directory program.routine ∉ logs →
        after (programPlace working directory program.routine) =
          some (Bytes.ofText program.source)
  others :
    ∀ place ∉ logs,
      (∀ program ∈ programs, place ≠ programPlace working directory program.routine) →
        after place = files place

/-- The entry of a program that is written into a directory at some time. -/
def IsEntryOf
    (directory : String)
    (program : Program)
    (entry : Log.Entry) : Prop :=
  ∃ instant,
    entry =
      writtenEntry instant program (Path.join directory program.fileName)
        (Bytes.ofText program.source)

/-- The record of a program that is written into a directory. -/
def recordOf
    (directory : String)
    (program : Program) : Artifact.Record :=
  .ofContents (Path.join directory program.fileName) Artifact.fixtureKind
    (Bytes.ofText program.source)

/-- An index with the records of programs that are written into a directory behind its own. -/
def indexed
    (directory : String)
    (programs : List Program)
    (index : Artifact.Index) : Artifact.Index :=
  { index with artifacts := index.artifacts ++ programs.map (recordOf directory) }

section Files

variable
  {working : Place}
  {directory : String}
  {logs : Set Place}
  {files between after : Files}

theorem holdPrograms_nil
    (same : Set.EqOn after files logsᶜ) :
    HoldPrograms working directory [] logs files after where
  sources := by simp
  others place notLog _ := same notLog

theorem holdPrograms_singleton
    {program : Program}
    (written :
      Set.EqOn after
        (Function.update files (programPlace working directory program.routine)
          (some (Bytes.ofText program.source)))
        logsᶜ) :
    HoldPrograms working directory [program] logs files after where
  sources := by
    rw [List.forall_mem_singleton]
    intro notLog
    rw [written notLog, Function.update_self]
  others := by
    intro place notLog elsewhere
    rw [List.forall_mem_singleton] at elsewhere
    rw [written notLog, Function.update_of_ne elsewhere]

/-- Steps that write to nothing but logs may come before and after. -/
theorem HoldPrograms.extend
    {programs : List Program}
    {last : Files}
    (begun : Set.EqOn between files logsᶜ)
    (hold : HoldPrograms working directory programs logs between last)
    (ended : Set.EqOn after last logsᶜ) :
    HoldPrograms working directory programs logs files after where
  sources program isProgram notLog :=
    (ended notLog).trans (hold.sources program isProgram notLog)
  others place notLog elsewhere :=
    (ended notLog).trans ((hold.others place notLog elsewhere).trans (begun notLog))

/-- Programs of other routines leave alone what has been written before them. -/
theorem HoldPrograms.append
    {front back : List Program}
    (distinct : ((front ++ back).map Program.routine).Nodup)
    (holdFront : HoldPrograms working directory front logs files between)
    (holdBack : HoldPrograms working directory back logs between after) :
    HoldPrograms working directory (front ++ back) logs files after where
  sources := by
    refine List.forall_mem_append.mpr ⟨fun program isFront notLog => ?_, holdBack.sources⟩
    rw [holdBack.others _ notLog]
    · exact holdFront.sources program isFront notLog
    · intro other isBack samePlace
      have sameRoutine := programPlace_injective working directory samePlace
      rw [List.map_append] at distinct
      exact
        (List.disjoint_of_nodup_append distinct) (List.mem_map_of_mem isFront)
          (sameRoutine ▸ List.mem_map_of_mem isBack)
  others := by
    intro place notLog elsewhere
    rw [List.forall_mem_append] at elsewhere
    rw [holdBack.others place notLog elsewhere.2, holdFront.others place notLog elsewhere.1]

end Files

section Emission

variable
  {working : Place}
  {directory : String}
  {disk : Disk}
  {recorder : Recorder OpenFile}
  {runId : String}
  {entries : List Log.Entry}

/-- What has been done once programs are written: new entries, their files and their requests. -/
structure Written
    (working : Place)
    (directory : String)
    (programs : List Program)
    (recorder recorded : Recorder OpenFile)
    (disk after : Disk)
    (entries : List Log.Entry) : Prop where
  entries : List.Forall₂ (IsEntryOf directory) programs entries
  places : recorded.places = recorder.places
  files : HoldPrograms working directory programs recorder.places disk.files after.files
  refusal : ∀ request, after.refusal request = disk.refusal (request + programs.length)
  intact :
    (∀ program ∈ programs,
      programPlace working directory program.routine ∉ recorder.places) →
      recorder.IsIntact disk.files → recorded.IsIntact after.files

theorem written_nil
    (working : Place)
    (directory : String)
    (recorder : Recorder OpenFile)
    (disk : Disk) :
    Written working directory [] recorder recorder disk disk [] where
  entries := .nil
  places := rfl
  files := holdPrograms_nil (Set.eqOn_refl _ _)
  refusal _ := rfl
  intact _ := id

theorem Written.append
    {front back : List Program}
    {recorded last : Recorder OpenFile}
    {between after : Disk}
    {more : List Log.Entry}
    (distinct : ((front ++ back).map Program.routine).Nodup)
    (first : Written working directory front recorder recorded disk between entries)
    (second : Written working directory back recorded last between after more) :
    Written working directory (front ++ back) recorder last disk after (entries ++ more) where
  entries := List.rel_append first.entries second.entries
  places := second.places.trans first.places
  files := first.files.append distinct (first.places ▸ second.files)
  refusal request := by
    rw [second.refusal, first.refusal, List.length_append, Nat.add_assoc, Nat.add_comm back.length]
  intact apart isIntact := by
    rw [List.forall_mem_append] at apart
    refine second.intact ?_ (first.intact apart.1 isIntact)
    rw [first.places]
    exact apart.2

/-- A program that is granted is written and recorded, and then it goes on behind it. -/
theorem exists_emitProgram
    (working : Place)
    (directory : String)
    (records : recorder.Records runId entries)
    (program : Program)
    (granted : disk.refusal 0 = none)
    (index : Artifact.Index) :
    ∃ recorded after entry,
      (∀ rest,
        (emitPrograms (diskHost working) directory (program :: rest) recorder index).run disk =
          (emitPrograms (diskHost working) directory rest recorded
            (indexed directory [program] index)).run after) ∧
        recorded.Records runId (entries ++ [entry]) ∧
          Written working directory [program] recorder recorded disk after [entry] := by
  let path := Path.join directory program.fileName
  let contents := Bytes.ofText program.source
  let place := programPlace working directory program.routine
  let written := disk.asked.put place contents
  have ranWrite :
      ((diskHost working).writeFile path contents).run disk = (.ok (), written) :=
    run_writeFile_of_granted granted path contents
  obtain ⟨instant, recorded, after, ran, isRecorded, logs⟩ :=
    Recorder.exists_recordNow working written recorder
      (writtenEntry · program path contents)
  refine
    ⟨recorded, after, writtenEntry instant program path contents, fun rest => ?_,
      records.record rfl isRecorded,
      { entries := .cons ⟨instant, rfl⟩ .nil
        places := logs.places
        files := holdPrograms_singleton logs.same.files
        refusal := fun request => congrFun logs.same.refusal request
        intact := fun apart isIntact =>
          logs.intact (isIntact.congr fun log isLog => ?_) }⟩
  · rw [emitPrograms]
    refine (run_bind ranWrite _).trans ?_
    exact ran _
  · refine Function.update_of_ne ?_ _ _
    rintro rfl
    exact apart program (.head _) isLog

/-- A program that is refused ends the emission, and the disk holds what it held. -/
theorem run_emitPrograms_of_refused
    {fault : Fault}
    (refused : disk.refusal 0 = some fault)
    (program : Program)
    (rest : List Program)
    (recorder : Recorder OpenFile)
    (index : Artifact.Index) :
    (emitPrograms (diskHost working) directory (program :: rest) recorder index).run disk =
      (⟨recorder, .error (.writeFile (Path.join directory program.fileName) fault)⟩,
        disk.asked) := by
  rw [emitPrograms]
  exact run_bind (run_writeFile_of_refused refused _ _) _

/-- Programs that are granted are written, and then it goes on with those behind them. -/
theorem exists_emitPrograms
    (working : Place)
    (directory : String)
    (records : recorder.Records runId entries)
    {programs : List Program}
    (distinct : (programs.map Program.routine).Nodup)
    (granted : ∀ request < programs.length, disk.refusal request = none)
    (index : Artifact.Index) :
    ∃ recorded after written,
      (∀ others,
        (emitPrograms (diskHost working) directory (programs ++ others) recorder index).run
            disk =
          (emitPrograms (diskHost working) directory others recorded
            (indexed directory programs index)).run after) ∧
        recorded.Records runId (entries ++ written) ∧
          Written working directory programs recorder recorded disk after written := by
  -- What goes on behind is left open, so that a refusal there is a case of this one.
  induction programs generalizing recorder disk entries index with
  | nil =>
      refine
        ⟨recorder, disk, [], fun others => ?_, ?_,
          written_nil working directory recorder disk⟩
      · rw [List.nil_append, indexed, List.map_nil, List.append_nil]
      · rwa [List.append_nil]
  | cons program rest inductionHypothesis =>
      have first := granted 0 (Nat.zero_lt_succ _)
      obtain ⟨between, middle, entry, ran, recordsFirst, one⟩ :=
        exists_emitProgram working directory records program first index
      have grantedRest : ∀ request < rest.length, middle.refusal request = none := by
        intro request isRequest
        rw [one.refusal]
        exact granted (request + 1) (Nat.succ_lt_succ isRequest)
      obtain ⟨recorded, after, written, ranRest, recordsRest, more⟩ :=
        inductionHypothesis recordsFirst (List.nodup_cons.mp distinct).2 grantedRest
          (indexed directory [program] index)
      refine
        ⟨recorded, after, entry :: written, fun others => ?_, ?_,
          one.append distinct more⟩
      · rw [List.cons_append, ran, ranRest, indexed, indexed, indexed, List.append_assoc,
          List.map_singleton, List.map_cons, List.singleton_append]
      · rwa [List.append_assoc] at recordsRest

end Emission

end LibcConformance.Emission
