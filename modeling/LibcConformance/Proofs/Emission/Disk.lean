import Mathlib.Data.Set.Function
import LibcConformance.Emission.Host
import LibcConformance.Proofs.FileSystem.Location

namespace LibcConformance.Emission

open FileSystem (Fault Place locate)
open FileSystem.Tree (OpenFile)

/-!
# Disks

A disk is a host in which only the files matter.  It may refuse to make a
directory or to write a file, and then nothing changes.  What it grants to write
replaces all that the file held, as on a tree (`Tree.find?_writeFile`), at the
place that the path leads to.  Writing to an open log always succeeds.  Which
requests are refused, and which times the clock tells, is settled beforehand.
-/

/-- What every place holds, if there is a file. -/
abbrev Files :=
  Place → Option Bytes

/-- The files of a host, and how it goes on. -/
structure Disk where
  files : Files
  /-- The times that are told from now on. -/
  clock : Nat → Instant
  /-- Why a request is refused, request by request from now on; the others are granted. -/
  refusal : Nat → Option Fault

/-- A sequence without its first element. -/
def later
    {Content : Type}
    (sequence : Nat → Content) : Nat → Content :=
  fun count => sequence (count + 1)

namespace Disk

/-- The disk after a time is told. -/
def tick
    (disk : Disk) : Disk :=
  { disk with clock := later disk.clock }

/-- The disk after a request that is refused, or has no effect on files. -/
def asked
    (disk : Disk) : Disk :=
  { disk with refusal := later disk.refusal }

/-- A disk on which a place holds a file. -/
def put
    (disk : Disk)
    (place : Place)
    (contents : Bytes) : Disk :=
  { disk with files := Function.update disk.files place (some contents) }

/-- What a request comes to; only one that is granted has an effect. -/
def request
    (disk : Disk)
    (effect : Disk → Disk) : Except Fault Unit × Disk :=
  match disk.refusal 0 with
  | some fault => (.error fault, disk.asked)
  | none => (.ok (), effect disk.asked)

/-- The disk after bytes are written to an open file, over what it holds. -/
def writeOpen
    (disk : Disk)
    (file : OpenFile)
    (bytes : Bytes) : Disk :=
  match disk.files file.place with
  | some contents =>
      disk.put file.place ((contents.zeroPadded file.offset).overlay bytes file.offset)
  | none => disk

end Disk

/-- The host of a disk, given the directory that relative paths start from. -/
def diskHost
    (working : Place) :
    Host OpenFile (StateM Disk) where
  now := modifyGet fun disk => (disk.clock 0, disk.tick)
  makeDirectories _ := modifyGet fun disk => disk.request id
  writeFile path bytes :=
    modifyGet fun disk => disk.request (·.put (locate working path) bytes)
  openLog path :=
    modifyGet fun disk => (.ok ⟨locate working path, 0⟩, disk.put (locate working path) [])
  writeLog file bytes :=
    modifyGet fun disk =>
      (.ok { file with offset := file.offset + bytes.length }, disk.writeOpen file bytes)

section Running

variable
  {Answer Last : Type}
  {disk after : Disk}
  {answer : Answer}

/-- A run of two steps goes on from where the first has ended. -/
theorem run_bind
    {first : StateM Disk Answer}
    (ran : first.run disk = (answer, after))
    (next : Answer → StateM Disk Last) :
    (first >>= next).run disk = (next answer).run after := by
  rw [StateT.run_bind, ran]
  rfl

end Running

section Operations

variable
  {working : Place}
  {disk : Disk}

theorem run_now
    (working : Place)
    (disk : Disk) :
    (diskHost working).now.run disk = (disk.clock 0, disk.tick) :=
  rfl

theorem run_makeDirectories_of_granted
    (granted : disk.refusal 0 = none)
    (path : String) :
    ((diskHost working).makeDirectories path).run disk =
      (.ok (), disk.asked) := by
  have ran :
      ((diskHost working).makeDirectories path).run disk = disk.request id :=
    rfl
  rw [ran, Disk.request, granted]
  rfl

theorem run_makeDirectories_of_refused
    {fault : Fault}
    (refused : disk.refusal 0 = some fault)
    (path : String) :
    ((diskHost working).makeDirectories path).run disk =
      (.error fault, disk.asked) := by
  have ran :
      ((diskHost working).makeDirectories path).run disk = disk.request id :=
    rfl
  rw [ran, Disk.request, refused]

theorem run_writeFile_of_granted
    (granted : disk.refusal 0 = none)
    (path : String)
    (bytes : Bytes) :
    ((diskHost working).writeFile path bytes).run disk =
      (.ok (), disk.asked.put (locate working path) bytes) := by
  have ran :
      ((diskHost working).writeFile path bytes).run disk =
        disk.request (·.put (locate working path) bytes) :=
    rfl
  rw [ran, Disk.request, granted]

theorem run_writeFile_of_refused
    {fault : Fault}
    (refused : disk.refusal 0 = some fault)
    (path : String)
    (bytes : Bytes) :
    ((diskHost working).writeFile path bytes).run disk =
      (.error fault, disk.asked) := by
  have ran :
      ((diskHost working).writeFile path bytes).run disk =
        disk.request (·.put (locate working path) bytes) :=
    rfl
  rw [ran, Disk.request, refused]

end Operations

/-- Disks that hold the same files but for some places, and grant the same requests. -/
structure Disk.SameBut
    (places : Set Place)
    (disk after : Disk) : Prop where
  files : Set.EqOn after.files disk.files placesᶜ
  refusal : after.refusal = disk.refusal

namespace Disk.SameBut

variable
  {places : Set Place}
  {disk between after : Disk}

theorem refl
    (places : Set Place)
    (disk : Disk) :
    SameBut places disk disk where
  files := Set.eqOn_refl disk.files placesᶜ
  refusal := rfl

theorem trans
    (first : SameBut places disk between)
    (second : SameBut places between after) :
    SameBut places disk after where
  files := second.files.trans first.files
  refusal := second.refusal.trans first.refusal

theorem mono
    {more : Set Place}
    (same : SameBut places disk after)
    (within : places ⊆ more) :
    SameBut more disk after where
  files := same.files.mono (Set.compl_subset_compl.mpr within)
  refusal := same.refusal

theorem put
    (disk : Disk)
    (place : Place)
    (contents : Bytes) :
    SameBut {place} disk (disk.put place contents) where
  files _ notPlace := Function.update_of_ne notPlace _ _
  refusal := rfl

end Disk.SameBut

section Logs

/-- A file that is open at the end of what it holds. -/
structure IsAtEnd
    (file : OpenFile)
    (files : Files)
    (written : Bytes) : Prop where
  holds : files file.place = some written
  offset : file.offset = written.length

theorem Disk.sameBut_writeOpen
    (disk : Disk)
    (file : OpenFile)
    (bytes : Bytes) :
    disk.SameBut {file.place} (disk.writeOpen file bytes) := by
  rw [writeOpen]
  split
  · exact .put disk file.place _
  · exact .refl _ disk

/-- Writing to a log succeeds, and goes behind what its file holds if it is at the end there. -/
theorem exists_writeLog
    (working : Place)
    (disk : Disk)
    (file : OpenFile)
    (bytes : Bytes) :
    ∃ advanced after,
      ((diskHost working).writeLog file bytes).run disk = (.ok advanced, after) ∧
        advanced.place = file.place ∧
        disk.SameBut {file.place} after ∧
          ∀ written,
            IsAtEnd file disk.files written →
              IsAtEnd advanced after.files (written ++ bytes) := by
  refine
    ⟨{ file with offset := file.offset + bytes.length }, disk.writeOpen file bytes, rfl, rfl,
      disk.sameBut_writeOpen file bytes, fun written atEnd => ?_⟩
  have extended :
      (written.zeroPadded file.offset).overlay bytes file.offset = written ++ bytes := by
    simp [Bytes.zeroPadded, Bytes.overlay, atEnd.offset]
  have put : disk.writeOpen file bytes = disk.put file.place (written ++ bytes) := by
    rw [Disk.writeOpen, atEnd.holds]
    dsimp only
    rw [extended]
  rw [put]
  exact
    { holds := Function.update_self file.place _ _
      offset := by rw [List.length_append, ← atEnd.offset] }

/-- A file that is left alone stays open at its end. -/
theorem IsAtEnd.congr
    {file : OpenFile}
    {files others : Files}
    {written : Bytes}
    (atEnd : IsAtEnd file files written)
    (same : others file.place = files file.place) :
    IsAtEnd file others written where
  holds := same.trans atEnd.holds
  offset := atEnd.offset

end Logs

end LibcConformance.Emission
