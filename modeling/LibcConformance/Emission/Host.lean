import LibcConformance.Clock.Timestamp
import LibcConformance.FileSystem.Tree

namespace LibcConformance.Emission

/-!
# Hosts

What an emission needs from the world around it: the time, directories, files,
and logs that are opened first and written piece by piece.  The host of a file tree
gives them on a tree that it carries along, at an instant that stands still.
-/

/-- The operations of the world, which fail without effect on what was there. -/
structure Host (Handle : Type) (m : Type → Type) where
  /-- The time. -/
  now : m Instant
  /-- Makes a directory and those above it that are missing. -/
  makeDirectories : String → m (Except FileSystem.Fault Unit)
  /-- Writes a file, over all that it held. -/
  writeFile : String → Bytes → m (Except FileSystem.Fault Unit)
  /-- Opens an empty log. -/
  openLog : String → m (Except FileSystem.Fault Handle)
  /-- Writes bytes to a log where its last write ended, and answers it for the next one. -/
  writeLog : Handle → Bytes → m (Except FileSystem.Fault Handle)

/-- A step on a tree that answers the tree it leaves. -/
def onTree {Answer : Type} (step : FileSystem.Tree → FileSystem.Tree × Answer) :
    StateM FileSystem.Tree Answer := do
  let (tree, answer) := step (← get)
  set tree
  pure answer

/-- The host of a file tree at an instant. -/
def treeHost (instant : Instant) : Host FileSystem.Tree.OpenFile (StateM FileSystem.Tree) where
  now := pure instant
  makeDirectories path := onTree (·.makeDirectories (.ofText path))
  writeFile path bytes := onTree (·.writeFile (.ofText path) bytes)
  openLog path := onTree (·.createFile (.ofText path))
  writeLog file bytes := onTree (·.writeOpen file bytes)

end LibcConformance.Emission
