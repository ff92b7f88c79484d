import LibcConformance.FileSystem.Path

namespace LibcConformance.FileSystem

/-!
# File trees

A tree holds directories, files and two devices, by their places below the
root.  Walking along a path needs a directory at every step; making a directory
and writing a file need one only up to the last name.  An operation that fails
leaves the tree as it was, except that directories made on the way to a failure
stay.  A file that is open goes on where its last write ended, whatever has
become of the contents in between.
-/

/-- The names from the root down to something. -/
abbrev Place := List String

/-- What stands at a place. -/
inductive Node where
  | directory
  | file (contents : Bytes)
  /-- A device that takes everything and keeps nothing. -/
  | nullDevice
  /-- A device that has no room for anything. -/
  | fullDevice
  deriving Repr, DecidableEq

/-- A file tree and the directory that relative paths start from. -/
structure Tree where
  working : Place
  nodes : List (Place × Node)
  deriving Repr, DecidableEq

namespace Tree

/-- A tree with an empty working directory and the devices. -/
def empty : Tree where
  working := ["work"]
  nodes :=
    [(["work"], .directory), (["dev"], .directory), (["dev", "null"], .nullDevice),
      (["dev", "full"], .fullDevice)]

/-- What stands at a place; the root is always a directory. -/
def find? (tree : Tree) (place : Place) : Option Node :=
  if place = [] then
    some .directory
  else
    (tree.nodes.find? (·.1 = place)).map (·.2)

/-- Puts something at a place, instead of what stands there. -/
def insert (tree : Tree) (place : Place) (node : Node) : Tree :=
  { tree with nodes := (place, node) :: tree.nodes.filter (·.1 ≠ place) }

/-- Walks from a directory along names, each of which must lead to a directory. -/
def walk (tree : Tree) (place : Place) : List String → Except Fault Place
  | [] => .ok place
  | name :: rest =>
      if name = "." then
        walk tree place rest
      else if name = ".." then
        walk tree place.dropLast rest
      else if Path.isNameTooLong name then
        .error .nameTooLong
      else
        match tree.find? (place ++ [name]) with
        | some .directory => walk tree (place ++ [name]) rest
        | some _ => .error .notDirectory
        | none => .error .notFound

/-- The directory that a path starts from. -/
def origin (tree : Tree) (path : Path) : Place :=
  if path.isAbsolute then [] else tree.working

/-- The place of the directory that a path leads to. -/
def directoryPlace (tree : Tree) (path : Path) : Except Fault Place := do
  path.check
  if path.isEmpty then .error .notFound else tree.walk (tree.origin path) path.names

/-- Whether a path leads to a directory. -/
def isDirectory (tree : Tree) (path : Path) : Bool :=
  (tree.directoryPlace path).isOk

/-- Whether a name is one of the two that every directory has. -/
def isDots (name : String) : Bool :=
  name = "." || name = ".."

/-- Makes the directory that a path names, below one that exists. -/
def makeDirectory (tree : Tree) (path : Path) : Except Fault Tree := do
  path.check
  match path.names.getLast? with
  | none => .error (if path.isAbsolute then .alreadyExists else .notFound)
  | some name =>
      let place ← tree.walk (tree.origin path) path.names.dropLast
      if isDots name then
        .error .alreadyExists
      else if Path.isNameTooLong name then
        .error .nameTooLong
      else if (tree.find? (place ++ [name])).isSome then
        .error .alreadyExists
      else
        .ok (tree.insert (place ++ [name]) .directory)

/-- The outcome of making a directory that may be there already. -/
def settle (tree : Tree) (path : Path) (fault : Fault) : Except Fault Unit :=
  if tree.isDirectory path then .ok () else .error fault

/-- Makes a directory, unless it is there already. -/
def makeOrKeep (tree : Tree) (path : Path) : Tree × Except Fault Unit :=
  match tree.makeDirectory path with
  | .ok made => (made, .ok ())
  | .error fault => (tree, tree.settle path fault)

/--
Makes a directory and, if it has nowhere to stand, first the ones above it,
which are given from the nearest on.
-/
def makeBelow (tree : Tree) (path : Path) : List Path → Tree × Except Fault Unit
  | [] => tree.makeOrKeep path
  | above :: higher =>
      match tree.makeDirectory path with
      | .error .notFound =>
          match makeBelow tree above higher with
          | (grown, .ok ()) => grown.makeOrKeep path
          | (grown, .error fault) => (grown, .error fault)
      | _ => tree.makeOrKeep path

/-- Makes a directory and all that are missing above it; the empty path needs none. -/
def makeDirectories (tree : Tree) (path : Path) : Tree × Except Fault Unit :=
  if path.isEmpty then (tree, .ok ()) else tree.makeBelow path path.ancestors

/-- The place of the file that a path names, if it can be opened for writing. -/
def filePlace (tree : Tree) (path : Path) : Except Fault Place := do
  path.check
  match path.names.getLast? with
  | none => .error (if path.isAbsolute then .isDirectory else .notFound)
  | some name =>
      let place ← tree.walk (tree.origin path) path.names.dropLast
      if isDots name || path.hasTrailingSlash then
        .error .isDirectory
      else if Path.isNameTooLong name then
        .error .nameTooLong
      else if tree.find? (place ++ [name]) = some .directory then
        .error .isDirectory
      else
        .ok (place ++ [name])

/-- A file that is open for writing. -/
structure OpenFile where
  place : Place
  /-- Where the next write starts. -/
  offset : Nat
  deriving Repr, DecidableEq

/-- Opens a file for writing, empty. -/
def createFile (tree : Tree) (path : Path) : Tree × Except Fault OpenFile :=
  match tree.filePlace path with
  | .error fault => (tree, .error fault)
  | .ok place =>
      match tree.find? place with
      | some .nullDevice => (tree, .ok ⟨place, 0⟩)
      | some .fullDevice => (tree, .ok ⟨place, 0⟩)
      | _ => (tree.insert place (.file []), .ok ⟨place, 0⟩)

/--
Writes bytes to an open file, over what stands there.  A file that has become
shorter in the meantime is filled up with zeros; writing nothing does nothing.
-/
def writeOpen (tree : Tree) (file : OpenFile) (bytes : Bytes) : Tree × Except Fault OpenFile :=
  if bytes.isEmpty then
    (tree, .ok file)
  else
    let advanced := { file with offset := file.offset + bytes.length }
    match tree.find? file.place with
    | some .fullDevice => (tree, .error .noSpace)
    | some (.file contents) =>
        let filled := contents.zeroPadded file.offset
        (tree.insert file.place (.file (filled.overlay bytes file.offset)), .ok advanced)
    | _ => (tree, .ok advanced)

/-- Writes a file, over all that it held. -/
def writeFile (tree : Tree) (path : Path) (bytes : Bytes) : Tree × Except Fault Unit :=
  match tree.createFile path with
  | (opened, .ok file) =>
      let (written, outcome) := opened.writeOpen file bytes
      (written, outcome.map fun _ => ())
  | (opened, .error fault) => (opened, .error fault)

/-- The files below the working directory, by their paths from there. -/
def workingFiles (tree : Tree) : List (Place × Bytes) :=
  tree.nodes.filterMap fun (place, node) =>
    match node with
    | .file contents =>
        if tree.working.isPrefixOf place then
          some (place.drop tree.working.length, contents)
        else
          none
    | _ => none

end Tree

end LibcConformance.FileSystem
