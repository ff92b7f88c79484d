import LibcConformance.Bytes
import LibcConformance.FileSystem.Fault

namespace LibcConformance.FileSystem

/-!
# Paths

A path is a text whose names stand between slashes.  Doubled slashes and a
slash at the end add no names, and a dot names the directory it stands in.
Every piece is kept, so that a path knows the text it was given as.  No path
holds a NUL or is too long.
-/

/-- A path by the pieces of its text between slashes, of which there is at least one. -/
structure Path where
  /-- The piece in front of the first slash. -/
  first : String
  /-- The pieces behind each slash. -/
  later : List String
  deriving Repr, DecidableEq

namespace Path

/-- The pieces of a text between its slashes. -/
def splitSlashes : List Char → List (List Char)
  | [] => [[]]
  | character :: rest =>
      if character = '/' then
        [] :: splitSlashes rest
      else
        match splitSlashes rest with
        | first :: later => (character :: first) :: later
        | [] => [[character]]

/-- The path that names nothing and adds nothing. -/
def empty : Path :=
  ⟨"", []⟩

/-- The path of the root. -/
def root : Path :=
  ⟨"", [""]⟩

/-- The path that a text names. -/
def ofText (text : String) : Path :=
  match (splitSlashes text.toList).map String.ofList with
  | [] => empty
  | first :: later => ⟨first, later⟩

/-- The text of a path. -/
def text (path : Path) : String :=
  "/".intercalate (path.first :: path.later)

/-- Whether a path starts from the root. -/
def isAbsolute (path : Path) : Bool :=
  path.first.isEmpty && !path.later.isEmpty

/-- The names of a path, dots among them. -/
def names (path : Path) : List String :=
  (path.first :: path.later).filter (!·.isEmpty)

/-- Whether a slash follows the last name. -/
def hasTrailingSlash (path : Path) : Bool :=
  path.later.getLast? = some ""

/-- Whether a path names nothing, not even the root. -/
def isEmpty (path : Path) : Bool :=
  !path.isAbsolute && path.names.isEmpty

/-- The largest number of bytes in a name. -/
def maxNameBytes : Nat :=
  255

/-- The largest number of bytes in the text of a path. -/
def maxTextBytes : Nat :=
  4095

/-- Whether a name has more bytes than any name may. -/
def isNameTooLong (name : String) : Bool :=
  (Bytes.ofText name).length > maxNameBytes

/-- Refuses a path that cannot be used, whatever stands there. -/
def check (path : Path) : Except Fault Unit :=
  if '\x00' ∈ path.text.toList then
    .error .nulInPath
  else if (Bytes.ofText path.text).length > maxTextBytes then
    .error .nameTooLong
  else
    .ok ()

/-- Whether a piece behind a slash leads nowhere. -/
def isSilent (piece : String) : Bool :=
  piece.isEmpty || piece = "."

/--
The paths that end at a name, from the longest on, which start with one piece
and go on with others that are given from the last to the first.
-/
def named (first : String) : List String → List Path
  | [] => if first.isEmpty then [] else [⟨first, []⟩]
  | piece :: rest =>
      if isSilent piece then
        named first rest
      else
        ⟨first, (piece :: rest).reverse⟩ :: named first rest

/-- The paths of the named directories that a path leads through, from the nearest on. -/
def ancestors (path : Path) : List Path :=
  (named path.first path.later.reverse).tail

/-- The path of the directory that a path stands in; there is none without a name. -/
def parent? (path : Path) : Option Path :=
  match named path.first path.later.reverse with
  | [] => none
  | [_] => some (if path.isAbsolute then root else empty)
  | _ :: above :: _ => some above

/-- The text of a name below a directory; an empty directory adds nothing in front. -/
def join (directory name : String) : String :=
  if directory.isEmpty then
    name
  else if directory.toList.getLast? = some '/' then
    directory ++ name
  else
    directory ++ "/" ++ name

/-- Every text has a piece in front of its first slash. -/
theorem splitSlashes_ne_nil (text : List Char) : splitSlashes text ≠ [] := by
  cases text with
  | nil => exact List.cons_ne_nil _ _
  | cons character rest =>
      unfold splitSlashes
      repeat' split
      all_goals exact List.cons_ne_nil _ _

/-- The pieces of a text with slashes between them are the text. -/
theorem intercalate_splitSlashes (text : List Char) :
    ['/'].intercalate (splitSlashes text) = text := by
  induction text with
  | nil => rfl
  | cons character rest inductionHypothesis =>
      obtain ⟨first, later, pieces⟩ := List.exists_cons_of_ne_nil (splitSlashes_ne_nil rest)
      rw [pieces] at inductionHypothesis
      unfold splitSlashes
      rw [pieces, ← inductionHypothesis]
      split
      · rename_i slash
        rw [slash, List.intercalate_cons_cons]
        rfl
      · cases later with
        | nil => simp only [List.intercalate_singleton]
        | cons next others => simp only [List.intercalate_cons_cons, List.cons_append]

/-- A path keeps the text that it was given as. -/
theorem text_ofText (text : String) : (ofText text).text = text := by
  obtain ⟨first, later, pieces⟩ := List.exists_cons_of_ne_nil (splitSlashes_ne_nil text.toList)
  have whole := intercalate_splitSlashes text.toList
  rw [pieces] at whole
  have unchanged (piece : List Char) : (String.ofList piece).toList = piece :=
    String.toList_ofList
  apply String.toList_inj.mp
  simp only [ofText, Path.text, pieces, List.map_cons, String.toList_intercalate, List.map_map,
    Function.comp_def, unchanged, List.map_id']
  exact whole

end Path

end LibcConformance.FileSystem
