import LibcConformance.FileSystem.Tree

namespace LibcConformance.FileSystem

/-!
# Where paths lead

A path leads to one place, whatever stands in the tree: names go down, a dot
stays and two dots go up again.  A tree that can be walked comes to just that
place, and a name that is joined to a directory stands right below it.
-/

/-- The place that a name leads to from a directory. -/
def stepTo
    (place : Place)
    (name : String) : Place :=
  if name = "." then place else if name = ".." then place.dropLast else place ++ [name]

/-- The place that names lead to from a directory. -/
def follow
    (place : Place)
    (names : List String) : Place :=
  names.foldl stepTo place

/-- The place that a path leads to, given the directory that relative paths start from. -/
def locate
    (working : Place)
    (text : String) : Place :=
  let path := Path.ofText text
  follow (if path.isAbsolute then [] else working) path.names

/-- A name without dots leads to what stands right below. -/
theorem follow_concat
    {name : String}
    (notDot : name ≠ ".")
    (notUp : name ≠ "..")
    (place : Place)
    (names : List String) :
    follow place (names ++ [name]) = follow place names ++ [name] := by
  rw [follow, follow, List.foldl_append, List.foldl_cons, List.foldl_nil, stepTo,
    if_neg notDot, if_neg notUp]

/-- A walk that succeeds comes to the place that the names lead to. -/
theorem Tree.eq_follow_of_walk
    {tree : Tree}
    {place target : Place}
    {names : List String}
    (walked : tree.walk place names = .ok target) :
    target = follow place names := by
  induction names generalizing place with
  | nil =>
      cases walked
      rfl
  | cons name rest inductionHypothesis =>
      rw [follow, List.foldl_cons, ← follow, stepTo]
      rw [walk] at walked
      split at walked
      · rename_i isDot
        rw [if_pos isDot]
        exact inductionHypothesis walked
      · rename_i notDot
        rw [if_neg notDot]
        split at walked
        · rename_i isUp
          rw [if_pos isUp]
          exact inductionHypothesis walked
        · rename_i notUp
          rw [if_neg notUp]
          split at walked
          · cases walked
          · split at walked
            · exact inductionHypothesis walked
            · cases walked
            · cases walked

/-- A file that can be opened is the one at the place that its path leads to. -/
theorem Tree.eq_locate_of_filePlace
    {tree : Tree}
    {text : String}
    {place : Place}
    (opened : tree.filePlace (.ofText text) = .ok place) :
    place = locate tree.working text := by
  rw [filePlace] at opened
  cases checked : (Path.ofText text).check with
  | error fault =>
      rw [checked] at opened
      cases opened
  | ok _ =>
      rw [checked] at opened
      cases last : (Path.ofText text).names.getLast? with
      | none =>
          rw [last] at opened
          cases opened
      | some name =>
          obtain ⟨front, names⟩ := List.getLast?_eq_some_iff.mp last
          rw [last, names, List.dropLast_concat] at opened
          cases walked : tree.walk (tree.origin (.ofText text)) front with
          | error fault =>
              rw [walked] at opened
              cases opened
          | ok above =>
              rw [walked] at opened
              simp only [bind, Except.bind] at opened
              split at opened
              · cases opened
              · rename_i isFile
                obtain ⟨⟨notDot, notUp⟩, -⟩ :
                    (name ≠ "." ∧ name ≠ "..") ∧ _ := by
                  simpa [isDots] using isFile
                have isPlace : above ++ [name] = place := by
                  split at opened
                  · cases opened
                  · split at opened
                    · cases opened
                    · exact Except.ok.inj opened
                rw [← isPlace, eq_follow_of_walk walked, locate, names,
                  follow_concat notDot notUp]
                rfl

theorem Tree.find?_insert
    {place : Place}
    (notRoot : place ≠ [])
    (tree : Tree)
    (node : Node)
    (other : Place) :
    (tree.insert place node).find? other =
      if other = place then some node else tree.find? other := by
  rw [find?, find?, insert]
  by_cases same : other = place
  · subst same
    rw [if_neg notRoot, if_pos rfl, List.find?_cons_of_pos (by simp)]
    rfl
  · have sameEntry :
        (fun entry : Place × Node => decide (entry.1 ≠ place ∧ entry.1 = other)) =
          fun entry => decide (entry.1 = other) := by
      funext entry
      by_cases found : entry.1 = other
      · simp [found, same]
      · simp [found]
    rw [if_neg same, List.find?_cons_of_neg (by simpa using Ne.symm same),
      List.find?_filter, ← sameEntry]
    simp only [Bool.decide_and, Bool.decide_eq_true, ne_eq]

/-- Bytes that are written to an open file go over what it holds, and nothing else changes. -/
theorem Tree.find?_writeOpen
    {tree : Tree}
    {file : OpenFile}
    {contents : Bytes}
    (holds : tree.find? file.place = some (.file contents))
    (within : file.offset ≤ contents.length)
    (bytes : Bytes)
    (other : Place) :
    (tree.writeOpen file bytes).1.find? other =
      if other = file.place then
        some (.file (contents.overlay bytes file.offset))
      else
        tree.find? other := by
  cases bytes with
  | nil =>
      have same : contents.overlay [] file.offset = contents := by
        simp [Bytes.overlay]
      rw [writeOpen, same, List.isEmpty_nil, if_pos rfl]
      split
      · rename_i isPlace
        rw [isPlace, holds]
      · rfl
  | cons first rest =>
      have notRoot : file.place ≠ [] := by
        intro isRoot
        simp [find?, isRoot] at holds
      have notPadded : contents.zeroPadded file.offset = contents := by
        simp [Bytes.zeroPadded, Nat.sub_eq_zero_of_le within]
      rw [writeOpen, List.isEmpty_cons, if_neg (by simp), holds]
      dsimp only
      rw [notPadded]
      exact find?_insert notRoot tree _ other

/-- A write that succeeds on a file replaces what its path leads to, and nothing else. -/
theorem Tree.find?_writeFile
    {tree after : Tree}
    {text : String}
    {bytes : Bytes}
    (wrote : tree.writeFile (.ofText text) bytes = (after, .ok ()))
    (noDevice :
      ∀ node ∈ tree.find? (locate tree.working text), ∃ contents, node = .file contents)
    (other : Place) :
    after.find? other =
      if other = locate tree.working text then some (.file bytes) else tree.find? other := by
  cases opened : tree.filePlace (.ofText text) with
  | error fault =>
      rw [writeFile, createFile, opened] at wrote
      cases wrote
  | ok place =>
      obtain rfl := eq_locate_of_filePlace opened
      have notRoot : locate tree.working text ≠ [] := by
        intro isRoot
        rw [isRoot, find?, if_pos rfl] at noDevice
        obtain ⟨_, notFile⟩ := noDevice _ rfl
        cases notFile
      have created :
          tree.createFile (.ofText text) =
            (tree.insert (locate tree.working text) (.file []),
              .ok ⟨locate tree.working text, 0⟩) := by
        rw [createFile, opened]
        dsimp only
        split
        · rename_i isDevice
          obtain ⟨_, notFile⟩ := noDevice _ isDevice
          cases notFile
        · rename_i isDevice
          obtain ⟨_, notFile⟩ := noDevice _ isDevice
          cases notFile
        · rfl
      let file : OpenFile :=
        ⟨locate tree.working text, 0⟩
      have holds :
          (tree.insert file.place (.file [])).find? file.place = some (.file []) := by
        rw [find?_insert notRoot, if_pos rfl]
      have overEmpty : Bytes.overlay [] bytes 0 = bytes := by
        simp [Bytes.overlay]
      have written := find?_writeOpen holds (Nat.zero_le _) bytes other
      rw [writeFile, created] at wrote
      have isAfter := congrArg Prod.fst wrote
      dsimp only at isAfter
      rw [← isAfter, written, overEmpty, find?_insert notRoot]
      split <;> rfl

namespace Path

/-- A slash divides the pieces in front of it from those behind it. -/
theorem splitSlashes_append_slash
    (front back : List Char) :
    splitSlashes (front ++ '/' :: back) = splitSlashes front ++ splitSlashes back := by
  induction front with
  | nil =>
      simp [splitSlashes]
  | cons character rest inductionHypothesis =>
      rw [List.cons_append, splitSlashes, splitSlashes, inductionHypothesis]
      by_cases isSlash : character = '/'
      · rw [if_pos isSlash, if_pos isSlash, List.cons_append]
      · rw [if_neg isSlash, if_neg isSlash]
        obtain ⟨first, later, pieces⟩ := List.exists_cons_of_ne_nil (splitSlashes_ne_nil rest)
        rw [pieces]
        rfl

theorem splitSlashes_of_notMem
    {piece : List Char}
    (noSlash : '/' ∉ piece) :
    splitSlashes piece = [piece] := by
  induction piece with
  | nil =>
      rfl
  | cons character rest inductionHypothesis =>
      rw [List.mem_cons, not_or] at noSlash
      rw [splitSlashes, if_neg (Ne.symm noSlash.1), inductionHypothesis noSlash.2]

theorem ofText_of_splitSlashes
    {text : String}
    {first : List Char}
    {later : List (List Char)}
    (pieces : splitSlashes text.toList = first :: later) :
    ofText text = ⟨String.ofList first, later.map String.ofList⟩ := by
  rw [ofText, pieces, List.map_cons]

/-- A name that a path can end in: no dots, and a piece of its own. -/
structure IsPlain
    (name : String) : Prop where
  noSlash : '/' ∉ name.toList
  notEmpty : name ≠ ""
  notDot : name ≠ "."
  notUp : name ≠ ".."

variable
  {directory name : String}

/-- What the pieces of a joined path are: the name comes behind those of its directory. -/
theorem exists_pieces_join
    (plain : IsPlain name)
    (notEmpty : directory ≠ "") :
    ∃ first later,
      splitSlashes (join directory name).toList = first :: (later ++ [name.toList]) ∧
        (splitSlashes directory.toList = first :: later ∧ (first = [] → later ≠ []) ∨
          splitSlashes directory.toList = first :: (later ++ [[]])) := by
  have isEmpty : directory.isEmpty = false := by
    simpa using notEmpty
  by_cases slash : directory.toList.getLast? = some '/'
  · obtain ⟨front, shape⟩ := List.getLast?_eq_some_iff.mp slash
    obtain ⟨first, later, pieces⟩ := List.exists_cons_of_ne_nil (splitSlashes_ne_nil front)
    have joined : (join directory name).toList = front ++ '/' :: name.toList := by
      simp [join, isEmpty, shape]
    refine ⟨first, later, ?_, .inr ?_⟩
    · rw [joined, splitSlashes_append_slash, splitSlashes_of_notMem plain.noSlash, pieces,
        List.cons_append]
    · rw [shape, splitSlashes_append_slash, pieces, List.cons_append]
      rfl
  · obtain ⟨first, later, pieces⟩ :=
      List.exists_cons_of_ne_nil (splitSlashes_ne_nil directory.toList)
    have joined : (join directory name).toList = directory.toList ++ '/' :: name.toList := by
      simp [join, isEmpty, slash]
    refine ⟨first, later, ?_, .inl ⟨pieces, ?_⟩⟩
    · rw [joined, splitSlashes_append_slash, splitSlashes_of_notMem plain.noSlash, pieces,
        List.cons_append]
    · rintro rfl rfl
      have text := intercalate_splitSlashes directory.toList
      rw [pieces, List.intercalate_singleton] at text
      exact notEmpty (String.toList_eq_nil_iff.mp text.symm)

/-- A plain name that is joined to a directory stands right below it. -/
theorem locate_join
    (plain : IsPlain name)
    (working : Place)
    (directory : String) :
    locate working (join directory name) = locate working directory ++ [name] := by
  have nameEmpty : name.isEmpty = false := by
    simpa using plain.notEmpty
  by_cases isEmpty : directory = ""
  · subst isEmpty
    have joined : join "" name = name :=
      rfl
    have unnamed : (ofText "").names = [] := by
      decide
    have relative : (ofText "").isAbsolute = false := by
      decide
    have lone := follow_concat plain.notDot plain.notUp working []
    rw [locate, locate, joined,
      ofText_of_splitSlashes (splitSlashes_of_notMem plain.noSlash), String.ofList_toList,
      relative, unnamed]
    simpa [isAbsolute, names, nameEmpty] using lone
  · obtain ⟨first, later, pieces, whole⟩ := exists_pieces_join plain isEmpty
    have namesJoined :
        names ⟨String.ofList first, (later ++ [name.toList]).map String.ofList⟩ =
          names ⟨String.ofList first, later.map String.ofList⟩ ++ [name] := by
      simp [names, List.filter_cons, nameEmpty]
      split <;> simp
    have absoluteJoined :
        isAbsolute ⟨String.ofList first, (later ++ [name.toList]).map String.ofList⟩ =
          (String.ofList first).isEmpty := by
      simp [isAbsolute]
    rw [locate, locate, ofText_of_splitSlashes pieces, namesJoined, absoluteJoined,
      follow_concat plain.notDot plain.notUp]
    rcases whole with ⟨whole, goesOn⟩ | whole
    · have absolute :
          isAbsolute ⟨String.ofList first, later.map String.ofList⟩ =
            (String.ofList first).isEmpty := by
        simpa [isAbsolute] using goesOn
      rw [ofText_of_splitSlashes whole, absolute]
    · have absolute :
          isAbsolute ⟨String.ofList first, (later ++ [[]]).map String.ofList⟩ =
            (String.ofList first).isEmpty := by
        simp [isAbsolute]
      have sameNames :
          names ⟨String.ofList first, (later ++ [[]]).map String.ofList⟩ =
            names ⟨String.ofList first, later.map String.ofList⟩ := by
        simp [names, List.filter_cons]
      rw [ofText_of_splitSlashes whole, absolute, sameNames]

end Path

end LibcConformance.FileSystem
