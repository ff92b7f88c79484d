import LibcConformance.Proofs.Log.LineReadBack

namespace LibcConformance.Log

/-!
# Reports of logs made of entries

A text is split into lines at its line breaks, so what ends in a line break is
split apart from what follows it.  The line of an entry holds no line break
and has no white space at its ends.  A log of such lines is therefore checked
entry by entry, and nothing is found as long as each trace id has its two
colons and the details are kept.
-/

/-- An entry whose line is accepted. -/
structure Entry.IsValid
    (entry : Entry) : Prop where
  traceId : [':', ':'] <:+: entry.traceId.toList
  details : ∀ details ∈ entry.details, details.IsKept 126

section Splitting

variable
  {line : List Char}

theorem splitLines_eq_splitOn
    (text : List Char) :
    splitLines text = text.splitOn '\n' := by
  induction text with
  | nil =>
      rfl
  | cons character rest inductionHypothesis =>
      rw [splitLines, List.splitOn_cons_eq_if_modifyHead, inductionHypothesis]
      by_cases isBreak : character = '\n'
      · simp [isBreak]
      · simp only [isBreak, beq_iff_eq, if_false]
        cases shape : rest.splitOn '\n' with
        | nil => exact absurd shape (List.splitOn_ne_nil _ _)
        | cons first later => rfl

/-- What stands in front of a line break is split apart from what stands behind it. -/
theorem splitLines_append_lineBreak
    (front back : List Char) :
    splitLines (front ++ '\n' :: back) = splitLines front ++ splitLines back := by
  simp only [splitLines_eq_splitOn]
  exact List.splitOn_append_cons_self front back

theorem splitLines_of_notMem
    (noBreak : '\n' ∉ line) :
    splitLines line = [line] := by
  rw [splitLines_eq_splitOn]
  exact List.splitOn_eq_singleton noBreak

/-- A text has one line more than it has line breaks. -/
theorem length_splitLines
    (text : List Char) :
    (splitLines text).length = text.count '\n' + 1 := by
  rw [splitLines_eq_splitOn]
  induction text with
  | nil =>
      rfl
  | cons character rest inductionHypothesis =>
      rw [List.splitOn_cons_eq_if_modifyHead, List.count_cons]
      split
      · rw [List.length_cons, inductionHypothesis]
      · rw [List.length_modifyHead, inductionHypothesis, Nat.add_zero]

/-- Lines that each end in a line break are split into themselves and what follows the last. -/
theorem splitLines_flatMap
    {lines : List (List Char)}
    (noBreak : ∀ line ∈ lines, '\n' ∉ line) :
    splitLines (lines.flatMap (· ++ ['\n'])) = lines ++ [[]] := by
  induction lines with
  | nil =>
      rfl
  | cons line later inductionHypothesis =>
      rw [List.forall_mem_cons] at noBreak
      rw [List.flatMap_cons, List.append_assoc, List.singleton_append,
        splitLines_append_lineBreak, splitLines_of_notMem noBreak.1,
        inductionHypothesis noBreak.2, List.singleton_append, List.cons_append]

end Splitting

namespace Entry

section Lines

theorem toList_line
    (entry : Entry) :
    entry.line.toList =
      '\x7b' :: (Json.compactMembers entry.fields ++ ['\x7d']) := by
  rw [line, Json.Value.compact, String.toList_ofList, toValue,
    Json.Value.compactCharacters, List.cons_append]

theorem lineBreak_notMem_line
    (entry : Entry) :
    '\n' ∉ entry.line.toList := by
  intro isBreak
  have printed := entry.noControl_line '\n' isBreak
  exact absurd printed (by decide)

theorem trim_line
    (entry : Entry) :
    WhiteSpace.trim entry.line.toList = entry.line.toList := by
  rw [toList_line, WhiteSpace.trim,
    List.dropWhile_cons_of_neg (by decide), List.reverse_cons,
    List.reverse_append, List.reverse_singleton, List.singleton_append,
    List.cons_append, List.dropWhile_cons_of_neg (by decide)]
  simp

end Lines

section Acceptance

variable
  {entry : Entry}

/-- The line of a valid entry is accepted, wherever it stands. -/
theorem IsValid.line_accepted
    (valid : entry.IsValid)
    (number : Nat) :
    ∃ read, validateLine entry.line number = .ok read := by
  obtain ⟨details, -, given⟩ := entry.isFoundIn_sortMembers.exists_isGivenBy
  have accepted : checkLine entry.line = .ok { entry with details } :=
    checkLine_eq_ok_iff.mpr
      ⟨_, ofText?_line valid.details, given, valid.traceId⟩
  refine ⟨{ entry with details }, ?_⟩
  rw [validateLine_eq_mapError, accepted]
  rfl

end Acceptance

end Entry

section Reports

variable
  {entries : List Entry}

/-- Valid entries are counted, and nothing is found in their lines. -/
theorem validateFrom_lines
    (valid : ∀ entry ∈ entries, entry.IsValid)
    (number : Nat) :
    validateFrom number (entries.map (·.line.toList) ++ [[]]) =
      ⟨entries.length, []⟩ := by
  induction entries generalizing number with
  | nil =>
      rfl
  | cons entry later inductionHypothesis =>
      rw [List.forall_mem_cons] at valid
      obtain ⟨read, accepted⟩ := valid.1.line_accepted number
      have notBlank : entry.line.toList.isEmpty = false := by
        rw [entry.toList_line]
        rfl
      rw [List.map_cons, List.cons_append, validateFrom, entry.trim_line,
        inductionHypothesis valid.2 (number + 1)]
      simp [notBlank, accepted]

end Reports

end LibcConformance.Log
