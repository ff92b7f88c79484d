import LibcConformance.Proofs.Log.LogReport
import LibcConformance.Proofs.Text.Trimming

namespace LibcConformance.Log

/-!
# Reports of appended logs

A report says how many lines of a log are not blank, and what is wrong with
each of them under the number that the line has among all lines.  A log that is
appended behind a line break adds its own report, with its lines numbered on
from those in front.
-/

/-- A line of nothing but white space. -/
def IsBlank
    (line : List Char) : Prop :=
  ∀ character ∈ line, WhiteSpace.contains character = true

instance :
    DecidablePred IsBlank :=
  fun line =>
    inferInstanceAs
      (Decidable (∀ character ∈ line, WhiteSpace.contains character = true))

/-- The lines of a text, blank ones included. -/
def physicalLines
    (text : String) : List (List Char) :=
  text.toList.splitOn '\n'

/-- Checks a line without the white space at its ends. -/
def validateTrimmed
    (line : List Char)
    (number : Nat) : Except (List Finding) Entry :=
  validateLine (String.ofList (WhiteSpace.trim line)) number

/-- A finding with its line a number of lines further down. -/
def Finding.moved
    (count : Nat)
    (finding : Finding) : Finding :=
  { finding with line := finding.line + count }

namespace Report

/-- The report of a log with another one appended, behind a number of lines. -/
def followedBy
    (report : Report)
    (count : Nat)
    (later : Report) : Report where
  lines := report.lines + later.lines
  findings := report.findings ++ later.findings.map (·.moved count)

/-- A report that says all that there is to say about some lines, and nothing else. -/
structure IsOn
    (report : Report)
    (lines : List (List Char)) : Prop where
  counted : report.lines = lines.countP (¬IsBlank ·)
  reported :
    ∀ finding ∈ report.findings,
      ∃ index line findings,
        finding.line = index + 1 ∧
          lines[index]? = some line ∧
            ¬IsBlank line ∧
              validateTrimmed line (index + 1) = .error findings ∧
                finding ∈ findings
  complete :
    ∀ index line findings,
      lines[index]? = some line →
        ¬IsBlank line →
          validateTrimmed line (index + 1) = .error findings →
            findings ≠ [] ∧
              ∀ finding ∈ findings,
                finding.line = index + 1 ∧ finding ∈ report.findings

end Report

section Lines

variable
  {line : List Char}

theorem isEmpty_trim_iff :
    (WhiteSpace.trim line).isEmpty = true ↔ IsBlank line := by
  rw [List.isEmpty_iff]
  constructor
  · intro noContent
    obtain ⟨front, back, shape, blank, -⟩ := WhiteSpace.isTrimmed_trim line
    rw [noContent, List.append_nil] at shape
    rw [shape]
    exact blank
  · intro blank
    rw [WhiteSpace.trim, WhiteSpace.dropWhile_of_forall blank]
    rfl

/-- What is found in a line; nothing is found in a blank one. -/
def lineFindings
    (line : List Char)
    (number : Nat) : List Finding :=
  if IsBlank line then
    []
  else
    match validateTrimmed line number with
    | .ok _ => []
    | .error findings => findings

theorem mem_lineFindings_iff
    {number : Nat}
    {finding : Finding} :
    finding ∈ lineFindings line number ↔
      ¬IsBlank line ∧
        ∃ findings,
          validateTrimmed line number = .error findings ∧ finding ∈ findings := by
  rw [lineFindings]
  split
  · rename_i blank
    simp [blank]
  · rename_i notBlank
    cases validateTrimmed line number <;> simp [notBlank]

/-- A line is refused for its faults, whatever number it has. -/
theorem validateTrimmed_eq_error_iff
    {number : Nat}
    {findings : List Finding} :
    validateTrimmed line number = .error findings ↔
      ∃ faults,
        checkLine (String.ofList (WhiteSpace.trim line)) = .error faults ∧
          findings = faults.map (⟨number, ·⟩) := by
  rw [validateTrimmed, validateLine_eq_mapError]
  cases checkLine (String.ofList (WhiteSpace.trim line)) <;>
    simp [Except.mapError, eq_comm]

/-- A line is not refused without a fault. -/
theorem checkLine_ne_error_nil
    (text : String) :
    checkLine text ≠ .error [] := by
  intro refused
  rw [checkLine] at refused
  split at refused
  · cases refused
  · rename_i value isRead
    cases value with
    | object members =>
        rcases checkValue_object_eq_error_iff.mp refused with
          ⟨nonempty, -⟩ | ⟨-, -, notEntry⟩
        · exact nonempty rfl
        · cases notEntry
    | _ => cases refused

/-- Further down, the same is found in a line. -/
theorem lineFindings_add
    (line : List Char)
    (number count : Nat) :
    lineFindings line (number + count) =
      (lineFindings line number).map (·.moved count) := by
  rw [lineFindings, lineFindings]
  split
  · rfl
  · rw [validateTrimmed, validateTrimmed, validateLine_eq_mapError,
      validateLine_eq_mapError]
    cases checkLine (String.ofList (WhiteSpace.trim line)) with
    | ok entry => rfl
    | error faults => simp [Except.mapError, Finding.moved]

end Lines

section Reports

/-- A report in closed form: lines that are not blank, and what is found in each. -/
theorem validateFrom_eq
    (number : Nat)
    (lines : List (List Char)) :
    validateFrom number lines =
      { lines := lines.countP (¬IsBlank ·)
        findings :=
          (lines.zipIdx number).flatMap fun (line, place) =>
            lineFindings line place } := by
  induction lines generalizing number with
  | nil =>
      rfl
  | cons line rest inductionHypothesis =>
      rw [validateFrom, inductionHypothesis (number + 1)]
      simp only [isEmpty_trim_iff, List.zipIdx_cons, List.flatMap_cons,
        List.countP_cons]
      by_cases blank : IsBlank line
      · simp [blank, lineFindings]
      · simp only [if_neg blank, lineFindings, validateTrimmed]
        cases validateLine (String.ofList (WhiteSpace.trim line)) number <;>
          simp [blank]

theorem validateFrom_append
    (number : Nat)
    (front back : List (List Char)) :
    validateFrom number (front ++ back) =
      { lines :=
          (validateFrom number front).lines +
            (validateFrom (number + front.length) back).lines
        findings :=
          (validateFrom number front).findings ++
            (validateFrom (number + front.length) back).findings } := by
  simp only [validateFrom_eq, List.countP_append, List.zipIdx_append,
    List.flatMap_append]

/-- Lines further down have the same report, but for their numbers. -/
theorem validateFrom_add
    (number count : Nat)
    (lines : List (List Char)) :
    validateFrom (number + count) lines =
      { lines := (validateFrom number lines).lines
        findings :=
          (validateFrom number lines).findings.map (·.moved count) } := by
  have numbered :
      lines.zipIdx (number + count) =
        (lines.zipIdx number).map (Prod.map id (· + count)) := by
    rw [List.map_snd_add_zipIdx_eq_zipIdx, Nat.add_comm]
  simp only [validateFrom_eq, numbered, List.flatMap_map, List.map_flatMap,
    Prod.map, id, lineFindings_add]

/-- The report on some lines is followed by that on the lines behind them. -/
theorem validateFrom_one_append
    (front back : List (List Char)) :
    validateFrom 1 (front ++ back) =
      (validateFrom 1 front).followedBy front.length (validateFrom 1 back) := by
  rw [validateFrom_append, validateFrom_add]
  rfl

theorem isOn_validateFrom
    (lines : List (List Char)) :
    (validateFrom 1 lines).IsOn lines := by
  rw [validateFrom_eq]
  refine ⟨rfl, ?_, ?_⟩
  · intro finding isFound
    obtain ⟨⟨line, place⟩, isLine, inLine⟩ := List.mem_flatMap.mp isFound
    obtain ⟨positive, isAt⟩ := List.mk_mem_zipIdx_iff_le_and_getElem?_sub.mp isLine
    obtain ⟨index, rfl⟩ := Nat.exists_eq_add_of_le' positive
    obtain ⟨notBlank, findings, refused, member⟩ := mem_lineFindings_iff.mp inLine
    obtain ⟨faults, -, rfl⟩ := validateTrimmed_eq_error_iff.mp refused
    obtain ⟨fault, -, rfl⟩ := List.mem_map.mp member
    exact ⟨index, line, _, rfl, isAt, notBlank, refused, member⟩
  · intro index line findings isAt notBlank refused
    obtain ⟨faults, isRefused, rfl⟩ := validateTrimmed_eq_error_iff.mp refused
    have faulty : faults ≠ [] := by
      rintro rfl
      exact checkLine_ne_error_nil _ isRefused
    refine ⟨by simpa using faulty, fun finding member => ⟨?_, ?_⟩⟩
    · obtain ⟨fault, -, rfl⟩ := List.mem_map.mp member
      rfl
    · have isLine : (line, index + 1) ∈ lines.zipIdx 1 :=
        List.mk_mem_zipIdx_iff_le_and_getElem?_sub.mpr
          ⟨Nat.succ_pos index, isAt⟩
      exact
        List.mem_flatMap.mpr
          ⟨_, isLine, mem_lineFindings_iff.mpr ⟨notBlank, _, refused, member⟩⟩

end Reports

/--
The report on a log with another one appended behind a line break counts the
lines of both and finds what is wrong in the first, then what is wrong in the
second, with its lines moved behind those of the first.  Whatever a log looks
like, its report counts the lines that are not blank, finds all that is wrong
in each of them and nothing else, and numbers them among all lines.
-/
theorem validateText_appended
    (front back : String) :
    validateText (front ++ "\n" ++ back) =
        (validateText front).followedBy (front.toList.count '\n' + 1)
          (validateText back) ∧
      ∀ text,
        validateBytes (Bytes.ofText text) = some (validateText text) ∧
          (validateText text).IsOn (physicalLines text) := by
  constructor
  · have joined :
        (front ++ "\n" ++ back).toList = front.toList ++ '\n' :: back.toList := by
      simp
    rw [validateText, joined, splitLines_append_lineBreak,
      validateFrom_one_append, length_splitLines]
    rfl
  · intro text
    refine ⟨by rw [validateBytes, Bytes.toText?_ofText]; rfl, ?_⟩
    rw [validateText, splitLines_eq_splitOn]
    exact isOn_validateFrom (physicalLines text)

end LibcConformance.Log
