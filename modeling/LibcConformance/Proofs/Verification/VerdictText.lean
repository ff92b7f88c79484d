import LibcConformance.Proofs.Suite.EmittedCheck

namespace LibcConformance

/-!
# What the texts of a verdict say

The first word of a description says which kind of expectation it is, and what
follows that word is read back as the expectation itself.  The report of a
broken probe starts with none of these words.  Main fact: a case passes exactly
when the two texts of its verdict are the same.
-/

namespace Expectation

open CText

/-- The kinds of expectations. -/
inductive Kind where
  | bytes
  | length
  | sign
  | formatted
  | completes
  deriving Repr, DecidableEq

/-- The kind of an expectation. -/
def kind : Expectation → Kind
  | .bytes _ => .bytes
  | .length _ => .length
  | .sign _ => .sign
  | .formatted _ _ => .formatted
  | .completes => .completes

/-- What follows the first word of a description. -/
def body : Expectation → String
  | .bytes contents => stringLiteral contents
  | .length size => toString size
  | .sign order => signOperator order
  | .formatted size (some content) =>
      toString size ++ (", content " ++ stringLiteral content)
  | .formatted size none => toString size
  | .completes => ""

/-- Reads a literal that ends a text. -/
def readLastLiteral?
    (text : List Char) : Option Bytes := do
  let (contents, rest) ← readLiteral? '"' text
  if rest = [] then some contents else none

/-- Reads a size, and the string that is left with it if one can be seen. -/
def readFormatted?
    (text : List Char) : Option Expectation := do
  let (size, rest) ← readDecimal? text
  if rest = [] then
    some (.formatted size none)
  else
    let content ← readLastLiteral? (← after? ", content " rest)
    some (.formatted size (some content))

namespace Kind

def all : List Kind :=
  [.bytes, .length, .sign, .formatted, .completes]

/-- The first word of the descriptions of a kind. -/
def word : Kind → String
  | .bytes => "bytes "
  | .length => "length "
  | .sign => "sign "
  | .formatted => "len "
  | .completes => "completes"

/-- Reads what follows the first word. -/
def readBody?
    (kind : Kind)
    (text : List Char) : Option Expectation :=
  match kind with
  | .bytes => (readLastLiteral? text).map .bytes
  | .length => do
      let (size, rest) ← readDecimal? text
      if rest = [] then some (.length size) else none
  | .sign =>
      ([.lt, .eq, .gt].find? fun order => (signOperator order).toList = text).map .sign
  | .formatted => readFormatted? text
  | .completes => if text = [] then some .completes else none

theorem mem_all
    (kind : Kind) :
    kind ∈ all := by
  cases kind <;> decide

/-- No first word is the beginning of another. -/
theorem after?_word_of_ne
    {kind other : Kind}
    (different : kind ≠ other)
    (text : List Char) :
    after? other.word (kind.word.toList ++ text) = none := by
  revert different
  cases kind <;> cases other <;> simp [word, after?, List.dropPrefix?]

end Kind

/-- Reads a description by its first word. -/
def read?
    (text : List Char) : Option Expectation :=
  Kind.all.findSome? fun kind => (after? kind.word text).bind kind.readBody?

section Reading

/-- Behind a first word, only the reader of its kind has anything to read. -/
theorem read?_append
    {kind : Kind}
    {text : List Char}
    {expectation : Expectation}
    (isRead : kind.readBody? text = some expectation) :
    read? (kind.word.toList ++ text) = some expectation := by
  have answers :
      (read? (kind.word.toList ++ text)).isSome := by
    rw [read?, List.findSome?_isSome_iff]
    exact ⟨kind, kind.mem_all, by simp [after?_append, isRead]⟩
  obtain ⟨answer, isAnswer⟩ := Option.isSome_iff_exists.mp answers
  obtain ⟨other, -, isOther⟩ := List.exists_of_findSome?_eq_some isAnswer
  by_cases same : kind = other
  · subst same
    rw [after?_append, Option.bind_some, isRead] at isOther
    rw [isAnswer, isOther]
  · rw [Kind.after?_word_of_ne same] at isOther
    cases isOther

theorem readLastLiteral?_stringLiteral
    (contents : Bytes) :
    readLastLiteral? (stringLiteral contents).toList = some contents := by
  have isRead :
      readLiteral? '"' ((stringLiteral contents).toList ++ []) =
        some (contents, []) :=
    readLiteral?_stringLiteral_append contents (by simp)
  rw [List.append_nil] at isRead
  simp only [readLastLiteral?, isRead, Option.bind_eq_bind, Option.bind_some,
    if_true]

theorem readDecimal?_toString
    (size : Nat) :
    readDecimal? (toString size).toList = some (size, []) := by
  have isRead :
      readDecimal? ((toString size).toList ++ []) = some (size, []) :=
    readDecimal?_append size (by simp [Numeral.NoDigitFirst])
  rwa [List.append_nil] at isRead

theorem readFormatted?_append
    (size : Nat)
    (content : Bytes) :
    readFormatted?
        ((toString size).toList ++
          (", content ".toList ++ (stringLiteral content).toList)) =
      some (.formatted size (some content)) := by
  have ends :
      Numeral.NoDigitFirst
        (", content ".toList ++ (stringLiteral content).toList) := by
    simp [Numeral.NoDigitFirst]
  simp only [readFormatted?, readDecimal?_append size ends, after?_append,
    readLastLiteral?_stringLiteral, Option.bind_eq_bind, Option.bind_some]
  rfl

variable
  (expectation : Expectation)

theorem describe_eq :
    expectation.describe = expectation.kind.word ++ expectation.body := by
  cases expectation with
  | formatted size content =>
      cases content <;> simp [describe, kind, Kind.word, body, toString, String.append_assoc]
  | _ => simp [describe, kind, Kind.word, body, toString]

theorem readBody?_body :
    expectation.kind.readBody? expectation.body.toList = some expectation := by
  cases expectation with
  | bytes contents =>
      simp only [kind, body, Kind.readBody?, readLastLiteral?_stringLiteral,
        Option.map_some]
  | length size =>
      simp only [kind, body, Kind.readBody?, readDecimal?_toString,
        Option.bind_eq_bind, Option.bind_some, if_true]
  | sign order =>
      cases order <;> decide
  | formatted size content =>
      cases content with
      | none =>
          simp only [kind, body, Kind.readBody?, readFormatted?,
            readDecimal?_toString, Option.bind_eq_bind, Option.bind_some,
            if_true]
      | some content =>
          simp only [kind, body, Kind.readBody?, String.toList_append,
            readFormatted?_append]
  | completes =>
      rfl

/-- A description is read back as the expectation that it describes. -/
theorem read?_describe :
    read? expectation.describe.toList = some expectation := by
  rw [describe_eq, String.toList_append]
  exact read?_append expectation.readBody?_body

end Reading

theorem describe_injective :
    Function.Injective describe := by
  intro expectation other same
  have isRead := expectation.read?_describe
  rw [same, other.read?_describe] at isRead
  exact (Option.some.inj isRead).symm

/-- A text that starts as the report of a broken probe does. -/
def ReportsFault
    (text : String) : Prop :=
  "error: ".toList <+: text.toList

theorem describe_ne_of_reportsFault
    {text : String}
    (reportsFault : ReportsFault text)
    (expectation : Expectation) :
    expectation.describe ≠ text := by
  rintro rfl
  obtain ⟨rest, shape⟩ := reportsFault
  have noKind
      (kind : Kind) :
      after? kind.word ("error: ".toList ++ rest) = none := by
    cases kind <;> simp [Kind.word, after?, List.dropPrefix?]
  have isRead := expectation.read?_describe
  rw [← shape, read?] at isRead
  obtain ⟨kind, -, isKind⟩ := List.exists_of_findSome?_eq_some isRead
  rw [noKind] at isKind
  cases isKind

end Expectation

namespace TestCase

section Texts

variable
  {case : TestCase}

theorem actual_verify_of_ok
    (routine : Routine)
    {seen : Expectation}
    (observed : Simulation.observe case.expectation case.probe = .ok seen) :
    (case.verify routine).actual = seen.describe := by
  simp only [verify, observed]

theorem reportsFault_verify_of_error
    (routine : Routine)
    {fault : ProbeFault}
    (observed : Simulation.observe case.expectation case.probe = .error fault) :
    Expectation.ReportsFault (case.verify routine).actual := by
  have report :
      (case.verify routine).actual = "error: " ++ fault.message := by
    simp [verify, observed, toString]
  rw [Expectation.ReportsFault, report, String.toList_append]
  exact List.prefix_append _ _

end Texts

/--
Different expectations have different descriptions, and none starts with
`error: ` as what is seen of a broken probe does.  A case passes exactly when
what it expects and what is seen are the same text.
-/
theorem texts_tellVerdict
    (routine : Routine)
    (case : TestCase) :
    Function.Injective Expectation.describe ∧
      ((case.verify routine).passed = true ↔
        (case.verify routine).expected = (case.verify routine).actual) ∧
      (Expectation.ReportsFault (case.verify routine).actual ↔
        ∃ fault,
          Simulation.observe case.expectation case.probe = .error fault) ∧
      ∀ text,
        Expectation.ReportsFault text →
          ∀ expectation : Expectation, expectation.describe ≠ text := by
  refine
    ⟨Expectation.describe_injective, ?_, ?_,
      fun _ => Expectation.describe_ne_of_reportsFault⟩
  · have expected :
        (case.verify routine).expected = case.expectation.describe :=
      rfl
    rw [Simulation.passed_verify_iff, expected]
    cases observed : Simulation.observe case.expectation case.probe with
    | ok seen =>
        rw [actual_verify_of_ok routine observed, Except.ok.injEq,
          Expectation.describe_injective.eq_iff, eq_comm]
    | error fault =>
        have different :=
          Expectation.describe_ne_of_reportsFault
            (reportsFault_verify_of_error routine observed) case.expectation
        exact iff_of_false (by simp) different
  · cases observed : Simulation.observe case.expectation case.probe with
    | ok seen =>
        rw [actual_verify_of_ok routine observed]
        refine iff_of_false (fun reportsFault => ?_) (by simp)
        exact Expectation.describe_ne_of_reportsFault reportsFault seen rfl
    | error fault =>
        exact
          iff_of_true (reportsFault_verify_of_error routine observed)
            ⟨fault, rfl⟩

end TestCase

end LibcConformance
