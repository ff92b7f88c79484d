import Mathlib.Data.List.Chain
import LibcConformance.Format.Template
import LibcConformance.Proofs.Format.Spelling

namespace LibcConformance

/-!
# Segments tile their template

Every segment covers a piece of the text of a template, and the pieces in a row
are that text: nothing is lost and nothing is added.  A percent sign is literal
only where neither a doubled sign nor a directive begins, and a run of other
bytes is never split in two.
-/

namespace Format

namespace Segment

/-- A literal without a percent sign. -/
def IsRun (segment : Segment) : Prop :=
  ∃ bytes, segment = .literal bytes ∧ ascii '%' ∉ bytes

/-- A segment stands for a piece of text, with some text after it. -/
inductive Covers : Segment → Bytes → Bytes → Prop where
  | literal
      (bytes after : Bytes) :
      Covers (.literal bytes) bytes after
  | percent
      (after : Bytes) :
      Covers .percent [ascii '%', ascii '%'] after
  | directive
      {directive : Directive}
      {body after : Bytes}
      (accepted :
        Directive.readSpan? (body ++ after) = some (directive, body.length)) :
      Covers (.directive directive) (ascii '%' :: body) after

/-- No doubled sign and no directive begins behind a percent sign. -/
def StartsNothing (following : Bytes) : Prop :=
  following = [] ∨
    (following.head? ≠ some (ascii '%') ∧ Directive.readSpan? following = none)

/-- A segment covers its piece, and is literal only as far as it has to be. -/
structure Fits (segment : Segment) (piece after : Bytes) : Prop where
  covers : segment.Covers piece after
  literalShape :
    ∀ bytes,
      segment = .literal bytes →
      bytes ≠ [] ∧ (ascii '%' ∉ bytes ∨ bytes = [ascii '%'])
  literalPercent :
    ∀ following,
      piece = ascii '%' :: following →
      ((∃ bytes, segment = .literal bytes) ↔ StartsNothing (following ++ after))

/-- Segments fit the pieces of a text one by one. -/
inductive Tile : List Segment → List Bytes → Prop where
  | nil :
      Tile [] []
  | cons
      {segment : Segment}
      {piece : Bytes}
      {segments : List Segment}
      {pieces : List Bytes} :
      segment.Fits piece pieces.flatten →
      Tile segments pieces →
      Tile (segment :: segments) (piece :: pieces)

/-- A run of bytes without a percent sign fits where it stands. -/
theorem fits_run
    {first : UInt8}
    {run : Bytes}
    (after : Bytes)
    (firstLiteral : isPercent first = false)
    (runLiteral : ∀ byte ∈ run, isPercent byte = false) :
    (Segment.literal (first :: run)).Fits (first :: run) after where
  covers := .literal _ _
  literalShape := by
    rintro bytes same
    cases same
    refine ⟨List.cons_ne_nil _ _, .inl ?_⟩
    intro member
    rcases List.mem_cons.mp member with isFirst | inRun
    · subst isFirst
      exact absurd firstLiteral (by decide)
    · exact absurd (runLiteral _ inRun) (by decide)
  literalPercent := by
    intro following same
    cases same
    exact absurd firstLiteral (by decide)

/-- A percent sign that begins nothing fits as a literal. -/
theorem fits_stray
    {after : Bytes}
    (startsNothing : StartsNothing after) :
    (Segment.literal [ascii '%']).Fits [ascii '%'] after where
  covers := .literal _ _
  literalShape := by
    rintro bytes same
    cases same
    exact ⟨List.cons_ne_nil _ _, .inr rfl⟩
  literalPercent := by
    intro following same
    cases same
    exact ⟨fun _ => startsNothing, fun _ => ⟨_, rfl⟩⟩

theorem fits_percent
    (after : Bytes) :
    Segment.percent.Fits [ascii '%', ascii '%'] after where
  covers := .percent _
  literalShape := by
    intro bytes same
    cases same
  literalPercent := by
    intro following same
    cases same
    constructor
    · rintro ⟨bytes, same⟩
      cases same
    · rintro (empty | ⟨notPercent, _⟩)
      · cases empty
      · exact absurd rfl notPercent

theorem fits_directive
    {directive : Directive}
    {body after : Bytes}
    (accepted :
      Directive.readSpan? (body ++ after) = some (directive, body.length)) :
    (Segment.directive directive).Fits (ascii '%' :: body) after where
  covers := .directive accepted
  literalShape := by
    intro bytes same
    cases same
  literalPercent := by
    intro following same
    cases same
    constructor
    · rintro ⟨bytes, same⟩
      cases same
    · rintro (empty | ⟨_, rejected⟩)
      · rw [empty] at accepted
        cases accepted
      · rw [rejected] at accepted
        cases accepted

end Segment

theorem isPercent_iff
    (byte : UInt8) :
    isPercent byte = true ↔ byte = ascii '%' := by
  simp [isPercent]

theorem segmentsOfText_tile
    (text : Bytes) :
    ∃ pieces,
      Segment.Tile (segmentsOfText text) pieces ∧ pieces.flatten = text := by
  fun_induction segmentsOfText text with
  | case1 =>
      exact ⟨[], .nil, rfl⟩
  | case2 first percent =>
      rw [isPercent_iff] at percent
      subst percent
      have startsNothing : Segment.StartsNothing [] := .inl rfl
      exact
        ⟨[[ascii '%']], .cons (Segment.fits_stray startsNothing) .nil, rfl⟩
  | case3 first percent second after doubled inductionHypothesis =>
      rw [isPercent_iff] at percent doubled
      subst percent doubled
      obtain ⟨pieces, tile, sameText⟩ := inductionHypothesis
      refine
        ⟨[ascii '%', ascii '%'] :: pieces,
          .cons (Segment.fits_percent _) tile, ?_⟩
      simp [sameText]
  | case4 first percent second after notDoubled directive remaining accepted
      inductionHypothesis =>
      rw [isPercent_iff] at percent
      subst percent
      obtain ⟨pieces, tile, sameText⟩ := inductionHypothesis
      obtain ⟨body, bodyText, spans⟩ := Directive.readSpan?_of_read? accepted
      rw [← sameText] at spans
      refine
        ⟨(ascii '%' :: body) :: pieces,
          .cons (Segment.fits_directive spans) tile, ?_⟩
      simp [sameText, bodyText]
  | case5 first percent second after notDoubled rejected
      inductionHypothesis =>
      rw [isPercent_iff] at percent
      subst percent
      obtain ⟨pieces, tile, sameText⟩ := inductionHypothesis
      have startsNothing : Segment.StartsNothing pieces.flatten := by
        refine .inr ⟨?_, ?_⟩
        · simpa [sameText, isPercent_iff] using notDoubled
        · simp [sameText, Directive.readSpan?, rejected]
      refine
        ⟨[ascii '%'] :: pieces,
          .cons (Segment.fits_stray startsNothing) tile, ?_⟩
      simp [sameText]
  | case6 first rest notPercent inductionHypothesis =>
      obtain ⟨pieces, tile, sameText⟩ := inductionHypothesis
      have runLiteral :
          ∀ byte ∈ rest.takeWhile (!isPercent ·), isPercent byte = false := by
        intro byte member
        simpa using List.mem_takeWhile_imp member
      have firstLiteral : isPercent first = false := by
        simpa using notPercent
      refine
        ⟨(first :: rest.takeWhile (!isPercent ·)) :: pieces,
          .cons (Segment.fits_run _ firstLiteral runLiteral) tile, ?_⟩
      simp [sameText, List.takeWhile_append_dropWhile]

namespace Segment

theorem not_isRun_stray : ¬ (Segment.literal [ascii '%']).IsRun := by
  rintro ⟨bytes, same, free⟩
  cases same
  exact free (by simp)

theorem not_isRun_percent : ¬ Segment.percent.IsRun := by
  rintro ⟨bytes, same, _⟩
  cases same

theorem not_isRun_directive
    (directive : Directive) :
    ¬ (Segment.directive directive).IsRun := by
  rintro ⟨bytes, same, _⟩
  cases same

/-- Anything but a run may stand in front of any segments. -/
theorem isChain_cons_of_not_isRun
    {segment : Segment}
    {rest : List Segment}
    (noRun : ¬ segment.IsRun)
    (chain :
      rest.IsChain fun first second => ¬ (first.IsRun ∧ second.IsRun)) :
    (segment :: rest).IsChain fun first second =>
      ¬ (first.IsRun ∧ second.IsRun) :=
  List.isChain_cons.mpr ⟨fun _ _ both => noRun both.1, chain⟩

end Segment

/-- A text begins with a run only where its first byte is no percent sign. -/
theorem not_isRun_of_head
    {text : Bytes}
    (atPercent : ∀ byte ∈ text.head?, isPercent byte = true) :
    ∀ segment ∈ (segmentsOfText text).head?, ¬ segment.IsRun := by
  cases text with
  | nil =>
      simp [segmentsOfText]
  | cons first rest =>
      have percent : isPercent first = true := atPercent first rfl
      have same := (isPercent_iff first).mp percent
      subst same
      intro segment member
      unfold segmentsOfText at member
      rw [if_pos percent] at member
      split at member
      · cases member
        exact Segment.not_isRun_stray
      · split at member
        · cases member
          exact Segment.not_isRun_percent
        · split at member
          · cases member
            exact Segment.not_isRun_directive _
          · cases member
            exact Segment.not_isRun_stray

theorem isPercent_of_head_dropWhile
    (text : Bytes) :
    ∀ byte ∈ (text.dropWhile (!isPercent ·)).head?, isPercent byte = true := by
  intro byte member
  have stopped := List.head?_dropWhile_not (!isPercent ·) text
  rw [Option.mem_def.mp member] at stopped
  simpa using stopped

theorem isChain_segmentsOfText
    (text : Bytes) :
    (segmentsOfText text).IsChain fun first second =>
      ¬ (first.IsRun ∧ second.IsRun) := by
  fun_induction segmentsOfText text with
  | case1 =>
      exact .nil
  | case2 first percent =>
      exact .singleton _
  | case3 first percent second after doubled inductionHypothesis =>
      exact
        Segment.isChain_cons_of_not_isRun Segment.not_isRun_percent
          inductionHypothesis
  | case4 first percent second after notDoubled directive remaining accepted
      inductionHypothesis =>
      exact
        Segment.isChain_cons_of_not_isRun (Segment.not_isRun_directive _)
          inductionHypothesis
  | case5 first percent second after notDoubled rejected
      inductionHypothesis =>
      rw [(isPercent_iff first).mp percent]
      exact
        Segment.isChain_cons_of_not_isRun Segment.not_isRun_stray
          inductionHypothesis
  | case6 first rest notPercent inductionHypothesis =>
      refine List.isChain_cons.mpr ⟨?_, inductionHypothesis⟩
      intro second member both
      have nextNotRun : ¬ second.IsRun :=
        not_isRun_of_head (isPercent_of_head_dropWhile rest) second member
      exact nextNotRun both.2

/-- The text of a template ends before its first NUL, whatever follows that. -/
theorem segments_append_nul
    (template after : Bytes) :
    segments (template ++ 0 :: after) = segments template := by
  have sameText : (template ++ 0 :: after).cString = template.cString := by
    simp only [Bytes.cString, List.takeWhile_append]
    split
    · rename_i noNul
      have whole : template.takeWhile (· != 0) = template :=
        (List.takeWhile_prefix _).eq_of_length noNul
      simp [whole]
    · rfl
  rw [segments, segments, sameText]

/--
The segments of a template cover its text up to the first NUL piece by piece.
Each fits its piece, no two runs without a percent sign stand side by side, and
the bytes behind the first NUL do not matter.
-/
theorem segments_tile
    (template : Bytes) :
    (∃ pieces,
        Segment.Tile (segments template) pieces ∧
          pieces.flatten = template.cString) ∧
      ((segments template).IsChain fun first second =>
        ¬ (first.IsRun ∧ second.IsRun)) ∧
      ∀ after, segments (template ++ 0 :: after) = segments template :=
  ⟨segmentsOfText_tile _, isChain_segmentsOfText _,
    segments_append_nul template⟩

end Format

end LibcConformance
