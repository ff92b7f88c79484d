import LibcConformance.Proofs.LeadingRun
import LibcConformance.Text.WhiteSpace

namespace LibcConformance.WhiteSpace

/-!
# Trimmed texts

A text is trimmed to the one text that stands in it between white space, and
that no white space starts or ends.
-/

/-- A text is another one with white space around it, and that one has none at its ends. -/
def IsTrimmed
    (text inner : List Char) : Prop :=
  ∃ front back,
    text = front ++ inner ++ back ∧
      (∀ character ∈ front ++ back, contains character = true) ∧
        ∀ character ∈ inner.head?.toList ++ inner.getLast?.toList,
          contains character = false

section Trimming

variable
  {text inner : List Char}

theorem dropWhile_of_forall
    (blank : ∀ character ∈ text, contains character = true) :
    text.dropWhile contains = [] :=
  List.dropWhile_eq_nil_iff.mpr blank

/-- Whatever white space is around a text, trimming takes it away. -/
theorem trim_eq_of_isTrimmed
    (trimmed : IsTrimmed text inner) :
    trim text = inner := by
  obtain ⟨front, back, rfl, blank, ends⟩ := trimmed
  rw [List.forall_mem_append] at blank ends
  obtain ⟨frontBlank, backBlank⟩ := blank
  have backBlankReversed :
      ∀ character ∈ back.reverse, contains character = true := by
    simpa using backBlank
  cases inner with
  | nil =>
      rw [trim, List.append_nil, List.dropWhile_append_of_pos frontBlank,
        dropWhile_of_forall backBlank]
      rfl
  | cons first later =>
      have startsInner :
          ∀ character ∈ (first :: later ++ back).head?, contains character = false := by
        rintro character ⟨⟩
        exact ends.1 first (by simp)
      have endsInner :
          ∀ character ∈ (first :: later).reverse.head?, contains character = false := by
        intro character isLast
        rw [List.head?_reverse] at isLast
        exact ends.2 character (by simpa using isLast)
      rw [trim, List.append_assoc, dropWhile_run_append frontBlank startsInner,
        List.reverse_append, dropWhile_run_append backBlankReversed endsInner,
        List.reverse_reverse]

/-- Trimming leaves a text without white space at its ends. -/
theorem isTrimmed_trim
    (text : List Char) :
    IsTrimmed text (trim text) := by
  have frontBlank :
      ∀ character ∈ text.takeWhile contains, contains character = true :=
    fun character => List.mem_takeWhile_imp
  have backBlank :
      ∀ character ∈ ((text.dropWhile contains).reverse.takeWhile contains).reverse,
        contains character = true := by
    intro character member
    exact List.mem_takeWhile_imp (List.mem_reverse.mp member)
  have middle :
      trim text ++ ((text.dropWhile contains).reverse.takeWhile contains).reverse =
        text.dropWhile contains := by
    rw [trim, ← List.reverse_append, List.takeWhile_append_dropWhile, List.reverse_reverse]
  refine
    ⟨text.takeWhile contains,
      ((text.dropWhile contains).reverse.takeWhile contains).reverse, ?_, ?_, ?_⟩
  · rw [List.append_assoc, middle, List.takeWhile_append_dropWhile]
  · exact List.forall_mem_append.mpr ⟨frontBlank, backBlank⟩
  · refine List.forall_mem_append.mpr ⟨fun character isFirst => ?_, fun character isLast => ?_⟩
    · rw [Option.mem_toList] at isFirst
      apply head?_dropWhile text character
      rw [← middle, List.head?_append, isFirst]
      rfl
    · rw [Option.mem_toList, trim, List.getLast?_reverse] at isLast
      exact head?_dropWhile _ character isLast

/-- A text that holds no white space is what is left of it with some around it. -/
theorem isTrimmed_of_forall
    (front inner back : List Char)
    (blank : ∀ character ∈ front ++ back, contains character = true)
    (plain : ∀ character ∈ inner, contains character = false) :
    IsTrimmed (front ++ inner ++ back) inner := by
  refine ⟨front, back, rfl, blank, fun character member => plain character ?_⟩
  rcases List.mem_append.mp member with isFirst | isLast
  · exact List.mem_of_mem_head? (Option.mem_toList.mp isFirst)
  · exact List.mem_of_mem_getLast? (Option.mem_toList.mp isLast)

end Trimming

end LibcConformance.WhiteSpace
