import Mathlib.Data.List.TakeWhile

namespace LibcConformance

/-!
# Leading runs

Readers take what stands in front of a text as far as it is of one kind: blanks,
digits, the characters of a name.  A run is all that they take if whatever comes
behind it starts with something else.
-/

section Runs

variable
  {α : Type}
  {accepts : α → Bool}
  {run rest : List α}

theorem takeWhile_run_append
    (inRun : ∀ item ∈ run, accepts item = true)
    (ends : ∀ item ∈ rest.head?, accepts item = false) :
    (run ++ rest).takeWhile accepts = run := by
  rw [List.takeWhile_append_of_pos inRun]
  cases rest with
  | nil =>
      exact List.append_nil run
  | cons first behind =>
      rw [List.takeWhile_cons_of_neg (Bool.eq_false_iff.mp (ends first rfl)),
        List.append_nil]

theorem dropWhile_run_append
    (inRun : ∀ item ∈ run, accepts item = true)
    (ends : ∀ item ∈ rest.head?, accepts item = false) :
    (run ++ rest).dropWhile accepts = rest := by
  rw [List.dropWhile_append_of_pos inRun]
  cases rest with
  | nil =>
      rfl
  | cons first behind =>
      exact List.dropWhile_cons_of_neg (Bool.eq_false_iff.mp (ends first rfl))

/-- What is left of a text starts with something else than its leading run. -/
theorem head?_dropWhile
    (text : List α) :
    ∀ item ∈ (text.dropWhile accepts).head?, accepts item = false := by
  intro item isFirst
  have first := List.head?_dropWhile_not accepts text
  rw [isFirst] at first
  exact first

end Runs

end LibcConformance
