import Mathlib

/-!
# Runs of characters

What is taken from the head of a text as long as its characters pass a test, if one knows where the
run ends.
-/

namespace Worksheet.Text

variable {α : Type} {p : α → Bool} {run rest : List α}

/-- Whether a text is empty or begins with a character that fails the test. -/
def Stops (p : α → Bool) (rest : List α) : Prop := ∀ c ∈ rest.head?, p c = false

theorem stops_nil : Stops p [] := by
  intro c hc
  cases hc

theorem stops_cons {c : α} (h : p c = false) : Stops p (c :: rest) := by
  intro d hd
  cases hd
  exact h

/-- Where a run has been dropped, it has ended. -/
theorem stops_dropWhile (rest : List α) : Stops p (rest.dropWhile p) := by
  intro c hc
  have hnot := List.head?_dropWhile_not p rest
  rwa [Option.mem_def.mp hc] at hnot

theorem takeWhile_of_stops (h : Stops p rest) : rest.takeWhile p = [] := by
  cases rest with
  | nil => rfl
  | cons c rest => simp [h c rfl]

theorem dropWhile_of_stops (h : Stops p rest) : rest.dropWhile p = rest := by
  cases rest with
  | nil => rfl
  | cons c rest => simp [h c rfl]

/-- A run that ends is taken as a whole. -/
theorem takeWhile_run (hrun : ∀ c ∈ run, p c = true) (hrest : Stops p rest) :
    (run ++ rest).takeWhile p = run := by
  rw [List.takeWhile_append_of_pos hrun, takeWhile_of_stops hrest, List.append_nil]

/-- What is behind a run is left when it is dropped. -/
theorem dropWhile_run (hrun : ∀ c ∈ run, p c = true) (hrest : Stops p rest) :
    (run ++ rest).dropWhile p = rest := by
  rw [List.dropWhile_append_of_pos hrun, dropWhile_of_stops hrest]

end Worksheet.Text
