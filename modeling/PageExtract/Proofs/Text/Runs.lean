/-
Runs of characters.

A reader takes characters as long as they pass a test. What it takes is determined by where it has
to stop:

* `head?_dropWhile_run` — what is left begins with a character that does not pass;
* `takeWhile_run`, `dropWhile_run` — characters that pass, before one that does not.
-/
import Mathlib.Data.List.TakeWhile

namespace PageExtract.Text

variable {p : Char → Bool} {cs rest : List Char}

theorem head?_dropWhile_run (p : Char → Bool) (cs : List Char) :
    ∀ c ∈ (cs.dropWhile p).head?, p c = false := by
  intro c hc
  have hend := List.head?_dropWhile_not p cs
  rw [Option.mem_def.1 hc] at hend
  exact hend

theorem takeWhile_run (hcs : ∀ c ∈ cs, p c = true) (hrest : ∀ c ∈ rest.head?, p c = false) :
    (cs ++ rest).takeWhile p = cs := by
  rw [List.takeWhile_append_of_pos hcs]
  cases rest with
  | nil => exact List.append_nil cs
  | cons c rest => rw [List.takeWhile_cons_of_neg (by simp [hrest c rfl]), List.append_nil]

theorem dropWhile_run (hcs : ∀ c ∈ cs, p c = true) (hrest : ∀ c ∈ rest.head?, p c = false) :
    (cs ++ rest).dropWhile p = rest := by
  rw [List.dropWhile_append_of_pos hcs]
  cases rest with
  | nil => rfl
  | cons c rest => exact List.dropWhile_cons_of_neg (by simp [hrest c rfl])

end PageExtract.Text
