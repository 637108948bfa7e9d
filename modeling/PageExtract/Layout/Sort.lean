/-
Stable sorting.

Elements that the order does not tell apart keep the order in which they came.

* `sortBy less xs` : `xs` sorted by a strict order;
* `sortBy_perm` : sorting only permutes;
* `pairwise_sortBy` : no element comes after one it is less than.
-/

namespace PageExtract

variable {α : Type}

/-- Inserts an element before the first one that is not less than it. -/
def insertBy (less : α → α → Bool) (x : α) : List α → List α
  | [] => [x]
  | y :: ys => if less y x then y :: insertBy less x ys else x :: y :: ys

/-- Sorts a list by a strict order, keeping the order of elements it does not tell apart. -/
def sortBy (less : α → α → Bool) : List α → List α
  | [] => []
  | x :: xs => insertBy less x (sortBy less xs)

theorem insertBy_perm (less : α → α → Bool) (x : α) (ys : List α) :
    (insertBy less x ys).Perm (x :: ys) := by
  induction ys with
  | nil => exact .refl _
  | cons y ys ih =>
    unfold insertBy
    split
    · exact (ih.cons y).trans (.swap x y ys)
    · exact .refl _

/-- Sorting only permutes. -/
theorem sortBy_perm (less : α → α → Bool) (xs : List α) : (sortBy less xs).Perm xs := by
  induction xs with
  | nil => exact .refl _
  | cons x xs ih => exact (insertBy_perm less x _).trans (ih.cons x)

theorem pairwise_insertBy (less : α → α → Bool)
    (trans : ∀ a b c, less a b = false → less b c = false → less a c = false)
    (asymm : ∀ a b, less a b = true → less b a = false) (x : α) (ys : List α)
    (h : ys.Pairwise fun a b => less b a = false) :
    (insertBy less x ys).Pairwise fun a b => less b a = false := by
  induction ys with
  | nil => simp [insertBy]
  | cons y ys ih =>
    obtain ⟨hy, hys⟩ := List.pairwise_cons.1 h
    unfold insertBy
    split
    · rename_i hlt
      refine List.pairwise_cons.2 ⟨fun a ha => ?_, ih hys⟩
      rcases List.mem_cons.1 ((insertBy_perm less x ys).mem_iff.1 ha) with rfl | ha
      · exact asymm _ _ hlt
      · exact hy a ha
    · rename_i hle
      have hle' : less y x = false := by simpa using hle
      refine List.pairwise_cons.2 ⟨fun a ha => ?_, h⟩
      rcases List.mem_cons.1 ha with rfl | ha
      · exact hle'
      · exact trans _ _ _ (hy a ha) hle'

/-- In a sorted list no element comes after one it is less than. -/
theorem pairwise_sortBy (less : α → α → Bool)
    (trans : ∀ a b c, less a b = false → less b c = false → less a c = false)
    (asymm : ∀ a b, less a b = true → less b a = false) (xs : List α) :
    (sortBy less xs).Pairwise fun a b => less b a = false := by
  induction xs with
  | nil => exact .nil
  | cons x xs ih => exact pairwise_insertBy less trans asymm x _ ih

end PageExtract
