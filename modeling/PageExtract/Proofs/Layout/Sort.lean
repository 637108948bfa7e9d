/-
Sorting by a strict order, and by a number.

Sorting is stable, so that it does not matter whether a part of a list is taken before or after it.
Elements that are sorted by a rational number stand in the order of the numbers.

* `filter_insertBy`, `sortBy_filter` — a part of a sorted list;
* `not_less_trans`, `less_asymm`, `pairwise_sortBy_number` — numbers as an order.
-/
import Mathlib.Algebra.Order.Field.Rat
import PageExtract.Layout.Sort

namespace PageExtract

/-! ### Sorting a part of a list -/

section

variable {α : Type}

/-- An element that none of the others is less than goes before them. -/
theorem insertBy_of_forall {less : α → α → Bool} {x : α} {ys : List α}
    (h : ∀ y ∈ ys, less y x = false) : insertBy less x ys = x :: ys := by
  cases ys with
  | nil => rfl
  | cons y ys =>
    rw [insertBy, h y List.mem_cons_self]
    rfl

variable {less : α → α → Bool}
  (trans : ∀ a b c, less a b = false → less b c = false → less a c = false)
  (asymm : ∀ a b, less a b = true → less b a = false)

include trans

theorem filter_insertBy (p : α → Bool) (x : α) {ys : List α}
    (h : ys.Pairwise fun a b => less b a = false) :
    (insertBy less x ys).filter p =
      if p x then insertBy less x (ys.filter p) else ys.filter p := by
  induction ys with
  | nil => cases hx : p x <;> simp [insertBy, hx]
  | cons y ys ih =>
    obtain ⟨hy, hys⟩ := List.pairwise_cons.1 h
    cases hless : less y x with
    | true =>
      have hcons : insertBy less x (y :: ys) = y :: insertBy less x ys := by
        rw [insertBy, hless]
        rfl
      rw [hcons, List.filter_cons, List.filter_cons, ih hys]
      cases p y <;> cases p x <;> simp [insertBy, hless]
    | false =>
      -- Neither `y` nor anything after it is less than `x`.
      have hall : ∀ z ∈ y :: ys, less z x = false := by
        intro z hz
        obtain rfl | hz := List.mem_cons.1 hz
        · exact hless
        · exact trans z y x (hy z hz) hless
      rw [insertBy_of_forall hall, List.filter_cons,
        insertBy_of_forall fun z hz => hall z (List.mem_filter.1 hz).1]

include asymm

/-- A part of a list is sorted as it stands in the sorted list. -/
theorem sortBy_filter (p : α → Bool) (xs : List α) :
    sortBy less (xs.filter p) = (sortBy less xs).filter p := by
  induction xs with
  | nil => rfl
  | cons x xs ih =>
    rw [sortBy, filter_insertBy trans p x (pairwise_sortBy less trans asymm xs), ← ih,
      List.filter_cons]
    cases p x <;> rfl

end

/-! ### Sorting by a number -/

section

variable {α : Type} (f : α → Rat)

theorem not_less_trans (a b c : α) (hab : decide (f a < f b) = false)
    (hbc : decide (f b < f c) = false) : decide (f a < f c) = false := by
  simp only [decide_eq_false_iff_not, not_lt] at hab hbc ⊢
  exact hbc.trans hab

theorem less_asymm (a b : α) (hab : decide (f a < f b) = true) : decide (f b < f a) = false := by
  simp only [decide_eq_true_eq, decide_eq_false_iff_not, not_lt] at hab ⊢
  exact hab.le

/-- What is sorted by a number stands in the order of the numbers. -/
theorem pairwise_sortBy_number (xs : List α) :
    (sortBy (fun a b => decide (f a < f b)) xs).Pairwise fun a b => f a ≤ f b := by
  refine (pairwise_sortBy _ (not_less_trans f) (less_asymm f) xs).imp fun hab => ?_
  simpa using hab

end

end PageExtract
