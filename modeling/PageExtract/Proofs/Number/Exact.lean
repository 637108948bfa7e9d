/-
Arithmetic without rounding.

On rational numbers the extremes and the nearest point of the unit interval are what their names
say:

* `lesser_eq_min`, `greater_eq_max`, `abs_eq_abs` — two numbers and one;
* `le_least_iff`, `greatest_le_iff` — the extremes of a list as its bounds;
* `least_mem`, `greatest_mem` — the extremes of a list are in it;
* `clampUnit_nonneg`, `clampUnit_le_one`, `clampUnit_mono`, `clampUnit_border` — the nearest point
  of [0, 1];
* `text_ofNat`, `isInteger_ofNat` — natural numbers.
-/
import Mathlib.Algebra.Order.Field.Rat
import Mathlib.Data.Rat.Lemmas
import Mathlib.Tactic.NormNum
import PageExtract.Number.Basic

namespace PageExtract.Numeric

theorem zero_literal : (0.0 : Rat) = 0 := by norm_num

theorem one_literal : (1.0 : Rat) = 1 := by norm_num

theorem lesser_eq_min (x y : Rat) : lesser x y = min x y := by
  unfold lesser
  rcases lt_or_ge y x with h | h
  · rw [min_eq_right h.le, if_pos (by simp [h])]
  · rw [min_eq_left h, if_neg (by simpa using h)]

theorem greater_eq_max (x y : Rat) : greater x y = max x y := by
  unfold greater
  rcases lt_or_ge x y with h | h
  · rw [max_eq_right h.le, if_pos (by simp [h])]
  · rw [max_eq_left h, if_neg (by simpa using h)]

theorem abs_eq_abs (x : Rat) : abs x = |x| := by
  unfold abs
  rw [zero_literal]
  split
  · exact (abs_of_neg ‹_›).symm
  · exact (abs_of_nonneg (not_lt.1 ‹_›)).symm

theorem zero_le_abs (x : Rat) : 0 ≤ abs x := (abs_eq_abs x).symm ▸ abs_nonneg x

/-- A number is at most the least of a list exactly if it is at most each of them. -/
theorem le_least_iff {b x : Rat} {xs : List Rat} : b ≤ least x xs ↔ ∀ y ∈ x :: xs, b ≤ y := by
  unfold least
  induction xs generalizing x with
  | nil => simp
  | cons y xs ih => simp [ih, lesser_eq_min, and_assoc]

/-- A number is at least the greatest of a list exactly if it is at least each of them. -/
theorem greatest_le_iff {b x : Rat} {xs : List Rat} :
    greatest x xs ≤ b ↔ ∀ y ∈ x :: xs, y ≤ b := by
  unfold greatest
  induction xs generalizing x with
  | nil => simp
  | cons y xs ih => simp [ih, greater_eq_max, and_assoc]

/-- A choice between two numbers, made over and over again, ends with one of the numbers. -/
theorem foldl_mem {choose : Rat → Rat → Rat} (hchoose : ∀ x y, choose x y = x ∨ choose x y = y)
    (x : Rat) (xs : List Rat) : xs.foldl choose x ∈ x :: xs := by
  induction xs generalizing x with
  | nil => exact List.mem_cons_self
  | cons y xs ih =>
    rw [List.foldl_cons]
    obtain hchosen | hmem := List.mem_cons.1 (ih (choose x y))
    · rw [hchosen]
      obtain h | h := hchoose x y <;> simp [h]
    · exact List.mem_cons_of_mem x (List.mem_cons_of_mem y hmem)

/-- The least of a list is one of it. -/
theorem least_mem (x : Rat) (xs : List Rat) : least x xs ∈ x :: xs :=
  foldl_mem (fun x y => lesser_eq_min x y ▸ min_choice x y) x xs

/-- The greatest of a list is one of it. -/
theorem greatest_mem (x : Rat) (xs : List Rat) : greatest x xs ∈ x :: xs :=
  foldl_mem (fun x y => greater_eq_max x y ▸ max_choice x y) x xs

theorem least_le (x : Rat) (xs : List Rat) : least x xs ≤ x :=
  le_least_iff.1 le_rfl x List.mem_cons_self

theorem le_greatest (x : Rat) (xs : List Rat) : x ≤ greatest x xs :=
  greatest_le_iff.1 le_rfl x List.mem_cons_self

theorem clampUnit_eq (x : Rat) : clampUnit x = min 1 (max 0 x) := by
  rw [clampUnit, lesser_eq_min, greater_eq_max, zero_literal, one_literal]

theorem clampUnit_nonneg (x : Rat) : 0 ≤ clampUnit x := by
  rw [clampUnit_eq]
  exact le_min zero_le_one (le_max_left 0 x)

theorem clampUnit_le_one (x : Rat) : clampUnit x ≤ 1 := by
  rw [clampUnit_eq]
  exact min_le_left 1 _

theorem clampUnit_mono {x y : Rat} (h : x ≤ y) : clampUnit x ≤ clampUnit y := by
  rw [clampUnit_eq, clampUnit_eq]
  exact min_le_min_left 1 (max_le_max_left 0 h)

/-- Different numbers meet only at an end of [0, 1]. -/
theorem clampUnit_border {x y : Rat} (h : x < y) (heq : clampUnit x = clampUnit y) :
    clampUnit x = 0 ∨ clampUnit x = 1 := by
  rw [clampUnit_eq] at heq ⊢
  rw [clampUnit_eq] at heq
  by_cases hneg : x ≤ 0
  · left
    rw [max_eq_left hneg, min_eq_right zero_le_one]
  · right
    have hx : 0 < x := lt_of_not_ge hneg
    rw [max_eq_right hx.le, max_eq_right (hx.trans h).le] at heq
    rw [max_eq_right hx.le]
    by_contra hone
    have hlt : x < 1 := lt_of_not_ge fun h1 => hone (min_eq_left h1)
    rw [min_eq_right hlt.le] at heq
    have hmin : x < min 1 y := lt_min hlt h
    exact absurd heq hmin.ne

/-! ### Natural numbers -/

theorem ofNat_eq (n : Nat) : (ofNat n : Rat) = n := rfl

theorem isInteger_ofNat (n : Nat) : isInteger (ofNat n : Rat) = true := by
  simp [isInteger, exact, ofNat_eq]

theorem text_ofNat (n : Nat) : text (ofNat n : Rat) = toString n := by
  have hden : ((n : Rat).den == 1) = true := by simp
  have hnum : (n : Rat).num = n := Rat.num_natCast n
  have htext : text (ofNat n : Rat) = ratText (n : Rat) := rfl
  rw [htext, ratText, if_pos hden, hnum]
  rfl

end PageExtract.Numeric
