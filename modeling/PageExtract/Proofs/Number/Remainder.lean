/-
Remainders without rounding.

The remainder of the rule language is put together from two truncated remainders. On rational
numbers the first one leaves more than minus the divisor and less than the divisor, so that adding
the divisor once makes the quotient positive, and truncating a positive quotient takes its floor:

* `sub_ratTruncate_gt` — what truncating takes away from a quotient is more than minus one;
* `flooredMod_eq` — the remainder is what is left after the floor of the quotient;
* `flooredMod_of_pos`, `flooredMod_of_neg` — it lies between zero and the divisor;
* `flooredMod_eq_iff` — it is the same for numbers that differ by whole multiples of the divisor,
  and for no others.
-/
import Mathlib.Algebra.Order.Floor.Ring
import Mathlib.Data.Rat.Floor
import Mathlib.Tactic.Linarith
import PageExtract.Proofs.Number.Exact

namespace PageExtract.Numeric

/-! ### Truncation -/

theorem ratTruncate_neg (q : ℚ) : ratTruncate (-q) = -ratTruncate q := by
  rw [ratTruncate, ratTruncate, Rat.neg_num, Rat.neg_den, Int.neg_tdiv]

theorem ratTruncate_of_nonneg {q : ℚ} (hq : 0 ≤ q) : ratTruncate q = ⌊q⌋ := by
  rw [ratTruncate, Int.tdiv_eq_ediv_of_nonneg (Rat.num_nonneg.2 hq)]
  exact (Rat.floor_def q).symm

/-- Truncating changes a number by less than one. -/
theorem sub_ratTruncate_gt (q : ℚ) : -1 < q - ratTruncate q := by
  obtain hq | hq := le_total 0 q
  · rw [ratTruncate_of_nonneg hq]
    have := Int.floor_le q
    linarith
  · have htruncate : ratTruncate q = -⌊-q⌋ := by
      rw [← ratTruncate_of_nonneg (neg_nonneg.2 hq), ratTruncate_neg, neg_neg]
    have := Int.lt_floor_add_one (-q)
    rw [htruncate]
    push_cast
    linarith

/-! ### The remainder -/

/-- The remainder is the divisor times what truncating takes away from the quotient. -/
theorem rem_mul {y : ℚ} (hy : y ≠ 0) (q : ℚ) : rem (y * q) y = y * (q - ratTruncate q) := by
  show y * q - y * ratTruncate (y * q / y) = _
  rw [mul_div_cancel_left₀ q hy, mul_sub]

theorem flooredMod_mul {y : ℚ} (hy : y ≠ 0) (q : ℚ) : flooredMod (y * q) y = y * Int.fract q := by
  -- With the divisor added, the first remainder has a positive quotient of the same fraction.
  have hfirst : rem (y * q) y + y = y * (q - ratTruncate q + 1) := by
    rw [rem_mul hy, mul_add, mul_one]
  have hpos : 0 ≤ q - ratTruncate q + 1 := by
    have := sub_ratTruncate_gt q
    linarith
  rw [flooredMod, hfirst, rem_mul hy, ratTruncate_of_nonneg hpos, Int.self_sub_floor,
    Int.fract_add_one, Int.fract_sub_intCast]

theorem flooredMod_eq_mul_fract (x : ℚ) {y : ℚ} (hy : y ≠ 0) :
    flooredMod x y = y * Int.fract (x / y) := by
  rw [← flooredMod_mul hy, mul_div_cancel₀ x hy]

/-- The remainder is what is left after taking away the divisor as often as the floor of the quotient
says. -/
theorem flooredMod_eq (x : ℚ) {y : ℚ} (hy : y ≠ 0) : flooredMod x y = x - y * ⌊x / y⌋ := by
  rw [flooredMod_eq_mul_fract x hy, Int.fract, mul_sub, mul_div_cancel₀ x hy]

theorem flooredMod_of_pos (x : ℚ) {y : ℚ} (hy : 0 < y) :
    0 ≤ flooredMod x y ∧ flooredMod x y < y := by
  rw [flooredMod_eq_mul_fract x hy.ne']
  exact ⟨mul_nonneg hy.le (Int.fract_nonneg _), mul_lt_of_lt_one_right hy (Int.fract_lt_one _)⟩

theorem flooredMod_of_neg (x : ℚ) {y : ℚ} (hy : y < 0) :
    y < flooredMod x y ∧ flooredMod x y ≤ 0 := by
  rw [flooredMod_eq_mul_fract x hy.ne]
  refine ⟨?_, mul_nonpos_of_nonpos_of_nonneg hy.le (Int.fract_nonneg _)⟩
  have := mul_lt_mul_of_neg_left (Int.fract_lt_one (x / y)) hy
  rwa [mul_one] at this

/-- Two numbers have one remainder exactly if they differ by a whole multiple of the divisor. -/
theorem flooredMod_eq_iff {x x' y : ℚ} (hy : y ≠ 0) :
    flooredMod x' y = flooredMod x y ↔ ∃ k : ℤ, x' = x + k * y := by
  rw [flooredMod_eq_mul_fract x' hy, flooredMod_eq_mul_fract x hy, mul_right_inj' hy,
    Int.fract_eq_fract]
  refine exists_congr fun k => ?_
  rw [← sub_div, div_eq_iff hy, sub_eq_iff_eq_add']

end PageExtract.Numeric
