/-
Rounding half to even, in exact arithmetic.

A number is scaled, rounded to a whole number and scaled back. A scaled number within 1e-9 of a half
goes to the even one of its two neighbours, whichever is nearer, and any other to the nearest. So a
whole number is what a scaled number is rounded to if it is clearly the nearest, or is even and about
the nearest. At most one is, since of two neighbours that are both about the nearest only one is
even, and this settles everything else:

* `IsNearestEven` — the whole number that a scaled number is rounded to;
* `IsNearestEven.le`, `IsNearestEven.unique` — greater numbers are rounded to greater ones, hence
  each to one only;
* `IsNearestEven.neg`, `IsNearestEven.even` — negative numbers, and halves;
* `exists_nearestEven`, `exists_units` — what rounding to a number of digits gives;
* `roundHalfEven_neg`, `roundHalfEven_mono`, `roundHalfEven_self` — rounding is odd, keeps the order
  and changes no rounded number.
-/
import Mathlib.Algebra.Order.Floor.Ring
import Mathlib.Data.Rat.Floor
import Mathlib.Tactic.Linarith
import PageExtract.Proofs.Number.Remainder

namespace PageExtract.Numeric

/-- How far from a half a scaled number may be to count as one. -/
def halfBand : ℚ := 10 ^ (-9 : ℤ)

/-- Whether a scaled number is rounded to a whole number. -/
def IsNearestEven (s : ℚ) (m : ℤ) : Prop :=
  |s - m| ≤ 1 / 2 - halfBand ∨ |s - m| < 1 / 2 + halfBand ∧ Even m

theorem halfBand_pos : 0 < halfBand := by norm_num [halfBand]

theorem halfBand_lt_half : halfBand < 1 / 2 := by norm_num [halfBand]

namespace IsNearestEven

variable {s t : ℚ} {m n : ℤ}

/-- A number is rounded by a half of a unit and no more than the width of the band beyond. -/
theorem abs_sub_lt (h : IsNearestEven s m) : |s - m| < 1 / 2 + halfBand := by
  obtain h | ⟨h, -⟩ := h
  · have := halfBand_pos
    linarith
  · exact h

/-- Whole numbers stay as they are. -/
theorem self (m : ℤ) : IsNearestEven m m := by
  left
  have := halfBand_lt_half
  rw [sub_self, abs_zero]
  linarith

/-- The rounding of a negative number is that of its size. -/
theorem neg (h : IsNearestEven s m) : IsNearestEven (-s) (-m) := by
  have hsize : |-s - ((-m : ℤ) : ℚ)| = |s - m| := by
    rw [Int.cast_neg, neg_sub_neg, abs_sub_comm]
  rw [IsNearestEven, hsize, even_neg]
  exact h

/-- A half is rounded to an even number. -/
theorem even {k : ℤ} (h : IsNearestEven (k + 1 / 2) m) : Even m := by
  obtain h | ⟨-, h⟩ := h
  · -- No whole number is nearer to a half than its two neighbours are.
    obtain ⟨hlow, hhigh⟩ := abs_le.1 h
    have := halfBand_pos
    have hlt : (k : ℚ) < m := by linarith
    have hgt : (m : ℚ) < k + 1 := by linarith
    norm_cast at hlt hgt
    omega
  · exact h

/-- Rounding keeps the order. -/
theorem le (hs : IsNearestEven s m) (ht : IsNearestEven t n) (h : s ≤ t) : m ≤ n := by
  by_contra hlt
  have hnext : (n : ℚ) + 1 ≤ m := by exact_mod_cast Int.add_one_le_iff.2 (not_le.1 hlt)
  have hband := halfBand_lt_half
  obtain ⟨hlow, -⟩ := abs_lt.1 hs.abs_sub_lt
  obtain ⟨-, hhigh⟩ := abs_lt.1 ht.abs_sub_lt
  obtain hs | ⟨-, hs⟩ := hs
  · obtain ⟨hlow, -⟩ := abs_le.1 hs
    linarith
  obtain ht | ⟨-, ht⟩ := ht
  · obtain ⟨-, hhigh⟩ := abs_le.1 ht
    linarith
  -- Both are even, but they are neighbours.
  have hclose : (m : ℚ) < n + 2 := by linarith
  norm_cast at hnext hclose
  obtain rfl : m = n + 1 := by omega
  exact (Int.even_add_one.1 hs) ht

/-- A number is rounded to one whole number. -/
theorem unique (hm : IsNearestEven s m) (hn : IsNearestEven s n) : m = n :=
  le_antisymm (hm.le hn le_rfl) (hn.le hm le_rfl)

end IsNearestEven

/-! ### Rounding to digits -/

theorem tenTo_intCast (d : ℤ) : tenTo (d : ℚ) = 10 ^ d := by
  show (10 : ℚ) ^ ⌊(d : ℚ)⌋ = _
  rw [Int.floor_intCast]

/-- A whole number leaves nothing after whole multiples of two exactly if it is even. -/
theorem rem_two_iff (n : ℤ) : (rem (n : ℚ) 2.0 == (0.0 : ℚ)) = true ↔ Even n := by
  have htwo : (2.0 : ℚ) = 2 := by norm_num
  rw [beq_iff_eq, htwo, zero_literal]
  constructor
  · intro h
    have hn : (n : ℚ) = 2 * ratTruncate (n / 2) := sub_eq_zero.1 h
    exact even_iff_two_dvd.2 ⟨_, by exact_mod_cast hn⟩
  · intro h
    obtain ⟨k, rfl⟩ := even_iff_two_dvd.1 h
    have hk : ratTruncate (k : ℚ) = k := by simp [ratTruncate]
    rw [Int.cast_mul, Int.cast_ofNat, rem_mul two_ne_zero, hk, sub_self, mul_zero]

/-- A number that is not about a half is rounded to the nearest whole number. -/
theorem isNearestEven_of_band {s : ℚ} (h : ¬ |s - ⌊s⌋ - 1 / 2| < halfBand) :
    IsNearestEven s ⌊s + 1 / 2⌋ := by
  have hband := halfBand_pos
  have hlow := Int.floor_le s
  have hhigh := Int.lt_floor_add_one s
  left
  obtain h | h := le_abs.1 (not_lt.1 h)
  · have hfloor : ⌊s + 1 / 2⌋ = ⌊s⌋ + 1 := by
      rw [Int.floor_eq_iff]
      push_cast
      constructor <;> linarith
    rw [hfloor, abs_le]
    push_cast
    constructor <;> linarith
  · have hfloor : ⌊s + 1 / 2⌋ = ⌊s⌋ := by
      rw [Int.floor_eq_iff]
      constructor <;> linarith
    rw [hfloor, abs_le]
    constructor <;> linarith

/-- Rounding to digits gives a whole number of units, to which the scaled number is rounded. -/
theorem exists_nearestEven (x : ℚ) (d : ℤ) :
    ∃ m : ℤ, roundHalfEven x d = m / 10 ^ d ∧ IsNearestEven (x * 10 ^ d) m := by
  have hhalf : (0.5 : ℚ) = 1 / 2 := by norm_num
  have hband : (1e-9 : ℚ) = halfBand := by norm_num [halfBand]
  have hfloor : ∀ s : ℚ, floor s = (⌊s⌋ : ℤ) := fun _ => rfl
  have hnearest : ∀ s : ℚ, roundHalfUp s = (⌊s + 1 / 2⌋ : ℤ) := fun _ => rfl
  unfold roundHalfEven
  simp only [tenTo_intCast, hfloor, hnearest, abs_eq_abs, hhalf, hband, rem_two_iff, one_literal]
  generalize x * 10 ^ d = s
  split
  · rename_i hclose
    obtain ⟨hlow, hhigh⟩ := abs_lt.1 hclose
    split
    · rename_i heven
      exact ⟨⌊s⌋, rfl, .inr ⟨abs_lt.2 ⟨by linarith, by linarith⟩, heven⟩⟩
    · rename_i hodd
      refine ⟨⌊s⌋ + 1, by push_cast; rfl, .inr ⟨abs_lt.2 ?_, Int.even_add_one.2 hodd⟩⟩
      push_cast
      constructor <;> linarith
  · rename_i hclear
    exact ⟨_, rfl, isNearestEven_of_band hclear⟩

/-- A rounded number is a whole number of units of the last digit, no more than half a unit and the
width of the band away, and an even one for a number exactly between two of them. -/
theorem exists_units (x : ℚ) (d : ℤ) :
    ∃ m : ℤ, roundHalfEven x d = m * 10 ^ (-d) ∧
      |roundHalfEven x d - x| ≤ (1 / 2 + halfBand) * 10 ^ (-d) ∧
      ∀ k : ℤ, x = (k + 1 / 2) * 10 ^ (-d) → Even m := by
  obtain ⟨m, hm, hnearest⟩ := exists_nearestEven x d
  have hunit : (0 : ℚ) < 10 ^ (-d) := zpow_pos (by norm_num) _
  have hpow : (10 : ℚ) ^ (-d) * 10 ^ d = 1 := by
    rw [← zpow_add₀ (by norm_num), neg_add_cancel, zpow_zero]
  have hunits : roundHalfEven x d = m * 10 ^ (-d) := by
    rw [hm, zpow_neg, div_eq_mul_inv]
  refine ⟨m, hunits, ?_, fun k hk => ?_⟩
  · have hdistance : roundHalfEven x d - x = (m - x * 10 ^ d) * 10 ^ (-d) := by
      rw [hunits, sub_mul, mul_assoc, mul_comm (10 ^ d), hpow, mul_one]
    rw [hdistance, abs_mul, abs_of_pos hunit, abs_sub_comm]
    exact mul_le_mul_of_nonneg_right hnearest.abs_sub_lt.le hunit.le
  · rw [hk, mul_assoc, hpow, mul_one] at hnearest
    exact hnearest.even

theorem roundHalfEven_neg (x : ℚ) (d : ℤ) : roundHalfEven (-x) d = -roundHalfEven x d := by
  obtain ⟨m, hm, hnearest⟩ := exists_nearestEven x d
  obtain ⟨n, hn, hnearest'⟩ := exists_nearestEven (-x) d
  rw [neg_mul] at hnearest'
  rw [hm, hn, hnearest'.unique hnearest.neg, Int.cast_neg, neg_div]

theorem roundHalfEven_mono {x y : ℚ} (h : x ≤ y) (d : ℤ) :
    roundHalfEven x d ≤ roundHalfEven y d := by
  have hpow : (0 : ℚ) < 10 ^ d := zpow_pos (by norm_num) d
  obtain ⟨m, hm, hnearest⟩ := exists_nearestEven x d
  obtain ⟨n, hn, hnearest'⟩ := exists_nearestEven y d
  have hle : (m : ℚ) ≤ n :=
    Int.cast_le.2 (hnearest.le hnearest' (mul_le_mul_of_nonneg_right h hpow.le))
  rw [hm, hn]
  exact div_le_div_of_nonneg_right hle hpow.le

/-- A rounded number stays as it is. -/
theorem roundHalfEven_self (x : ℚ) (d : ℤ) :
    roundHalfEven (roundHalfEven x d) d = roundHalfEven x d := by
  have hpow : (10 : ℚ) ^ d ≠ 0 := zpow_ne_zero d (by norm_num)
  obtain ⟨m, hm, -⟩ := exists_nearestEven x d
  obtain ⟨n, hn, hnearest⟩ := exists_nearestEven (roundHalfEven x d) d
  rw [hm, div_mul_cancel₀ _ hpow] at hnearest
  rw [hn, hm, hnearest.unique (.self m)]

end PageExtract.Numeric
