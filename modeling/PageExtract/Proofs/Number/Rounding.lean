/-
Rounding numbers to doubles.

A finite double is a mantissa times a power of two, and the operations on doubles round an exact
result to such a pair. What is rounded is handed over as a mantissa, an exponent, and two bits for
the rest. Rounding depends on the number alone and not on the mantissa and the exponent that stand
for it, and a number that is close to a double is rounded to that double:

* `Stands` — the number that a mantissa with its residual bits stands for;
* `level`, `shift_of_stands` — the exponent that rounding aims at;
* `Rounds`, `Rounds.unique` — what a number is rounded to;
* `Canonical.eq_of_rounds` — a number close to a double is rounded to it;
* `rounds_round`, `rounds_mul`, `rounds_div` — exact results, products and quotients are rounded.
-/
import Mathlib.Algebra.Order.Field.Basic
import Mathlib.Data.Int.Log
import Mathlib.Data.Rat.Cast.Order
import Mathlib.Data.Rat.Floor
import Mathlib.Tactic.Linarith
import Mathlib.Tactic.NormNum
import Mathlib.Tactic.Ring
import PageExtract.Number.Numeral
import PageExtract.Proofs.Number.Packing

namespace PageExtract.Double

open Float.Model Float.Model.UnpackedFloat

/-! ### Residual bits -/

/-- A mantissa with its residual bits stands for a number from the mantissa up to the next one: the
bits say on which side of the half between them the number is. -/
def Stands (em : ExtendedMantissa) (x : ℚ) : Prop :=
  match em with
  | ⟨m, false, false⟩ => x = m
  | ⟨m, false, true⟩ => m < x ∧ x < m + 1 / 2
  | ⟨m, true, false⟩ => x = m + 1 / 2
  | ⟨m, true, true⟩ => m + 1 / 2 < x ∧ x < m + 1

theorem stands_exact (m : Nat) : Stands (.ofMantissaAndAccuracy m .exact) m := rfl

/-- What is left of a division says where the quotient lies. -/
theorem stands_fraction (n : Nat) {d : Nat} (hd : 0 < d) :
    Stands (.ofMantissaAndAccuracy (n / d) (accuracyOfFraction (n % d) d)) (n / d : ℚ) := by
  have hd' : (0 : ℚ) < d := by exact_mod_cast hd
  have hsplit : (n / d : ℚ) = (n / d : Nat) + (n % d : Nat) / d := by
    have hn : (n : ℚ) = d * (n / d : Nat) + (n % d : Nat) := by
      exact_mod_cast (Nat.div_add_mod n d).symm
    rw [hn, add_div, mul_div_cancel_left₀ _ hd'.ne']
  have hmod : (n % d : Nat) < (d : ℚ) := by exact_mod_cast Nat.mod_lt n hd
  rw [hsplit]
  unfold accuracyOfFraction
  split
  · rename_i hzero
    rw [hzero]
    simp [Stands, ExtendedMantissa.ofMantissaAndAccuracy]
  · rename_i hpos
    have hpos' : (0 : ℚ) < (n % d : Nat) := by exact_mod_cast Nat.pos_of_ne_zero hpos
    have hlow : (0 : ℚ) < (n % d : Nat) / d := div_pos hpos' hd'
    have hhigh : ((n % d : Nat) / d : ℚ) < 1 := (div_lt_one hd').2 hmod
    cases hcompare : compare (2 * (n % d)) d with
    | lt =>
      have h : (2 * (n % d : Nat) : ℚ) < d := by exact_mod_cast compare_lt_iff_lt.1 hcompare
      have hhalf : ((n % d : Nat) / d : ℚ) < 1 / 2 := by
        rw [div_lt_iff₀ hd']
        linarith
      exact ⟨by linarith, by linarith⟩
    | eq =>
      have h : (2 * (n % d : Nat) : ℚ) = d := by exact_mod_cast compare_eq_iff_eq.1 hcompare
      have hhalf : ((n % d : Nat) / d : ℚ) = 1 / 2 := by
        rw [div_eq_iff hd'.ne']
        linarith
      show (_ : ℚ) = _
      rw [hhalf]
    | gt =>
      have h : (d : ℚ) < 2 * (n % d : Nat) := by exact_mod_cast compare_gt_iff_gt.1 hcompare
      have hhalf : (1 / 2 : ℚ) < (n % d : Nat) / d := by
        rw [lt_div_iff₀ hd']
        linarith
      exact ⟨by linarith, by linarith⟩

/-- A shift by one bit halves what the bits stand for. -/
theorem Stands.shiftRightOne {em : ExtendedMantissa} {x : ℚ} (h : Stands em x) :
    Stands em.shiftRightOne (x / 2) := by
  obtain ⟨m, r, s⟩ := em
  -- The last bit of the mantissa becomes the bit after it.
  have hdiv : (m : ℚ) = 2 * (m / 2 : Nat) + (m % 2 : Nat) := by
    exact_mod_cast (Nat.div_add_mod m 2).symm
  unfold ExtendedMantissa.shiftRightOne
  obtain hlast | hlast := Nat.mod_two_eq_zero_or_one m
  all_goals
    rw [hlast] at hdiv
    cases r <;> cases s <;> simp only [Stands, hlast] at h ⊢ <;>
      simp <;> push_cast at hdiv <;> grind

theorem Stands.shift {em : ExtendedMantissa} {x : ℚ} (h : Stands em x) (n : Nat) :
    Stands (em >>> n) (x / 2 ^ n) := by
  induction n with
  | zero => simpa [HShiftRight.hShiftRight, Nat.repeat] using h
  | succ n ih =>
    rw [pow_succ, ← div_div]
    exact ih.shiftRightOne

/-- The mantissa is what is left without the fraction. -/
theorem Stands.bounds {em : ExtendedMantissa} {x : ℚ} (h : Stands em x) :
    em.mantissa ≤ x ∧ x < em.mantissa + 1 := by
  obtain ⟨m, r, s⟩ := em
  cases r <;> cases s <;> simp only [Stands] at h ⊢ <;> constructor <;> linarith

/-- A number determines the bits that stand for it. -/
theorem Stands.unique {em em' : ExtendedMantissa} {x : ℚ} (h : Stands em x) (h' : Stands em' x) :
    em = em' := by
  have hmantissa : em.mantissa = em'.mantissa := by
    have hle : (em.mantissa : ℚ) < em'.mantissa + 1 := h.bounds.1.trans_lt h'.bounds.2
    have hge : (em'.mantissa : ℚ) < em.mantissa + 1 := h'.bounds.1.trans_lt h.bounds.2
    have hle' : em.mantissa < em'.mantissa + 1 := by exact_mod_cast hle
    have hge' : em'.mantissa < em.mantissa + 1 := by exact_mod_cast hge
    omega
  obtain ⟨m, r, s⟩ := em
  obtain ⟨m', r', s'⟩ := em'
  simp only at hmantissa
  subst hmantissa
  cases r <;> cases s <;> cases r' <;> cases s' <;> simp only [Stands] at h h' <;>
    first | rfl | (exfalso; linarith)

/-- A number that is less than a half away from a whole number is rounded to it. -/
theorem Stands.rounded {em : ExtendedMantissa} {x : ℚ} (h : Stands em x) {n : Nat}
    (hn : |x - n| < 1 / 2) : em.roundedMantissa = n := by
  obtain ⟨hlow, hhigh⟩ := abs_lt.1 hn
  have hbounds := h.bounds
  -- The mantissa is `n`, or it is the number before and the half bit is set.
  have hcases : em.mantissa = n ∨ em.mantissa + 1 = n := by
    have hle : (em.mantissa : ℚ) < n + 1 := by linarith
    have hge : (n : ℚ) < em.mantissa + 2 := by linarith
    have hle' : em.mantissa < n + 1 := by exact_mod_cast hle
    have hge' : n < em.mantissa + 2 := by exact_mod_cast hge
    omega
  obtain ⟨m, r, s⟩ := em
  simp only at hcases
  obtain rfl | rfl := hcases <;> cases r <;> cases s <;> simp only [Stands] at h <;>
    push_cast at * <;>
    first
    | rfl
    | (exfalso; linarith)

/-- Rounding does not lead past a whole number from below. -/
theorem Stands.rounded_le {em : ExtendedMantissa} {x : ℚ} (h : Stands em x) {n : Nat}
    (hn : x ≤ n) : em.roundedMantissa ≤ n := by
  have hm : em.mantissa ≤ n := by exact_mod_cast h.bounds.1.trans hn
  obtain ⟨m, r, s⟩ := em
  by_cases hlt : m < n
  · cases r <;> cases s <;>
      simp [ExtendedMantissa.roundedMantissa, ExtendedMantissa.accuracy,
        Accuracy.roundToNearestEven] <;>
      omega
  · -- The number is the mantissa, so that no bit is set.
    obtain rfl : m = n := Nat.le_antisymm hm (Nat.not_lt.1 hlt)
    cases r <;> cases s <;> simp only [Stands] at h <;>
      first
      | rfl
      | (exfalso; linarith)

/-- Nor does it lead past one from above. -/
theorem Stands.le_rounded {em : ExtendedMantissa} {x : ℚ} (h : Stands em x) {n : Nat}
    (hn : n ≤ x) : n ≤ em.roundedMantissa := by
  have hm : n < em.mantissa + 1 := by exact_mod_cast hn.trans_lt h.bounds.2
  obtain ⟨m, r, s⟩ := em
  simp only at hm
  cases r <;> cases s <;>
    simp [ExtendedMantissa.roundedMantissa, ExtendedMantissa.accuracy,
      Accuracy.roundToNearestEven] <;>
    omega

/-! ### Levels -/

/-- The exponent of the doubles next to a positive number. -/
def level (q : ℚ) : Int := max (Int.log 2 q - 52) (-1074)

theorem targetExponent_eq (m : Nat) (e : Int) :
    Format.binary64.targetExponent (totalExponent m e) = max (m.log2 + e - 52) (-1074) := by
  unfold Format.targetExponent totalExponent Format.minExponent Format.mantissaBits
  norm_num
  omega

/-- The binary logarithm of a number between two neighbouring powers of two. -/
theorem log_eq {q : ℚ} {k : Int} (hlow : 2 ^ k ≤ q) (hhigh : q < 2 ^ (k + 1)) :
    Int.log 2 q = k := by
  have hq : 0 < q := (zpow_pos (by norm_num) k).trans_le hlow
  have hle := (Int.zpow_le_iff_le_log (b := 2) (by decide) hq).1 (by exact_mod_cast hlow)
  have hlt := (Int.lt_zpow_iff_log_lt (b := 2) (by decide) hq).1 (by exact_mod_cast hhigh)
  omega

/-- The binary logarithm of a number is that of its mantissa, if it is not zero. -/
theorem log_of_bounds {q : ℚ} {m : Nat} (hm : 0 < m) {e : Int} (hlow : m * 2 ^ e ≤ q)
    (hhigh : q < (m + 1) * 2 ^ e) : Int.log 2 q = m.log2 + e := by
  have hpow : (0 : ℚ) < 2 ^ e := zpow_pos (by norm_num) e
  refine log_eq ?_ ?_
  · rw [zpow_add₀ (by norm_num), zpow_natCast]
    refine le_trans (mul_le_mul_of_nonneg_right ?_ hpow.le) hlow
    exact_mod_cast Nat.log2_self_le hm.ne'
  · rw [add_right_comm, zpow_add₀ (by norm_num)]
    refine hhigh.trans_le (mul_le_mul_of_nonneg_right ?_ hpow.le)
    have hnext : m + 1 ≤ 2 ^ (m.log2 + 1) := Nat.lt_log2_self
    exact_mod_cast hnext

/-- The level of a mantissa times a power of two. -/
theorem level_mul_zpow {m : Nat} (hm : 0 < m) (e : Int) :
    level (m * 2 ^ e) = max (m.log2 + e - 52) (-1074) := by
  have hpow : (0 : ℚ) < 2 ^ e := zpow_pos (by norm_num) e
  rw [level, log_of_bounds hm le_rfl (mul_lt_mul_of_pos_right (by linarith) hpow)]

section

variable {m : Nat} {e : Int} {a : Accuracy} {q : ℚ} (hq : 0 < q)
  (h : Stands (.ofMantissaAndAccuracy m a) (q / 2 ^ e)) (he : e ≤ level q)

include hq h he

/-- The exponent that rounding aims at is the level of the number. -/
theorem targetExponent_of_stands :
    Format.binary64.targetExponent (totalExponent m e) = level q := by
  have hpow : (0 : ℚ) < 2 ^ e := zpow_pos (by norm_num) e
  have hm : (ExtendedMantissa.ofMantissaAndAccuracy m a).mantissa = m := by
    cases a with
    | exact => rfl
    | inexact o => cases o <;> rfl
  obtain ⟨hlow, hhigh⟩ := h.bounds
  rw [hm, le_div_iff₀ hpow] at hlow
  rw [hm, div_lt_iff₀ hpow] at hhigh
  rw [targetExponent_eq]
  by_cases hzero : m = 0
  · -- Nothing is left of the number, so it is closer to zero than any normal double.
    subst hzero
    have hlog : Int.log 2 q < e :=
      (Int.lt_zpow_iff_log_lt (by decide) hq).1 (by simpa using hhigh)
    have hempty : Nat.log2 0 = 0 := rfl
    unfold level at he ⊢
    omega
  · rw [level, log_of_bounds (Nat.pos_of_ne_zero hzero) hlow hhigh]

/-- Rounding first shifts a mantissa to the level of the number. -/
theorem shift_of_stands : ∃ em, Stands em (q / 2 ^ level q) ∧
    shiftToTargetExponent Format.binary64 m e a = (em, level q) := by
  obtain ⟨n, hn⟩ : ∃ n : Nat, level q = e + n := ⟨(level q - e).toNat, by omega⟩
  have hamount : (e + n - e).toNat = n := by omega
  have hscaled : q / 2 ^ e / 2 ^ n = q / 2 ^ (e + n : Int) := by
    rw [div_div, zpow_add₀ (by norm_num), zpow_natCast]
  refine ⟨ExtendedMantissa.ofMantissaAndAccuracy m a >>> n, ?_, ?_⟩
  · rw [hn, ← hscaled]
    exact h.shift n
  · unfold shiftToTargetExponent shiftToExponent
    rw [targetExponent_of_stands hq h he, hn]
    simp only [hamount]

end

/-! ### Rounding -/

/-- What a positive number is rounded to, from some mantissa and exponent that stand for it. -/
def Rounds (q : ℚ) (u : UnpackedFloat) : Prop :=
  ∃ m e a, Stands (.ofMantissaAndAccuracy m a) (q / 2 ^ e) ∧ e ≤ level q ∧
    u = roundWithAccuracy Format.binary64 .positive m e a

/-- Rounding depends on the number alone. -/
theorem Rounds.unique {q : ℚ} (hq : 0 < q) {u v : UnpackedFloat} (hu : Rounds q u)
    (hv : Rounds q v) : u = v := by
  obtain ⟨m, e, a, h, he, rfl⟩ := hu
  obtain ⟨m', e', a', h', he', rfl⟩ := hv
  obtain ⟨em, hem, hshift⟩ := shift_of_stands hq h he
  obtain ⟨em', hem', hshift'⟩ := shift_of_stands hq h' he'
  obtain rfl := hem.unique hem'
  unfold roundWithAccuracy
  rw [hshift, hshift']

/-- A mantissa of at most 53 bits is not shifted any more. -/
theorem shift_exact {m : Nat} {e : Int}
    (he : Format.binary64.targetExponent (totalExponent m e) ≤ e) :
    shiftToTargetExponent Format.binary64 m e .exact = (⟨m, false, false⟩, e) := by
  have hamount : (Format.binary64.targetExponent (totalExponent m e) - e).toNat = 0 := by omega
  simp [shiftToTargetExponent, hamount, shiftToExponent, HShiftRight.hShiftRight, Nat.repeat,
    ExtendedMantissa.ofMantissaAndAccuracy]

/-- A mantissa that has become too long by rounding is shifted once more. -/
theorem shift_carry {k : Int} (hk : -1074 ≤ k) :
    shiftToTargetExponent Format.binary64 (2 ^ 53) k .exact =
      (⟨2 ^ 52, false, false⟩, k + 1) := by
  have htarget : Format.binary64.targetExponent (totalExponent (2 ^ 53) k) = k + 1 := by
    rw [targetExponent_eq, Nat.log2_two_pow]
    omega
  unfold shiftToTargetExponent shiftToExponent
  rw [htarget]
  simp [HShiftRight.hShiftRight, Nat.repeat, ExtendedMantissa.ofMantissaAndAccuracy,
    ExtendedMantissa.shiftRightOne]

theorem Canonical.target {m : Nat} {e : Int} (h : Canonical m e) :
    Format.binary64.targetExponent (totalExponent m e) = e := by
  rw [targetExponent_eq]
  have hlt := (Nat.log2_lt h.pos.ne').2 h.lt
  have hleast := h.least
  obtain hfull | he := h.full
  · have := (Nat.le_log2 h.pos.ne').2 hfull
    omega
  · omega

theorem abs_div_sub {c : ℚ} (hc : 0 < c) (q n : ℚ) : |q / c - n| = |q - n * c| / c := by
  rw [div_sub' hc.ne', abs_div, abs_of_pos hc, mul_comm c n]

section

variable {q : ℚ} {n : Nat} {k : Int} (h : Canonical n k)

include h

/-- A number that is less than half a unit away from a double has the level of the double, or else
the double is a power of two and the number is below it. -/
theorem Canonical.level_of_near (hnear : |q - n * 2 ^ k| < 2 ^ k / 2) :
    level q = k ∨ n = 2 ^ 52 ∧ level q = k - 1 := by
  have hpow : (0 : ℚ) < 2 ^ k := zpow_pos (by norm_num) k
  have hscale : ∀ j : Nat, (2 : ℚ) ^ (j + k : Int) = 2 ^ j * 2 ^ k := fun j => by
    rw [zpow_add₀ (by norm_num), zpow_natCast]
  obtain ⟨hlow, hhigh⟩ := abs_lt.1 hnear
  have hone : (1 : ℚ) ≤ n := by exact_mod_cast h.pos
  have hlast : (n : ℚ) + 1 ≤ 2 ^ 53 := by exact_mod_cast h.lt
  have hq : 0 < q := by nlinarith
  have hbelow : q < 2 ^ (53 + k : Int) := by
    rw [show (53 + k : Int) = (53 : Nat) + k from rfl, hscale]
    nlinarith
  have hleast := h.least
  by_cases hk : k = -1074
  · have hlog := (Int.lt_zpow_iff_log_lt (b := 2) (by decide) hq).1 (by exact_mod_cast hbelow)
    left
    unfold level
    omega
  · have hfull := h.full.resolve_right hk
    by_cases hcase : 2 ^ (52 + k : Int) ≤ q
    · have hlog := log_eq hcase (by rwa [add_right_comm])
      left
      unfold level
      omega
    · right
      rw [not_le, show (52 + k : Int) = (52 : Nat) + k from rfl, hscale] at hcase
      have hn : n = 2 ^ 52 := by
        have : (n : ℚ) < 2 ^ 52 + 1 := by nlinarith
        have : n < 2 ^ 52 + 1 := by exact_mod_cast this
        omega
      subst hn
      have hlog : Int.log 2 q = 51 + k := by
        refine log_eq ?_ ?_
        · rw [show (51 + k : Int) = (51 : Nat) + k from rfl, hscale]
          push_cast at hlow
          nlinarith
        · rwa [add_right_comm, show (51 + 1 + k : Int) = (52 : Nat) + k from rfl, hscale]
      refine ⟨rfl, ?_⟩
      unfold level
      omega

/-- A number that is close to a double is rounded to it. Half a unit in the seventeenth digit is
close enough. -/
theorem Canonical.eq_of_rounds {u : UnpackedFloat} (hu : Rounds q u)
    (hnear : 2 * 10 ^ 16 * |q - n * 2 ^ k| ≤ n * 2 ^ k) :
    u = .finite .positive n k h.pos := by
  have hpow : (0 : ℚ) < 2 ^ k := zpow_pos (by norm_num) k
  have hone : (1 : ℚ) ≤ n := by exact_mod_cast h.pos
  have hlt : (n : ℚ) < 2 ^ 53 := by exact_mod_cast h.lt
  have hq : 0 < q := by
    have := neg_le_abs (q - n * 2 ^ k)
    nlinarith
  have hunit : |q - n * 2 ^ k| < 2 ^ k / 2 := by nlinarith
  obtain ⟨m, e, a, hstands, he, rfl⟩ := hu
  obtain ⟨em, hem, hshift⟩ := shift_of_stands hq hstands he
  obtain hlevel | ⟨rfl, hlevel⟩ := h.level_of_near hunit
  · have hrounded : em.roundedMantissa = n := by
      refine hem.rounded ?_
      rw [hlevel, abs_div_sub hpow, div_lt_iff₀ hpow]
      linarith
    unfold roundWithAccuracy
    rw [hshift, hlevel]
    dsimp only
    rw [hrounded, shift_exact h.target.le]
    exact dif_neg h.pos.ne'
  · -- The number is nearer to the power of two than to the double before it.
    have hrounded : em.roundedMantissa = 2 ^ 53 := by
      have hhalf : (2 : ℚ) ^ (k - 1) = 2 ^ k / 2 := by
        rw [zpow_sub₀ (by norm_num), zpow_one]
      have hsame : (((2 ^ 53 : Nat) : ℚ)) * (2 ^ k / 2) = ((2 ^ 52 : Nat) : ℚ) * 2 ^ k := by
        push_cast
        ring
      refine hem.rounded ?_
      rw [hlevel, hhalf, abs_div_sub (by linarith), hsame, div_lt_iff₀ (by linarith)]
      push_cast at hnear ⊢
      nlinarith
    have hleast : -1074 ≤ k - 1 := hlevel ▸ le_max_right _ _
    unfold roundWithAccuracy
    rw [hshift, hlevel]
    dsimp only
    rw [hrounded, shift_carry hleast, Int.sub_add_cancel]
    rfl

end

/-! ### Operations -/

theorem rounds_exact {m : Nat} {e : Int} (he : e ≤ level (m * 2 ^ e)) :
    Rounds (m * 2 ^ e) (roundWithAccuracy Format.binary64 .positive m e .exact) := by
  refine ⟨m, e, .exact, ?_, he, rfl⟩
  rw [mul_div_cancel_right₀ _ (zpow_ne_zero e (by norm_num))]
  exact stands_exact m

/-- A mantissa that is too short is made longer first. -/
theorem rounds_round {m : Nat} (hm : 0 < m) (e : Int) :
    Rounds (m * 2 ^ e) (UnpackedFloat.round Format.binary64 .positive m e) := by
  have htarget : Format.binary64.targetExponent (totalExponent m e) = level (m * 2 ^ e) := by
    rw [targetExponent_eq, level_mul_zpow hm]
  obtain ⟨j, hj⟩ : ∃ j, j = (e - level (m * 2 ^ e)).toNat := ⟨_, rfl⟩
  have hvalue : (m * 2 ^ e : ℚ) = (m <<< j : Nat) * 2 ^ (e - j) := by
    rw [Nat.shiftLeft_eq, zpow_sub₀ (by norm_num), zpow_natCast]
    push_cast
    field_simp
  have hround : UnpackedFloat.round Format.binary64 .positive m e =
      roundWithAccuracy Format.binary64 .positive (m <<< j) (e - j) .exact := by
    unfold UnpackedFloat.round decreaseExponent
    simp only [htarget, ← hj]
  have he : e - j ≤ level ((m <<< j : Nat) * 2 ^ (e - j)) := by
    rw [← hvalue]
    omega
  rw [hround, hvalue]
  exact rounds_exact he

/-- A double is not changed by rounding. -/
theorem Canonical.round {m : Nat} {e : Int} (h : Canonical m e) :
    roundWithAccuracy Format.binary64 .positive m e .exact = .finite .positive m e h.pos := by
  refine h.eq_of_rounds (rounds_exact ?_) ?_
  · rw [level_mul_zpow h.pos, ← targetExponent_eq, h.target]
  · rw [sub_self, abs_zero, mul_zero]
    exact mul_nonneg (Nat.cast_nonneg m) (zpow_nonneg (by norm_num) e)

section

variable {m n : Nat} (hm : 0 < m) (hn : 0 < n) (e k : Int)

/-- A product is rounded, if its first factor has all its bits. -/
theorem rounds_mul (hfull : 2 ^ 52 ≤ m) :
    Rounds (m * 2 ^ e * (n * 2 ^ k))
      (UnpackedFloat.mul Format.binary64 (.finite .positive m e hm)
        (.finite .positive n k hn)) := by
  have hproduct : (m * 2 ^ e * (n * 2 ^ k) : ℚ) = (m * n : Nat) * 2 ^ (e + k) := by
    rw [zpow_add₀ (by norm_num)]
    push_cast
    ring
  have hpos : 0 < m * n := Nat.mul_pos hm hn
  have hlog : 52 ≤ (m * n).log2 :=
    (Nat.le_log2 hpos.ne').2 (hfull.trans (Nat.le_mul_of_pos_right m hn))
  rw [hproduct]
  refine rounds_exact ?_
  rw [level_mul_zpow hpos]
  omega

/-- The binary logarithm of a quotient is not below the difference of the logarithms by more than
one. -/
theorem log_div_ge {p q : ℚ} (hp : 0 < p) (hq : 0 < q) :
    Int.log 2 p - Int.log 2 q - 1 ≤ Int.log 2 (p / q) := by
  have hlow : (2 : ℚ) ^ Int.log 2 p ≤ p := Int.zpow_log_le_self (by decide) hp
  have hhigh : q < (2 : ℚ) ^ (Int.log 2 q + 1) := Int.lt_zpow_succ_log_self (by decide) q
  refine (Int.zpow_le_iff_le_log (b := 2) (by decide) (div_pos hp hq)).1 ?_
  rw [le_div_iff₀ hq, Nat.cast_ofNat, sub_sub, zpow_sub₀ (by norm_num), div_mul_eq_mul_div,
    div_le_iff₀ (zpow_pos (by norm_num) _)]
  nlinarith

/-- A quotient is rounded. -/
theorem rounds_div :
    Rounds (m * 2 ^ e / (n * 2 ^ k))
      (UnpackedFloat.div Format.binary64 (.finite .positive m e hm)
        (.finite .positive n k hn)) := by
  have hlog : ∀ {i : Nat}, 0 < i → ∀ j : Int, Int.log 2 (i * 2 ^ j : ℚ) = i.log2 + j :=
    fun hi j => log_of_bounds hi le_rfl
      (mul_lt_mul_of_pos_right (lt_add_one _) (zpow_pos (by norm_num) j))
  have hpositive : ∀ {i : Nat}, 0 < i → ∀ j : Int, (0 : ℚ) < i * 2 ^ j :=
    fun hi j => mul_pos (by exact_mod_cast hi) (zpow_pos (by norm_num) j)
  have hquotient := log_div_ge (hpositive hm e) (hpositive hn k)
  rw [hlog hm, hlog hn] at hquotient
  have htotal : Format.binary64.targetExponent (totalExponent m e - totalExponent n k) =
      max (m.log2 + e - (n.log2 + k) - 53) (-1074) := by
    unfold Format.targetExponent totalExponent Format.minExponent Format.mantissaBits
    norm_num
    omega
  -- The mantissa is shifted so far that the quotient has all its bits.
  obtain ⟨t, ht⟩ : ∃ t, t = min (e - k)
      (Format.binary64.targetExponent (totalExponent m e - totalExponent n k)) := ⟨_, rfl⟩
  obtain ⟨j, hj⟩ : ∃ j : Nat, e - k = t + j := ⟨(e - k - t).toNat, by omega⟩
  have hamount : (e - k - t).toNat = j := by omega
  have hscaled : (m * 2 ^ e / (n * 2 ^ k) / 2 ^ t : ℚ) = (m <<< j : Nat) / n := by
    have he : (2 : ℚ) ^ e = 2 ^ k * (2 ^ t * 2 ^ j) := by
      rw [← zpow_natCast, ← zpow_add₀ (by norm_num), ← zpow_add₀ (by norm_num)]
      congr 1
      omega
    have hne : ∀ i : Int, (2 : ℚ) ^ i ≠ 0 := fun i => zpow_ne_zero i (by norm_num)
    have hn' : (n : ℚ) ≠ 0 := by exact_mod_cast hn.ne'
    rw [Nat.shiftLeft_eq, he]
    push_cast
    field_simp [hne k, hne t]
  refine ⟨(m <<< j) / n, t, accuracyOfFraction ((m <<< j) % n) n, ?_, ?_, ?_⟩
  · rw [hscaled]
    exact stands_fraction _ hn
  · unfold level
    omega
  · unfold UnpackedFloat.div divCore
    simp only [← ht, hamount]
    rfl

end

end PageExtract.Double
