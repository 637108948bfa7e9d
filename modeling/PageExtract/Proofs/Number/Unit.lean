/-
Differences in the unit interval.

Coordinates are doubles from zero to one. Such a double has a value, and the order of doubles is
that of their values. The difference of two of them is rounded, and rounding does not lead out of
the interval, since it does not lead past whole multiples of the unit that it aims at:

* `Worth` — the value of a double that is not negative;
* `Worth.exact`, `Worth.pack`, `Worth.le` — values are exact, are kept by packing and give the
  order;
* `exists_worth` — what is between zero and one has a value;
* `exists_shift`, `Rounds.worth` — what is at most one is rounded to something that is at most one;
* `Worth.sub`, `exact_sub` — differences.
-/
import PageExtract.Proofs.Number.Decimal
import PageExtract.Proofs.Number.Finite
import PageExtract.Proofs.Number.Order

namespace PageExtract.Double

open Float.Model Float.Model.UnpackedFloat

/-! ### Values -/

/-- The value of a double that is not negative. -/
inductive Worth : UnpackedFloat → ℚ → Prop
  | zero (s : Sign) : Worth (.zero s) 0
  | finite {m : Nat} {e : Int} (h : Canonical m e) :
      Worth (.finite .positive m e h.pos) (m * 2 ^ e)

namespace Worth

variable {u v : UnpackedFloat} {q r : ℚ}

theorem nonneg (h : Worth u q) : 0 ≤ q := by
  cases h with
  | zero s => exact le_rfl
  | finite h => exact mul_nonneg (Nat.cast_nonneg _) (zpow_nonneg (by norm_num) _)

theorem pack (h : Worth u q) : Worth (Float.Model.pack u).unpack q := by
  cases h with
  | zero s => cases s <;> exact .zero _
  | finite h =>
    rw [unpack_pack h .positive]
    exact .finite h

theorem exact {x : Float} (h : Worth x.toModel.unpack q) : Numeric.exact x = some q := by
  have hfinite : Numeric.isFinite x = true := by
    refine isFinite_iff.2 fun hbound => ?_
    generalize x.toModel.unpack = u at h hbound
    cases hbound <;> cases h
  obtain ⟨r, hr⟩ := Option.isSome_iff_exists.1 hfinite
  obtain ⟨p, hp, rfl⟩ := Option.map_eq_some_iff.1 hr
  rw [hr, Option.some_inj, toRat_eq]
  rw [unpack_of_decode hp, unpacked] at h
  by_cases hm : 0 < p.mantissa
  · rw [dif_pos hm] at h
    generalize p.negative = negative at h
    cases negative with
    | true => cases h
    | false =>
      cases h
      rw [if_neg Bool.false_ne_true, one_mul]
  · rw [dif_neg hm] at h
    have hzero : p.mantissa = 0 := Nat.eq_zero_of_not_pos hm
    cases h
    rw [hzero, Nat.cast_zero, zero_mul, mul_zero]

end Worth

/-- A double with a smaller exponent is smaller, since only the least doubles may lack bits. -/
theorem Canonical.lt_of_lt {m n : Nat} {e k : Int} (hm : Canonical m e) (hn : Canonical n k)
    (h : e < k) : (m * 2 ^ e : ℚ) < n * 2 ^ k := by
  have hfull : 2 ^ 52 ≤ n := by
    have hleast := hm.least
    exact hn.full.resolve_right (by omega)
  have hlow : (m : ℚ) < 2 ^ 53 := by exact_mod_cast hm.lt
  have hhigh : (2 ^ 52 : ℚ) ≤ n := by exact_mod_cast hfull
  have hpow : (0 : ℚ) < 2 ^ e := zpow_pos (by norm_num) e
  calc (m * 2 ^ e : ℚ) < 2 ^ 53 * 2 ^ e := mul_lt_mul_of_pos_right hlow hpow
    _ = 2 ^ 52 * 2 ^ (e + 1) := by
      rw [zpow_add₀ (by norm_num)]
      ring
    _ ≤ n * 2 ^ k := by
      have hstep : (2 : ℚ) ^ (e + 1) ≤ 2 ^ k := zpow_le_zpow_right₀ (by norm_num) (by omega)
      exact mul_le_mul hhigh hstep (zpow_nonneg (by norm_num) _) (Nat.cast_nonneg n)

/-- The order of doubles is that of their values. -/
theorem Worth.le {x y : Float} {q r : ℚ} (hx : Worth x.toModel.unpack q)
    (hy : Worth y.toModel.unpack r) (h : x ≤ y) : q ≤ r := by
  obtain ⟨a, b, ha, hb, hab⟩ := Double.le_iff.1 h
  generalize x.toModel.unpack = u at hx ha
  generalize y.toModel.unpack = v at hy hb
  cases hx with
  | zero s => exact hy.nonneg
  | finite hm =>
    cases hy with
    | zero t =>
      cases ha
      cases hb
      simp [Prod.Lex.le_iff] at hab
    | finite hn =>
      cases ha
      cases hb
      simp only [Prod.Lex.le_iff, ofLex_toLex, lt_self_iff_false, true_and, false_or] at hab
      obtain hlt | ⟨rfl, hle⟩ := hab
      · exact (hm.lt_of_lt hn hlt).le
      · have hmantissa : (_ : ℚ) ≤ _ := Nat.cast_le.2 (Int.ofNat_le.1 hle)
        exact mul_le_mul_of_nonneg_right hmantissa (zpow_nonneg (by norm_num) _)

theorem worth_one : Worth (1.0 : Float).toModel.unpack 1 := by
  have hone : Canonical (2 ^ 52) (-52) := ⟨by decide, by decide, .inl le_rfl, by decide, by decide⟩
  have hvalue : ((2 ^ 52 : Nat) * 2 ^ (-52 : Int) : ℚ) = 1 := by norm_num
  exact hvalue ▸ .finite hone

/-- A double between zero and one has a value between them. -/
theorem exists_worth {x : Float} (hx : 0.0 ≤ x) (hone : x ≤ 1.0) :
    ∃ q, Worth x.toModel.unpack q ∧ q ≤ 1 := by
  obtain ⟨q, hq⟩ : ∃ q, Worth x.toModel.unpack q := by
    have hunsigned := zero_le_iff.1 hx
    obtain ⟨a, b, ha, hb, hab⟩ := Double.le_iff.1 hone
    generalize hu : x.toModel.unpack = u at hunsigned ha
    cases hunsigned with
    | infinity =>
      cases ha
      cases hb
      simp [Prod.Lex.le_iff] at hab
    | zero s => exact ⟨0, .zero s⟩
    | finite m e hm => exact ⟨_, .finite (of_unpack_finite hu).1⟩
  exact ⟨q, hq, hq.le worth_one hone⟩

/-! ### Rounding -/

/-- The unit of a number up to one is a whole part of one. -/
theorem exists_level {q : ℚ} (hq : 0 < q) (hone : q ≤ 1) : ∃ j : Nat, 52 ≤ j ∧ level q = -j := by
  have hlog : Int.log 2 q < 1 := by
    refine (Int.lt_zpow_iff_log_lt (b := 2) (by decide) hq).1 (hone.trans_lt ?_)
    norm_num
  have hhigh : level q ≤ -52 := by
    unfold level
    omega
  exact ⟨(-level q).toNat, by omega, by omega⟩

/-- A number has fewer than 54 bits before the unit of its level, and at least 53 if it is not below
all normal doubles. -/
theorem level_bounds {q : ℚ} (hq : 0 < q) :
    q < 2 ^ 53 * 2 ^ level q ∧ (2 ^ 52 * 2 ^ level q ≤ q ∨ level q = -1074) := by
  have hscale : ∀ j : Nat, (2 : ℚ) ^ j * 2 ^ level q = 2 ^ (j + level q : Int) := fun j => by
    rw [zpow_add₀ (by norm_num), zpow_natCast]
  rw [hscale, hscale]
  constructor
  · have hlt := (Int.lt_zpow_iff_log_lt (b := 2) (x := ((53 : Nat) : Int) + level q) (by decide)
        hq).2 (by unfold level; omega)
    exact_mod_cast hlt
  · by_cases hleast : level q = -1074
    · exact .inr hleast
    · have hle := (Int.zpow_le_iff_le_log (b := 2) (x := ((52 : Nat) : Int) + level q) (by decide)
        hq).2 (by unfold level at hleast ⊢; omega)
      left
      exact_mod_cast hle

/-- A rounded mantissa has at most 53 bits, but for one that is carried over. -/
theorem Stands.rounded_bounds {em : ExtendedMantissa} {q : ℚ} (hq : 0 < q)
    (h : Stands em (q / 2 ^ level q)) :
    em.roundedMantissa ≤ 2 ^ 53 ∧ (2 ^ 52 ≤ em.roundedMantissa ∨ level q = -1074) := by
  obtain ⟨hlt, hfull⟩ := level_bounds hq
  have hpow : (0 : ℚ) < 2 ^ level q := zpow_pos (by norm_num) _
  constructor
  · refine h.rounded_le ?_
    rw [div_le_iff₀ hpow]
    exact_mod_cast hlt.le
  · refine hfull.imp_left fun hle => h.le_rounded ?_
    rw [le_div_iff₀ hpow]
    exact_mod_cast hle

/-- With the carry shifted out, a rounded mantissa is that of a double, or zero. -/
theorem exists_shift {n : Nat} {k : Int} (hbits : n ≤ 2 ^ 53) (hfull : 2 ^ 52 ≤ n ∨ k = -1074)
    (hleast : -1074 ≤ k) (hmost : k ≤ 970) :
    ∃ m e, shiftToTargetExponent Format.binary64 n k .exact = (⟨m, false, false⟩, e) ∧
      (m = 0 ∨ Canonical m e) ∧ (m * 2 ^ e : ℚ) = n * 2 ^ k := by
  by_cases hcarry : n = 2 ^ 53
  · subst hcarry
    refine ⟨2 ^ 52, k + 1, shift_carry hleast, .inr ?_, ?_⟩
    · exact ⟨by decide, by decide, .inl le_rfl, by omega, by omega⟩
    · rw [zpow_add₀ (by norm_num)]
      push_cast
      ring
  · by_cases hzero : n = 0
    · have htarget : Format.binary64.targetExponent (totalExponent 0 k) ≤ k := by
        have hempty : Nat.log2 0 = 0 := rfl
        rw [targetExponent_eq]
        omega
      subst hzero
      exact ⟨0, k, shift_exact htarget, .inl rfl, rfl⟩
    · have hcanonical : Canonical n k :=
        ⟨Nat.pos_of_ne_zero hzero, by omega, hfull, hleast, by omega⟩
      exact ⟨n, k, shift_exact hcanonical.target.le, .inr hcanonical, rfl⟩

/-- A number up to one is rounded to a double up to one. -/
theorem Rounds.worth {q : ℚ} {u : UnpackedFloat} (hq : 0 < q) (hone : q ≤ 1) (hu : Rounds q u) :
    ∃ r, Worth u r ∧ r ≤ 1 := by
  obtain ⟨m, e, a, hstands, he, rfl⟩ := hu
  obtain ⟨em, hem, hshift⟩ := shift_of_stands hq hstands he
  obtain ⟨j, hj, hlevel⟩ := exists_level hq hone
  obtain ⟨hbits, hfull⟩ := hem.rounded_bounds hq
  have hpow : (0 : ℚ) < 2 ^ level q := zpow_pos (by norm_num) _
  -- One is a whole multiple of the unit, so that rounding does not lead past it.
  have hunits : ((2 ^ j : Nat) * 2 ^ level q : ℚ) = 1 := by
    rw [hlevel, zpow_neg, zpow_natCast, Nat.cast_pow, Nat.cast_ofNat]
    exact mul_inv_cancel₀ (by positivity)
  have hmost : em.roundedMantissa ≤ 2 ^ j := by
    refine hem.rounded_le ?_
    rwa [div_le_iff₀ hpow, hunits]
  have hvalue : (em.roundedMantissa * 2 ^ level q : ℚ) ≤ 1 := by
    rw [← hunits]
    exact mul_le_mul_of_nonneg_right (by exact_mod_cast hmost) hpow.le
  obtain ⟨n, k, hsecond, hn, hsame⟩ := exists_shift hbits hfull (le_max_right _ _) (by omega)
  refine ⟨n * 2 ^ k, ?_, hsame ▸ hvalue⟩
  unfold roundWithAccuracy
  rw [hshift]
  dsimp only
  rw [hsecond]
  dsimp only
  by_cases hzero : n = 0
  · rw [dif_pos hzero, hzero, Nat.cast_zero, zero_mul]
    exact .zero _
  · rw [dif_neg hzero]
    exact .finite (hn.resolve_left hzero)

/-! ### Differences -/

/-- The difference of two mantissas is rounded, if it is not zero. -/
theorem worth_normalize {z e : Int} (hz : 0 ≤ z) (hone : (z * 2 ^ e : ℚ) ≤ 1) :
    ∃ t, Worth (UnpackedFloat.normalize Format.binary64 z e .positive) t ∧ t ≤ 1 := by
  unfold UnpackedFloat.normalize
  split
  · rename_i hneg
    exact absurd (compare_lt_iff_lt.1 hneg) hz.not_gt
  · exact ⟨0, .zero _, zero_le_one⟩
  · rename_i hpos
    obtain ⟨n, rfl⟩ := Int.eq_ofNat_of_zero_le hz
    have hn : 0 < n := Int.natCast_pos.1 (compare_gt_iff_gt.1 hpos)
    have hvalue : (0 : ℚ) < n * 2 ^ e := mul_pos (Nat.cast_pos.2 hn) (zpow_pos (by norm_num) _)
    exact (rounds_round hn e).worth hvalue (by exact_mod_cast hone)

/-- A mantissa is made longer by what its exponent is made smaller. -/
theorem shift_mul_zpow (m : Nat) {e least : Int} (h : least ≤ e) :
    ((m <<< (e - least).toNat : Nat) * 2 ^ least : ℚ) = m * 2 ^ e := by
  obtain ⟨i, rfl⟩ : ∃ i : Nat, e = least + i := ⟨(e - least).toNat, by omega⟩
  have hamount : (least + i - least).toNat = i := by omega
  rw [hamount, Nat.shiftLeft_eq, zpow_add₀ (by norm_num), zpow_natCast]
  push_cast
  ring

/-- The difference of two numbers up to one is at most one, if the smaller one is taken from the
greater one. -/
theorem Worth.sub {u v : UnpackedFloat} {q r : ℚ} (hu : Worth u q) (hv : Worth v r) (hle : r ≤ q)
    (hone : q ≤ 1) : ∃ t, Worth (u.sub Format.binary64 v) t ∧ t ≤ 1 := by
  cases hu with
  | zero s =>
    cases hv with
    | zero t => exact ⟨0, by cases s <;> cases t <;> exact .zero _, zero_le_one⟩
    | @finite n k hn =>
      have hpos : (0 : ℚ) < n * 2 ^ k := mul_pos (Nat.cast_pos.2 hn.pos) (zpow_pos (by norm_num) _)
      exact absurd hle hpos.not_ge
  | @finite m e hm =>
    cases hv with
    | zero t => exact ⟨_, .finite hm, hone⟩
    | @finite n k hn =>
      -- Both mantissas are brought to the smaller of the two exponents.
      show ∃ t, Worth (UnpackedFloat.normalize Format.binary64 ((m <<< (e - min e k).toNat : Nat) -
        (n <<< (k - min e k).toNat : Nat)) (min e k) .positive) t ∧ t ≤ 1
      rw [← shift_mul_zpow m (min_le_left e k)] at hle hone
      rw [← shift_mul_zpow n (min_le_right e k)] at hle
      generalize m <<< (e - min e k).toNat = m' at hle hone ⊢
      generalize n <<< (k - min e k).toNat = n' at hle ⊢
      have hpow : (0 : ℚ) < 2 ^ min e k := zpow_pos (by norm_num) _
      have hmantissas : n' ≤ m' := by exact_mod_cast le_of_mul_le_mul_right hle hpow
      refine worth_normalize (by omega) ?_
      have hn' : (0 : ℚ) ≤ n' * 2 ^ min e k := mul_nonneg (Nat.cast_nonneg n') hpow.le
      push_cast
      linarith

/-- The difference of two doubles between zero and one, taken the right way round, has a value
between zero and one. -/
theorem exact_sub {x y : Float} (hx : 0.0 ≤ x) (hxy : x ≤ y) (hy : y ≤ 1.0) :
    ∃ q, Numeric.exact (y - x) = some q ∧ 0 ≤ q ∧ q ≤ 1 := by
  obtain ⟨q, hq, hone⟩ := exists_worth (Double.le_trans hx hxy) hy
  obtain ⟨r, hr, -⟩ := exists_worth hx (Double.le_trans hxy hy)
  obtain ⟨t, ht, ht1⟩ := hq.sub hr (hr.le hq hxy) hone
  have hsub : Worth (y - x).toModel.unpack t := ht.pack
  exact ⟨t, hsub.exact, hsub.nonneg, ht1⟩

end PageExtract.Double
