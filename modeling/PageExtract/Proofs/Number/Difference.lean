/-
The sign of a difference.

The difference of two doubles is rounded, but not to zero unless they are equal: both are whole
multiples of the least double above zero, and so is what lies between them. What is too large
becomes infinite and keeps its sign. Only the difference of an infinity and itself has no sign:

* `Beyond` — the doubles on one side of zero;
* `Rounds.ne_zero`, `beyond_pack` — rounding and packing do not lead to zero;
* `compare_finite` — two doubles compare as the difference of their mantissas compares with zero;
* `Signed`, `signed_sub` — the difference of two doubles that compare;
* `order?`, `lt_iff_order`, `le_iff_order`, `beq_iff_order` — how two doubles compare;
* `order?_sub` — how their difference compares with zero.
-/
import PageExtract.Proofs.Number.Unit

namespace PageExtract.Double

open Float.Model Float.Model.UnpackedFloat

/-! ### One side of zero -/

/-- The doubles with a sign that are not zero, infinity included. -/
inductive Beyond (s : Sign) : UnpackedFloat → Prop
  | infinity : Beyond s (.infinity s)
  | finite (m : Nat) (e : Int) (h : 0 < m) : Beyond s (.finite s m e h)

/-- A word whose exponent and fraction are not both zero stands for no zero. -/
theorem beyond_of_fields {x : Float.Model} {s : Sign} (hsign : signField x = s)
    (hones : exponentField x ≠ -1#11) (hzero : exponentField x = 0#11 → fractionField x ≠ 0#52) :
    Beyond s x.unpack := by
  have hunpacks := unpacks x
  generalize x.unpack = u at hunpacks
  cases hunpacks with
  | notANumber h => exact absurd h hones
  | infinity h => exact absurd h hones
  | zero hk hf => exact absurd hf (hzero hk)
  | subnormal _ h => exact hsign ▸ .finite _ _ h
  | normal _ _ h => exact hsign ▸ .finite _ _ h

/-- Packing does not lead to zero, and what is too large becomes infinite. -/
theorem beyond_pack (s : Sign) {m : Nat} {e : Int} (hm : 0 < m) (hbits : m < 2 ^ 53)
    (hleast : -1074 ≤ e) : Beyond s (Float.Model.pack (.finite s m e hm)).unpack := by
  have hpacks : Packs s m e _ := packs s hm
  generalize Float.Model.pack (.finite s m e hm) = x at hpacks ⊢
  cases hpacks with
  | infinite => cases s <;> exact .infinity
  | normal hsign hk hsmall =>
    refine beyond_of_fields hsign (fun hones => ?_) fun hzero => ?_
    · have hnat : (-1#11 : BitVec 11).toNat = 2047 := rfl
      rw [hones, hnat] at hk
      omega
    · have hnat : (0#11 : BitVec 11).toNat = 0 := rfl
      rw [hzero, hnat] at hk
      omega
  | subnormal hsign hk hf hshort =>
    have hlog : m.log2 < 53 := (Nat.log2_lt hm.ne').2 hbits
    have hlow : m < 2 ^ 52 := (Nat.log2_lt hm.ne').1 (by omega)
    refine beyond_of_fields hsign (by rw [hk]; decide) fun _ hzero => ?_
    have hnat := congrArg BitVec.toNat (hf.symm.trans hzero)
    rw [BitVec.toNat_ofNat, Nat.mod_eq_of_lt hlow] at hnat
    exact hm.ne' hnat

/-! ### Rounding -/

/-- What is at least the least double above zero is not rounded to zero. -/
theorem Rounds.ne_zero {q : ℚ} {u : UnpackedFloat} (hq : 2 ^ (-1074 : Int) ≤ q)
    (hu : Rounds q u) :
    ∃ n k, ∃ h : 0 < n, u = .finite .positive n k h ∧ n < 2 ^ 53 ∧ -1074 ≤ k := by
  have hpos : 0 < q := (zpow_pos (by norm_num) _).trans_le hq
  obtain ⟨m, e, a, hstands, he, rfl⟩ := hu
  obtain ⟨em, hem, hshift⟩ := shift_of_stands hpos hstands he
  obtain ⟨hbits, hfull⟩ := hem.rounded_bounds hpos
  have hleast : -1074 ≤ level q := le_max_right _ _
  have hn : 0 < em.roundedMantissa := by
    obtain hfull | hlevel := hfull
    · omega
    · refine hem.le_rounded (n := 1) ?_
      rw [hlevel, le_div_iff₀ (zpow_pos (by norm_num) _), Nat.cast_one, one_mul]
      exact hq
  unfold roundWithAccuracy
  rw [hshift]
  dsimp only
  by_cases hcarry : em.roundedMantissa = 2 ^ 53
  · rw [hcarry, shift_carry hleast]
    exact ⟨2 ^ 52, level q + 1, by decide, rfl, by decide, by omega⟩
  · have hlog : em.roundedMantissa.log2 < 53 := (Nat.log2_lt hn.ne').2 (by omega)
    have htarget : Format.binary64.targetExponent (totalExponent em.roundedMantissa (level q)) ≤
        level q := by
      rw [targetExponent_eq]
      omega
    rw [shift_exact htarget]
    exact ⟨em.roundedMantissa, level q, hn, dif_neg hn.ne', by omega, hleast⟩

/-- The sign takes no part in rounding. -/
theorem round_negative (m : Nat) (e : Int) :
    UnpackedFloat.round Format.binary64 .negative m e =
      (UnpackedFloat.round Format.binary64 .positive m e).neg := by
  have hmantissa : ∀ (n : Nat) (k : Int),
      (if h : n = 0 then .zero .negative else .finite .negative n k (Nat.pos_of_ne_zero h)) =
        UnpackedFloat.neg
          (if h : n = 0 then .zero .positive else .finite .positive n k (Nat.pos_of_ne_zero h)) := by
    intro n k
    by_cases h : n = 0
    · rw [dif_pos h, dif_pos h]
      rfl
    · rw [dif_neg h, dif_neg h]
      rfl
  exact hmantissa _ _

/-- A mantissa that is not zero keeps its sign. -/
theorem beyond_round (s : Sign) {m : Nat} {e : Int} (hm : 0 < m) (he : -1074 ≤ e) :
    Beyond s (Float.Model.pack (UnpackedFloat.round Format.binary64 s m e)).unpack := by
  have hq : (2 : ℚ) ^ (-1074 : Int) ≤ m * 2 ^ e := by
    have hone : (1 : ℚ) ≤ m := by exact_mod_cast hm
    have hpow : (2 : ℚ) ^ (-1074 : Int) ≤ 2 ^ e := zpow_le_zpow_right₀ (by norm_num) he
    exact hpow.trans (le_mul_of_one_le_left (zpow_nonneg (by norm_num) e) hone)
  obtain ⟨n, k, hn, hround, hbits, hk⟩ := (rounds_round hm e).ne_zero hq
  cases s with
  | positive =>
    rw [hround]
    exact beyond_pack .positive hn hbits hk
  | negative =>
    rw [round_negative, hround]
    exact beyond_pack .negative hn hbits hk

/-! ### Differences -/

section

variable {m n : Nat} {e k : Int} (hm : Canonical m e) (hn : Canonical n k)

include hm hn

/-- Two doubles above zero compare as their mantissas do, once these belong to one exponent. -/
theorem compare_aligned : (compare e k).then (compare m n) =
    compare (m <<< (e - min e k).toNat) (n <<< (k - min e k).toNat) := by
  have hpow : (0 : ℚ) < 2 ^ min e k := zpow_pos (by norm_num) _
  have hlt : ∀ {i j : Nat}, (i * 2 ^ min e k : ℚ) < j * 2 ^ min e k → i < j := fun h => by
    exact_mod_cast lt_of_mul_lt_mul_right h hpow.le
  obtain h | rfl | h := lt_trichotomy e k
  · have hvalues := hm.lt_of_lt hn h
    rw [← shift_mul_zpow m (min_le_left e k), ← shift_mul_zpow n (min_le_right e k)] at hvalues
    rw [compare_lt_iff_lt.2 h, compare_lt_iff_lt.2 (hlt hvalues)]
    rfl
  · have hamount : (e - min e e).toNat = 0 := by omega
    rw [hamount, compare_eq_iff_eq.2 rfl]
    rfl
  · have hvalues := hn.lt_of_lt hm h
    rw [← shift_mul_zpow m (min_le_left e k), ← shift_mul_zpow n (min_le_right e k)] at hvalues
    rw [compare_gt_iff_gt.2 h, compare_gt_iff_gt.2 (hlt hvalues)]
    rfl

/-- Two doubles compare as the difference of their mantissas compares with zero. -/
theorem compare_finite (s t : Sign) :
    (UnpackedFloat.finite s m e hm.pos).compare (.finite t n k hn.pos) =
      some (compare (s.apply (m <<< (e - min e k).toNat : Nat) -
        t.apply (n <<< (k - min e k).toNat : Nat)) 0) := by
  have hm' : 0 < m <<< (e - min e k).toNat := by
    rw [Nat.shiftLeft_eq]
    exact Nat.mul_pos hm.pos (Nat.two_pow_pos _)
  have haligned := compare_aligned hm hn
  generalize m <<< (e - min e k).toNat = m' at hm' haligned ⊢
  generalize n <<< (k - min e k).toNat = n' at haligned ⊢
  have hsub : ∀ i j : Int, compare (i - j) 0 = compare i j := by
    intro i j
    obtain h | rfl | h := lt_trichotomy i j
    · rw [compare_lt_iff_lt.2 h, compare_lt_iff_lt.2 (by omega)]
    · rw [Int.sub_self, compare_eq_iff_eq.2 rfl, compare_eq_iff_eq.2 rfl]
    · rw [compare_gt_iff_gt.2 h, compare_gt_iff_gt.2 (by omega)]
  cases s with
  | positive =>
    cases t with
    | positive =>
      show some ((compare e k).then (compare m n)) = some (compare ((m' : Int) - n') 0)
      rw [haligned, hsub, compare_natCast]
    | negative =>
      show some Ordering.gt = some (compare ((m' : Int) - -n') 0)
      rw [compare_gt_iff_gt.2 (by omega)]
  | negative =>
    cases t with
    | positive =>
      show some Ordering.lt = some (compare (-(m' : Int) - n') 0)
      rw [compare_lt_iff_lt.2 (by omega)]
    | negative =>
      show some ((compare e k).then (compare m n)).swap = some (compare (-(m' : Int) - -n') 0)
      rw [haligned, hsub, compare_neg, compare_natCast, Nat.compare_swap]

end

/-- How a difference compares with zero if the operands compare as `o`, `u` being the first of
them. -/
inductive Signed (u : UnpackedFloat) : Ordering → UnpackedFloat → Prop
  | lt {w : UnpackedFloat} (h : Beyond .negative w) : Signed u .lt w
  | eq (s : Sign) (hu : ¬ Boundless u) : Signed u .eq (.zero s)
  | notANumber (hu : Boundless u) : Signed u .eq .notANumber
  | gt {w : UnpackedFloat} (h : Beyond .positive w) : Signed u .gt w

theorem beyond_infinity (s : Sign) : Beyond s (Float.Model.pack (.infinity s)).unpack := by
  cases s <;> exact .infinity

/-- A difference of mantissas keeps its sign when it is rounded. -/
theorem signed_normalize {u : UnpackedFloat} (hu : ¬ Boundless u) (z : Int) {e : Int}
    (he : -1074 ≤ e) : Signed u (compare z 0)
      (Float.Model.pack (UnpackedFloat.normalize Format.binary64 z e .positive)).unpack := by
  unfold UnpackedFloat.normalize
  split
  · rename_i hz
    have hneg := compare_lt_iff_lt.1 hz
    rw [hz]
    exact .lt (beyond_round .negative (by omega) he)
  · rename_i hz
    rw [hz]
    exact .eq .positive hu
  · rename_i hz
    have hpos := compare_gt_iff_gt.1 hz
    rw [hz]
    exact .gt (beyond_round .positive (by omega) he)

-- Only two finite doubles that are not zero have a difference that is rounded. Else an infinite
-- operand or the one that is not zero settles it.
/-- Doubles that compare have a difference with that sign. -/
theorem signed_sub {x y : Float} {o : Ordering}
    (h : x.toModel.unpack.compare y.toModel.unpack = some o) :
    Signed x.toModel.unpack o (x - y).toModel.unpack := by
  show Signed x.toModel.unpack o
    (Float.Model.pack (x.toModel.unpack.sub Format.binary64 y.toModel.unpack)).unpack
  have hcanonical : ∀ {z : Float} {s m e} {hm : 0 < m},
      z.toModel.unpack = .finite s m e hm → Canonical m e := fun hz => (of_unpack_finite hz).1
  have hx := @hcanonical x
  have hy := @hcanonical y
  generalize x.toModel.unpack = u at h hx ⊢
  generalize y.toModel.unpack = v at h hy ⊢
  cases u with
  | notANumber => cases h
  | infinity s =>
    cases s with
    | positive =>
      cases v with
      | notANumber => cases h
      | infinity t =>
        cases t with
        | positive => cases h; exact .notANumber (.infinity _)
        | negative => cases h; exact .gt (beyond_infinity .positive)
      | zero t => cases h; exact .gt (beyond_infinity .positive)
      | finite t n k hn => cases h; exact .gt (beyond_infinity .positive)
    | negative =>
      cases v with
      | notANumber => cases h
      | infinity t =>
        cases t with
        | positive => cases h; exact .lt (beyond_infinity .negative)
        | negative => cases h; exact .notANumber (.infinity _)
      | zero t => cases h; exact .lt (beyond_infinity .negative)
      | finite t n k hn => cases h; exact .lt (beyond_infinity .negative)
  | zero s =>
    cases v with
    | notANumber => cases h
    | infinity t =>
      cases t with
      | positive => cases h; exact .lt (beyond_infinity .negative)
      | negative => cases h; exact .gt (beyond_infinity .positive)
    | zero t => cases h; cases s <;> cases t <;> exact .eq _ nofun
    | finite t n k hn =>
      have hsecond := hy rfl
      cases t with
      | positive => cases h; exact .lt (beyond_pack .negative hn hsecond.lt hsecond.least)
      | negative => cases h; exact .gt (beyond_pack .positive hn hsecond.lt hsecond.least)
  | finite s m e hm =>
    have hfirst := hx rfl
    cases v with
    | notANumber => cases s <;> cases h
    | infinity t =>
      cases t with
      | positive => cases s <;> cases h <;> exact .lt (beyond_infinity .negative)
      | negative => cases s <;> cases h <;> exact .gt (beyond_infinity .positive)
    | zero t =>
      cases s with
      | positive => cases h; exact .gt (beyond_pack .positive hm hfirst.lt hfirst.least)
      | negative => cases h; exact .lt (beyond_pack .negative hm hfirst.lt hfirst.least)
    | finite t n k hn =>
      have hsecond := hy rfl
      rw [compare_finite hfirst hsecond] at h
      cases h
      have hbound : ¬ Boundless (.finite s m e hm) := nofun
      exact signed_normalize hbound _ (le_min hfirst.least hsecond.least)

/-! ### Comparison -/

/-- How two doubles compare, if both are numbers. -/
def order? (x y : Float) : Option Ordering := x.toModel.unpack.compare y.toModel.unpack

section

variable {x y : Float}

theorem order?_of_rank {a b : ℤ ×ₗ ℤ ×ₗ ℤ} (ha : rank? x.toModel.unpack = some a)
    (hb : rank? y.toModel.unpack = some b) : order? x y = some (compare a b) := by
  rw [order?, compare_eq, ha, hb]
  rfl

theorem order?_swap (x y : Float) : order? y x = (order? x y).map Ordering.swap := by
  rw [order?, order?, compare_eq, compare_eq]
  cases rank? x.toModel.unpack with
  | none => cases rank? y.toModel.unpack <;> rfl
  | some a =>
    cases rank? y.toModel.unpack with
    | none => rfl
    | some b => exact congrArg some (Std.OrientedCmp.eq_swap)

theorem lt_iff_order : x < y ↔ order? x y = some .lt := by
  rw [← beq_iff_eq]
  exact decide_eq_true_iff

theorem beq_iff_order : (x == y) = true ↔ order? x y = some .eq := by
  show (x.toModel.unpack.compare y.toModel.unpack == some .eq) = true ↔ _
  exact beq_iff_eq

theorem le_iff_order : x ≤ y ↔ order? x y = some .lt ∨ order? x y = some .eq := by
  have hle : x ≤ y ↔ (order? x y).any (·.isLE) = true := decide_eq_true_iff
  rw [hle]
  rcases order? x y with _ | (_ | _ | _) <;> simp

/-- What equals itself has a rank. -/
theorem exists_rank (hx : (x == x) = true) : ∃ a, rank? x.toModel.unpack = some a := by
  obtain ⟨a, -, ha, -⟩ := Double.le_iff.1 (le_iff_order.2 (.inr (beq_iff_order.1 hx)))
  exact ⟨a, ha⟩

/-- Of two equal doubles both are finite or neither is. -/
theorem isFinite_congr (h : order? x y = some .eq) : Numeric.isFinite x = Numeric.isFinite y := by
  rw [Bool.eq_iff_iff, isFinite_iff, isFinite_iff]
  obtain h | ⟨s, t, hx, hy⟩ := eq_or_zero_of_compare h
  · rw [h]
  · rw [hx, hy]
    exact iff_of_true nofun nofun

/-- The difference of two doubles compares with zero as they do, but for the difference of an
infinity and itself. -/
theorem order?_sub {o : Ordering} (h : order? x y = some o) :
    order? (x - y) 0.0 = if o = .eq ∧ Numeric.isFinite x = false then none else some o := by
  have hsigned := signed_sub h
  have hfinite : Numeric.isFinite x = false ↔ Boundless x.toModel.unpack := by
    rw [← not_iff_not, Bool.not_eq_false, isFinite_iff]
  have hzero : order? (x - y) 0.0 = (x - y).toModel.unpack.compare (.zero .positive) := rfl
  rw [hzero]
  generalize x.toModel.unpack = u at hsigned hfinite
  generalize (x - y).toModel.unpack = d at hsigned
  cases hsigned with
  | lt h => cases h <;> rfl
  | eq s hu => rw [if_neg fun h => hu (hfinite.1 h.2)]; rfl
  | notANumber hu => rw [if_pos ⟨rfl, hfinite.2 hu⟩]; rfl
  | gt h => cases h <;> rfl

end

end PageExtract.Double
