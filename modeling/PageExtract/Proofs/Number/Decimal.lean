/-
Reading decimals as doubles.

A decimal is read as the double that its value is rounded to, whether its digits are few enough to
be multiplied or divided as doubles or not. So decimals of one value are read alike, and a decimal
that is close to a double is read as that double:

* `rounds_ofScientific` — long decimals are rounded;
* `rounds_mul_power`, `rounds_div_power` — short ones are rounded;
* `Reads`, `reads_toFloat` — how a decimal is read;
* `toFloat_congr` — the value alone decides;
* `toFloat_near` — a decimal that is close to a double is read as that double.
-/
import PageExtract.Proofs.Number.Rounding

namespace PageExtract

open Float.Model Float.Model.UnpackedFloat

namespace Double

/-! ### Long decimals -/

theorem rounds_ofScientific {m : Nat} (hm : 0 < m) {e : Int} (hlow : -(2 ^ 11 + m.log2 : Int) ≤ e)
    (hhigh : e ≤ 2 ^ 11) :
    Rounds (m * 10 ^ e) (UnpackedFloat.ofScientific Format.binary64 m e) := by
  have hlarge : ¬ e > 2 ^ Format.binary64.exponentBits := by
    simp only
    omega
  have hsmall : ¬ e < -((2 ^ Format.binary64.exponentBits : Int) + m.log2) := by
    simp only
    omega
  unfold UnpackedFloat.ofScientific
  rw [dif_neg hm.ne', if_neg hlarge, if_neg hsmall]
  by_cases h : 0 ≤ e
  · rw [if_pos h]
    obtain ⟨n, rfl⟩ := Int.eq_ofNat_of_zero_le h
    have hshift : 0 < m <<< 53 := by
      rw [Nat.shiftLeft_eq]
      exact Nat.mul_pos hm (Nat.two_pow_pos 53)
    have hfull : 2 ^ 52 ≤ m <<< 53 := by
      rw [Nat.shiftLeft_eq]
      omega
    have hvalue : (m * 10 ^ (n : Int) : ℚ) =
        (m <<< 53 : Nat) * 2 ^ (-53 : Int) * ((10 ^ n : Nat) * 2 ^ (0 : Int)) := by
      rw [Nat.shiftLeft_eq, zpow_neg, zpow_natCast]
      push_cast
      norm_num
      ring
    rw [hvalue]
    exact rounds_mul hshift (Nat.pow_pos (by decide)) _ _ hfull
  · rw [if_neg h]
    have hvalue : (m * 10 ^ e : ℚ) =
        m * 2 ^ (0 : Int) / ((10 ^ (-e).toNat : Nat) * 2 ^ (0 : Int)) := by
      obtain ⟨n, hn⟩ := Int.eq_ofNat_of_zero_le (a := -e) (by omega)
      obtain rfl : e = -(n : Int) := by omega
      rw [Int.neg_neg, Int.toNat_natCast, zpow_neg, zpow_natCast]
      push_cast
      simp [div_eq_mul_inv]
    rw [hvalue]
    exact rounds_div hm (Nat.pow_pos (by decide)) _ _

/-! ### Short decimals -/

theorem fraction_pos (p : Binary.Parts) : 0 < p.fraction.2 := by
  unfold Binary.Parts.fraction
  split
  · exact Nat.one_pos
  · exact Nat.two_pow_pos _

/-- The fraction of the parts is a mantissa times a power of two. -/
theorem value_fraction (p : Binary.Parts) :
    (p.fraction.1 / p.fraction.2 : ℚ) = p.mantissa * 2 ^ p.exponent := by
  have hpow : ∀ k, Nat.pow 2 k = 2 ^ k := fun _ => rfl
  unfold Binary.Parts.fraction
  simp only [hpow]
  split
  · rename_i h
    obtain ⟨k, hk⟩ := Int.eq_ofNat_of_zero_le h
    rw [hk, Int.toNat_natCast, Nat.cast_one, div_one, zpow_natCast]
    push_cast
    rfl
  · rename_i h
    obtain ⟨k, hk⟩ := Int.eq_ofNat_of_zero_le (a := -p.exponent) (by omega)
    have hexponent : p.exponent = -(k : Int) := by omega
    rw [hexponent, Int.neg_neg, Int.toNat_natCast, zpow_neg, zpow_natCast, div_eq_mul_inv]
    push_cast
    rfl

/-- The value of the parts is that number with its sign. -/
theorem toRat_eq (p : Binary.Parts) :
    p.toRat = (if p.negative then -1 else 1) * (p.mantissa * 2 ^ p.exponent) := by
  unfold Binary.Parts.toRat
  simp only
  rw [Rat.mkRat_eq_div, Int.cast_natCast, value_fraction]
  split
  · rw [neg_one_mul]
  · rw [one_mul]

/-- The powers of ten that are kept in a table are exact. -/
theorem powers_exact : ∀ k : Fin Float.exactlyRepresentablePowersOfTen.size,
    (Binary.decode Float.exactlyRepresentablePowersOfTen[k]).any fun p =>
      p.negative = false ∧ 0 < p.mantissa ∧ p.fraction.1 = 10 ^ k.val * p.fraction.2 := by
  decide +kernel

theorem unpack_power {e : Nat} (he : e < Float.exactlyRepresentablePowersOfTen.size) :
    ∃ m' e', ∃ h : 0 < m',
      (Float.exactlyRepresentablePowersOfTen[e]).toModel.unpack = .finite .positive m' e' h ∧
      (m' : ℚ) * 2 ^ e' = 10 ^ e := by
  obtain ⟨p, hp, hexact⟩ := (Option.any_eq_true _ _).1 (powers_exact ⟨e, he⟩)
  obtain ⟨hpositive, hmantissa, hfraction⟩ := of_decide_eq_true hexact
  have hden : (p.fraction.2 : ℚ) ≠ 0 := by exact_mod_cast (fraction_pos p).ne'
  refine ⟨p.mantissa, p.exponent, hmantissa, unpack_positive hp hpositive hmantissa, ?_⟩
  rw [← value_fraction, hfraction, div_eq_iff hden]
  push_cast
  rfl

/-- A whole number below 2⁵³ becomes the mantissa of a double if it is doubled often enough. -/
theorem canonical_scaled {m j : Nat} (hm : 0 < m) (hj : m.log2 + j = 52) :
    2 ^ 52 ≤ m * 2 ^ j ∧ Canonical (m * 2 ^ j) (-j) := by
  have hpos : 0 < m * 2 ^ j := Nat.mul_pos hm (Nat.two_pow_pos j)
  have hfull : 2 ^ 52 ≤ m * 2 ^ j := by
    rw [← hj, pow_add]
    exact Nat.mul_le_mul_right _ (Nat.log2_self_le hm.ne')
  have hsmall : m * 2 ^ j < 2 ^ 53 := by
    have hbits : 53 = m.log2 + 1 + j := by omega
    rw [hbits, pow_add]
    exact Nat.mul_lt_mul_of_pos_right Nat.lt_log2_self (Nat.two_pow_pos j)
  exact ⟨hfull, ⟨hpos, hsmall, .inl hfull, by omega, by omega⟩⟩

theorem ofUInt64_scaled {m j : Nat} (hm : 0 < m) (hj : m.log2 + j = 52) :
    UnpackedFloat.ofUInt64 Format.binary64 m.toUInt64 =
      .finite .positive (m * 2 ^ j) (-j) (canonical_scaled hm hj).2.pos := by
  have hlt : m < 2 ^ 53 := (Nat.log2_lt hm.ne').1 (by omega)
  have hword : m.toUInt64.toNat = m := by
    simp
    omega
  have hcompare : compare (m : Int) 0 = .gt := by
    rw [compare_gt_iff_gt]
    omega
  have hshift : (0 - max ((m.log2 : Int) + 0 - 52) (-1074)).toNat = j := by omega
  unfold UnpackedFloat.ofUInt64 UnpackedFloat.ofNat UnpackedFloat.ofInt UnpackedFloat.normalize
  rw [hword, hcompare]
  dsimp only [Int.toNat_natCast]
  unfold UnpackedFloat.round decreaseExponent
  rw [targetExponent_eq]
  dsimp only
  rw [hshift, Nat.shiftLeft_eq, Int.zero_sub]
  exact (canonical_scaled hm hj).2.round

/-- The double of a whole number below 2⁵³ is that number. -/
theorem unpack_toFloat {m : Nat} (hm : 0 < m) (hlt : m < 2 ^ 53) :
    ∃ m' e', ∃ h : 0 < m', m.toUInt64.toFloat.toModel.unpack = .finite .positive m' e' h ∧
      2 ^ 52 ≤ m' ∧ (m' : ℚ) * 2 ^ e' = m := by
  obtain ⟨j, hj⟩ : ∃ j : Nat, m.log2 + j = 52 :=
    ⟨52 - m.log2, by have := (Nat.log2_lt hm.ne').2 hlt; omega⟩
  obtain ⟨hfull, hcanonical⟩ := canonical_scaled hm hj
  refine ⟨m * 2 ^ j, -j, hcanonical.pos, ?_, hfull, ?_⟩
  · show (Float.Model.pack (UnpackedFloat.ofUInt64 Format.binary64 m.toUInt64)).unpack = _
    rw [ofUInt64_scaled hm hj]
    exact unpack_pack hcanonical .positive
  · rw [zpow_neg, zpow_natCast]
    push_cast
    exact mul_inv_cancel_right₀ (pow_ne_zero j (by norm_num)) _

section

variable {m e : Nat} (hm : 0 < m) (hlt : m < 2 ^ 53)
  (he : e < Float.exactlyRepresentablePowersOfTen.size)

include hm hlt

/-- A whole number below 2⁵³ and a power of ten in the table are exact, so only their product is
rounded. -/
theorem rounds_mul_power :
    ∃ u, Rounds (m * 10 ^ e) u ∧
      m.toUInt64.toFloat * Float.exactlyRepresentablePowersOfTen[e] = .ofModel (.pack u) := by
  obtain ⟨m', e', hm', hunpack, hfull, hvalue⟩ := unpack_toFloat hm hlt
  obtain ⟨p, q, hp, hpower, hten⟩ := unpack_power he
  refine ⟨_, hvalue ▸ hten ▸ rounds_mul hm' hp e' q hfull, ?_⟩
  show Float.ofModel (Float.Model.pack (UnpackedFloat.mul Format.binary64
    m.toUInt64.toFloat.toModel.unpack
    (Float.exactlyRepresentablePowersOfTen[e]).toModel.unpack)) = _
  rw [hunpack, hpower]

/-- The same for their quotient. -/
theorem rounds_div_power :
    ∃ u, Rounds (m / 10 ^ e) u ∧
      m.toUInt64.toFloat / Float.exactlyRepresentablePowersOfTen[e] = .ofModel (.pack u) := by
  obtain ⟨m', e', hm', hunpack, -, hvalue⟩ := unpack_toFloat hm hlt
  obtain ⟨p, q, hp, hpower, hten⟩ := unpack_power he
  refine ⟨_, hvalue ▸ hten ▸ rounds_div hm' hp e' q, ?_⟩
  show Float.ofModel (Float.Model.pack (UnpackedFloat.div Format.binary64
    m.toUInt64.toFloat.toModel.unpack
    (Float.exactlyRepresentablePowersOfTen[e]).toModel.unpack)) = _
  rw [hunpack, hpower]

end

end Double

/-! ### Values -/

namespace Decimal

/-- The number that a decimal stands for. -/
def value (d : Decimal) : ℚ := d.digits * 10 ^ d.exponent

theorem value_pos {d : Decimal} : 0 < d.value ↔ 0 < d.digits := by
  have hpow : (0 : ℚ) < 10 ^ d.exponent := zpow_pos (by norm_num) _
  rw [value, mul_pos_iff_of_pos_right hpow]
  exact Nat.cast_pos

/-- The number of digits is one more than the decimal logarithm. -/
theorem pow_length_toDigits {n : Nat} (hn : 0 < n) :
    10 ^ ((Nat.toDigits 10 n).length - 1) ≤ n ∧ n < 10 ^ (Nat.toDigits 10 n).length := by
  have hlength : 0 < (Nat.toDigits 10 n).length := Nat.length_toDigits_pos
  refine ⟨?_, (Nat.length_toDigits_le_iff (by decide) hlength).1 le_rfl⟩
  by_cases hone : (Nat.toDigits 10 n).length - 1 = 0
  · rw [hone]
    exact hn
  · have hfewer :=
      Nat.length_toDigits_le_iff (n := n) (b := 10) (by decide) (Nat.pos_of_ne_zero hone)
    by_contra hlt
    have := hfewer.2 (not_le.1 hlt)
    omega

/-- The value of a decimal lies between the powers of ten that its digits and its exponent give. -/
theorem value_bounds {d : Decimal} (hd : 0 < d.digits) :
    (10 : ℚ) ^ ((Nat.toDigits 10 d.digits).length + d.exponent - 1 : Int) ≤ d.value ∧
      d.value < (10 : ℚ) ^ ((Nat.toDigits 10 d.digits).length + d.exponent : Int) := by
  have hpow : (0 : ℚ) < 10 ^ d.exponent := zpow_pos (by norm_num) _
  have hlength : 0 < (Nat.toDigits 10 d.digits).length := Nat.length_toDigits_pos
  obtain ⟨hlow, hhigh⟩ := pow_length_toDigits hd
  obtain ⟨k, hk⟩ : ∃ k, (Nat.toDigits 10 d.digits).length = k + 1 :=
    ⟨(Nat.toDigits 10 d.digits).length - 1, by omega⟩
  rw [hk] at hlow hhigh ⊢
  have hfirst : ((k + 1 : Nat) : Int) + d.exponent - 1 = k + d.exponent := by
    push_cast
    ring
  rw [hfirst, zpow_add₀ (by norm_num), zpow_add₀ (by norm_num), zpow_natCast, zpow_natCast, value]
  constructor
  · refine mul_le_mul_of_nonneg_right ?_ hpow.le
    exact_mod_cast hlow
  · refine mul_lt_mul_of_pos_right ?_ hpow
    exact_mod_cast hhigh

end Decimal

namespace Double

/-- How a positive number is read from a decimal: a very large one as infinite, a very small one as
zero, and any other is rounded. -/
inductive Reads (q : ℚ) : Float → Prop
  | infinite (h : 10 ^ (400 : Int) ≤ q) : Reads q (1.0 / 0.0)
  | zero (h : q < 10 ^ (-401 : Int)) : Reads q 0.0
  | rounded {u : UnpackedFloat} (hlow : 10 ^ (-401 : Int) ≤ q) (hhigh : q < 10 ^ (400 : Int))
      (hu : Rounds q u) : Reads q (.ofModel (.pack u))

theorem Reads.unique {q : ℚ} {x y : Float} (hx : Reads q x) (hy : Reads q y) : x = y := by
  have hrange : (10 : ℚ) ^ (-401 : Int) ≤ 10 ^ (400 : Int) :=
    zpow_le_zpow_right₀ (by norm_num) (by norm_num)
  have hpos : (0 : ℚ) < 10 ^ (-401 : Int) := zpow_pos (by norm_num) _
  cases hx with
  | infinite hx =>
    cases hy with
    | infinite => rfl
    | zero hy => exact absurd (hrange.trans hx) hy.not_ge
    | rounded _ hy => exact absurd hx hy.not_ge
  | zero hx =>
    cases hy with
    | infinite hy => exact absurd (hrange.trans hy) hx.not_ge
    | zero => rfl
    | rounded hy => exact absurd hy hx.not_ge
  | rounded hlow hhigh hu =>
    cases hy with
    | infinite hy => exact absurd hy hhigh.not_ge
    | zero hy => exact absurd hlow hy.not_ge
    | rounded _ _ hv => rw [hu.unique (hpos.trans_le hlow) hv]

/-- The digits of a decimal that is neither very large nor very small are rounded. -/
theorem rounds_toFloat {d : Decimal} (hd : 0 < d.digits)
    (hlow : -400 ≤ ((Nat.toDigits 10 d.digits).length : Int) + d.exponent)
    (hhigh : ((Nat.toDigits 10 d.digits).length : Int) + d.exponent ≤ 400) :
    ∃ u, Rounds d.value u ∧ Float.ofScientific d.digits (d.exponent < 0) d.exponent.natAbs =
      .ofModel (.pack u) := by
  unfold Float.ofScientific
  split
  · rename_i hfast
    have htable : d.exponent.natAbs < Float.exactlyRepresentablePowersOfTen.size :=
      Nat.lt_succ_of_le hfast.2
    simp only [decide_eq_true_eq]
    split
    · rename_i hnegative
      have hvalue : d.value = d.digits / 10 ^ d.exponent.natAbs := by
        rw [Decimal.value, ← zpow_natCast, Int.ofNat_natAbs_of_nonpos hnegative.le, zpow_neg,
          div_inv_eq_mul]
      rw [hvalue]
      exact rounds_div_power hd hfast.1 htable
    · rename_i hpositive
      have hvalue : d.value = d.digits * 10 ^ d.exponent.natAbs := by
        rw [Decimal.value, ← zpow_natCast, Int.natAbs_of_nonneg (not_lt.1 hpositive)]
      rw [hvalue]
      exact rounds_mul_power hd hfast.1 htable
  · have hexponent : (if decide (d.exponent < 0) = true then Int.negOfNat d.exponent.natAbs
        else Int.ofNat d.exponent.natAbs) = d.exponent := by
      simp only [decide_eq_true_eq, Int.negOfNat_eq]
      split <;> simp only [Int.ofNat_eq_natCast] <;> omega
    simp only [hexponent]
    -- There are no more decimal digits than binary ones.
    have hbits : (Nat.toDigits 10 d.digits).length ≤ d.digits.log2 + 1 :=
      (Nat.length_toDigits_le_iff (by decide) (Nat.succ_pos _)).2
        (Nat.lt_log2_self.trans_le (Nat.pow_le_pow_left (by decide) _))
    have hlength : 0 < (Nat.toDigits 10 d.digits).length := Nat.length_toDigits_pos
    exact ⟨_, rounds_ofScientific hd (by omega) (by omega), rfl⟩

/-- A decimal is read by its value. -/
theorem reads_toFloat {d : Decimal} (hd : 0 < d.digits) : Reads d.value d.toFloat := by
  obtain ⟨hlow, hhigh⟩ := Decimal.value_bounds hd
  have hpower : ∀ {a b : Int}, a ≤ b → (10 : ℚ) ^ a ≤ 10 ^ b := fun hab =>
    zpow_le_zpow_right₀ (by norm_num) hab
  unfold Decimal.toFloat
  simp only [beq_iff_eq, hd.ne', ↓reduceIte]
  split
  · exact .infinite ((hpower (by omega)).trans hlow)
  · split
    · exact .zero (hhigh.trans_le (hpower (by omega)))
    · obtain ⟨u, hu, hread⟩ := rounds_toFloat hd (by omega) (by omega)
      rw [hread]
      exact .rounded ((hpower (by omega)).trans hlow) (hhigh.trans_le (hpower (by omega))) hu

/-- Decimals of one value are read alike. -/
theorem toFloat_congr {d d' : Decimal} (h : d.value = d'.value) : d.toFloat = d'.toFloat := by
  by_cases hd : 0 < d.digits
  · have hd' : 0 < d'.digits := Decimal.value_pos.1 (h ▸ Decimal.value_pos.2 hd)
    exact (reads_toFloat hd).unique (h ▸ reads_toFloat hd')
  · have hd' : ¬ 0 < d'.digits := fun h' => hd (Decimal.value_pos.1 (h ▸ Decimal.value_pos.2 h'))
    unfold Decimal.toFloat
    simp only [Nat.eq_zero_of_not_pos hd, Nat.eq_zero_of_not_pos hd', beq_self_eq_true, ↓reduceIte]

/-- The doubles are within the range of decimals that are rounded. -/
theorem Canonical.range {m : Nat} {e : Int} (h : Canonical m e) :
    2 * (10 : ℚ) ^ (-401 : Int) ≤ m * 2 ^ e ∧ 2 * (m * 2 ^ e : ℚ) < 10 ^ (400 : Int) := by
  have hpow : (0 : ℚ) < 2 ^ e := zpow_pos (by norm_num) e
  have hone : (1 : ℚ) ≤ m := by exact_mod_cast h.pos
  have hlt : (m : ℚ) < 2 ^ (53 : Int) := by exact_mod_cast h.lt
  have hpower : ∀ {a b : Int}, a ≤ b → (2 : ℚ) ^ a ≤ 2 ^ b := fun hab =>
    zpow_le_zpow_right₀ (by norm_num) hab
  -- Three binary digits are less than a decimal one.
  have hdigits : ∀ n : Nat, (2 : ℚ) ^ (3 * n : Int) ≤ 10 ^ (n : Int) := fun n => by
    rw [zpow_mul, zpow_natCast, zpow_natCast]
    exact pow_le_pow_left₀ (by norm_num) (by norm_num) n
  have hmost := hdigits 400
  have hleast : (10 : ℚ) ^ (-(400 : Nat) : Int) ≤ 2 ^ (-(3 * (400 : Nat)) : Int) := by
    rw [zpow_neg, zpow_neg]
    exact inv_anti₀ (zpow_pos (by norm_num) _) hmost
  rw [Nat.cast_ofNat] at hmost hleast
  have hten : ∀ k : Int, 2 * (10 : ℚ) ^ k ≤ 10 ^ (k + 1) := fun k => by
    have : (0 : ℚ) < 10 ^ k := zpow_pos (by norm_num) k
    rw [zpow_add_one₀ (by norm_num)]
    linarith
  constructor
  · calc 2 * (10 : ℚ) ^ (-401 : Int)
        ≤ 10 ^ (-401 + 1 : Int) := hten _
      _ ≤ 2 ^ e := hleast.trans (hpower (by have := h.least; omega))
      _ ≤ m * 2 ^ e := le_mul_of_one_le_left hpow.le hone
  · calc 2 * (m * 2 ^ e : ℚ)
        < 2 * (2 ^ (53 : Int) * 2 ^ e) := by
          linarith [mul_lt_mul_of_pos_right hlt hpow]
      _ = 2 ^ (1 + (53 + e)) := by
          rw [zpow_one_add₀ (by norm_num), zpow_add₀ (by norm_num)]
      _ ≤ 10 ^ (400 : Int) := (hpower (by have := h.most; omega)).trans hmost

/-- A decimal that is close to a double is read as that double. -/
theorem toFloat_near {x : Float} {m : Nat} {e : Int} {hm : 0 < m}
    (hx : x.toModel.unpack = .finite .positive m e hm) {d : Decimal}
    (hnear : 2 * 10 ^ 16 * |d.value - m * 2 ^ e| ≤ m * 2 ^ e) : d.toFloat = x := by
  obtain ⟨hcanonical, hpack⟩ := of_unpack_finite hx
  obtain ⟨hlow, hhigh⟩ := hcanonical.range
  have hpos : (0 : ℚ) < 10 ^ (-401 : Int) := zpow_pos (by norm_num) _
  have hhalf : (m * 2 ^ e : ℚ) ≤ 2 * d.value := by
    have := neg_le_abs (d.value - m * 2 ^ e)
    linarith
  have htwice : d.value ≤ 2 * (m * 2 ^ e) := by
    have := le_abs_self (d.value - m * 2 ^ e)
    linarith
  have hd : 0 < d.digits := Decimal.value_pos.1 (by linarith)
  have hread := reads_toFloat hd
  generalize d.toFloat = y at hread
  cases hread with
  | infinite h => exact absurd (h.trans htwice) hhigh.not_ge
  | zero h => exact absurd (hlow.trans hhalf) (by linarith)
  | rounded _ _ hu =>
    rw [hcanonical.eq_of_rounds hu hnear, hpack]

end Double

end PageExtract
