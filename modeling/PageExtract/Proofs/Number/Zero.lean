/-
Zeros without a sign.

Both zeros stand at one place in the order of doubles, and both are whole. So no comparison and no
test for whole numbers tells a number from the same number without the sign that a zero can have:

* `unsigned_lt_iff`, `lt_unsigned_iff`, `unsigned_le_iff`, `le_unsigned_iff` — comparison;
* `isInteger_unsigned` — whole numbers;
* `number_of_isFinite`, `lt_of_not_le_number` — finite doubles are numbers, and these are ordered;
* `toNat_pos` — whole numbers above zero.
-/
import PageExtract.Proofs.Number.Order
import PageExtract.Proofs.Value.Reread

namespace PageExtract.Double

open Float.Model Float.Model.UnpackedFloat

/-! ### Order -/

section

variable {x y : Float}

theorem rank?_unsigned (x : Float) :
    rank? (unsigned x).toModel.unpack = rank? x.toModel.unpack := by
  unfold unsigned
  split
  · obtain rfl | rfl := eq_zero_of_beq ‹_›
    · rfl
    · rfl
  · rfl

theorem unsigned_lt_iff : unsigned x < y ↔ x < y := by
  rw [Double.lt_iff, Double.lt_iff, rank?_unsigned]

theorem lt_unsigned_iff : x < unsigned y ↔ x < y := by
  rw [Double.lt_iff, Double.lt_iff, rank?_unsigned]

theorem unsigned_le_iff : unsigned x ≤ y ↔ x ≤ y := by
  rw [Double.le_iff, Double.le_iff, rank?_unsigned]

theorem le_unsigned_iff : x ≤ unsigned y ↔ x ≤ y := by
  rw [Double.le_iff, Double.le_iff, rank?_unsigned]

/-- Of two numbers, one that is not at most the other is greater. -/
theorem lt_of_not_le_number (hx : x ≤ x) (hy : y ≤ y) (h : ¬ x ≤ y) : y < x := by
  obtain ⟨a, -, ha, -⟩ := Double.le_iff.1 hx
  obtain ⟨b, -, hb, -⟩ := Double.le_iff.1 hy
  exact Double.lt_iff.2 ⟨b, a, hb, ha, not_le.1 fun hab => h (Double.le_iff.2 ⟨a, b, ha, hb, hab⟩)⟩

theorem number_of_isFinite (h : Numeric.isFinite x = true) : x ≤ x := by
  obtain ⟨q, hq⟩ := Option.isSome_iff_exists.1 h
  obtain ⟨p, hp, -⟩ := Option.map_eq_some_iff.1 hq
  refine Double.le_iff.2 ?_
  rw [unpack_of_decode hp]
  unfold unpacked
  by_cases hmantissa : 0 < p.mantissa
  · rw [dif_pos hmantissa]
    generalize p.negative = negative
    cases negative
    · exact ⟨_, _, rfl, rfl, le_rfl⟩
    · exact ⟨_, _, rfl, rfl, le_rfl⟩
  · rw [dif_neg hmantissa]
    exact ⟨_, _, rfl, rfl, le_rfl⟩

end

/-! ### Whole numbers -/

theorem toRat_of_mantissa_eq_zero {p : Binary.Parts} (hp : p.mantissa = 0) : p.toRat = 0 := by
  rw [toRat_eq, hp, Nat.cast_zero, zero_mul, mul_zero]

theorem toRat_pos {p : Binary.Parts} (hnegative : p.negative = false) (hp : 0 < p.mantissa) :
    0 < p.toRat := by
  have hmantissa : (0 : ℚ) < p.mantissa := by exact_mod_cast hp
  rw [toRat_eq, hnegative, if_neg Bool.false_ne_true, one_mul]
  exact mul_pos hmantissa (zpow_pos (by norm_num) p.exponent)

theorem isInteger_unsigned (x : Float) :
    Numeric.isInteger (unsigned x) = Numeric.isInteger x := by
  have hzero : ∀ {y : Float} {p : Binary.Parts}, Binary.decode y = some p → p.mantissa = 0 →
      Numeric.isInteger y = true := by
    intro y p hdecode hp
    have hexact : Numeric.exact y = some 0 :=
      (congrArg (Option.map _) hdecode).trans (congrArg some (toRat_of_mantissa_eq_zero hp))
    unfold Numeric.isInteger
    rw [hexact]
    rfl
  unfold unsigned
  split
  · obtain rfl | rfl := eq_zero_of_beq ‹_›
    · rfl
    · rw [hzero (y := 0.0) rfl rfl, hzero (y := -0.0) rfl rfl]
  · rfl

/-- A whole number above zero leads to a natural number above zero. -/
theorem toNat_pos {x : Float} (hinteger : Numeric.isInteger x = true) (hpos : ¬ x ≤ 0.0) :
    0 < Numeric.toNat x := by
  obtain ⟨q, hq⟩ := Option.isSome_iff_exists.1 (isFinite_of_isInteger hinteger)
  obtain ⟨p, hp, rfl⟩ := Option.map_eq_some_iff.1 hq
  obtain ⟨hnegative, hmantissa⟩ := positive_of_not_le hp hpos
  unfold Numeric.isInteger at hinteger
  unfold Numeric.toNat
  rw [hq] at hinteger ⊢
  simp only [beq_iff_eq] at hinteger ⊢
  have hnumerator : 0 < p.toRat.num := Rat.num_pos.2 (toRat_pos hnegative hmantissa)
  have hfloor : p.toRat.floor = p.toRat.num := by
    rw [Rat.floor_def, hinteger, Nat.cast_one, Int.ediv_one]
  rw [hfloor]
  omega

end PageExtract.Double
