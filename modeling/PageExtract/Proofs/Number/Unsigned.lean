/-
Doubles that are not negative.

Coordinates are such doubles, and the borders of columns are sums and halves of them. Rounding does
not make them negative, and a sum that is out of range is infinite, which is no obstacle to an
order: of two doubles that are not negative, one is less than the other or at least as large.

* `Unsigned`, `zero_le_iff` — the doubles that are not less than zero;
* `Unsigned.pack` — packing them;
* `zero_le_add`, `zero_le_half` — sums and halves;
* `le_of_not_lt` — comparison.
-/
import PageExtract.Proofs.Number.Packing

namespace PageExtract.Double

open Float.Model Float.Model.UnpackedFloat

/-! ### Sign -/

/-- The doubles that are not less than zero, infinity and both zeros included. -/
inductive Unsigned : UnpackedFloat → Prop
  | infinity : Unsigned (.infinity .positive)
  | zero (s : Sign) : Unsigned (.zero s)
  | finite (m : Nat) (e : Int) (h : 0 < m) : Unsigned (.finite .positive m e h)

theorem zero_le_iff {x : Float} : 0.0 ≤ x ↔ Unsigned x.toModel.unpack := by
  have hle : 0.0 ≤ x ↔
      ((0.0 : Float).toModel.unpack.compare x.toModel.unpack).any (·.isLE) = true :=
    decide_eq_true_iff
  rw [hle, unpack_zero]
  generalize x.toModel.unpack = u
  constructor
  · intro h
    cases u with
    | notANumber => cases h
    | infinity s =>
      cases s with
      | negative => cases h
      | positive => exact .infinity
    | zero s => exact .zero s
    | finite s m e hm =>
      cases s with
      | negative => cases h
      | positive => exact .finite m e hm
  · intro h
    cases h <;> rfl

/-! ### Packing -/

/-- A word with a positive sign is not less than zero, unless its exponent is that of what is not a
number. -/
theorem unsigned_of_fields {x : Float.Model} (hsign : signField x = .positive)
    (hk : exponentField x ≠ -1#11) : Unsigned x.unpack := by
  have hunpacks := unpacks x
  generalize x.unpack = u at hunpacks
  cases hunpacks with
  | notANumber hones => exact absurd hones hk
  | infinity hones => exact absurd hones hk
  | zero => exact .zero _
  | subnormal _ h => exact hsign ▸ .finite _ _ h
  | normal _ _ h => exact hsign ▸ .finite _ _ h

/-- Packing keeps the sign, and what is too large becomes infinite. -/
theorem Unsigned.pack {u : UnpackedFloat} (h : Unsigned u) :
    Unsigned (Float.Model.pack u).unpack := by
  cases h with
  | infinity => exact .infinity
  | zero s => cases s <;> exact .zero _
  | finite m e hm =>
    have hpacks : Packs .positive m e _ := packs .positive hm
    generalize Float.Model.pack (.finite .positive m e hm) = x at hpacks ⊢
    cases hpacks with
    | infinite => exact .infinity
    | normal hsign hk hsmall =>
      refine unsigned_of_fields hsign fun hones => ?_
      have hnat : (-1#11 : BitVec 11).toNat = 2047 := rfl
      rw [hones, hnat] at hk
      omega
    | subnormal hsign hk =>
      refine unsigned_of_fields hsign ?_
      rw [hk]
      decide

/-! ### Sums and quotients -/

theorem unsigned_roundWithAccuracy (m : Nat) (e : Int) (a : Accuracy) :
    Unsigned (roundWithAccuracy Format.binary64 .positive m e a) := by
  have hmantissa : ∀ (n : Nat) (k : Int), Unsigned
      (if h : n = 0 then .zero .positive else .finite .positive n k (Nat.pos_of_ne_zero h)) := by
    intro n k
    by_cases h : n = 0
    · exact dif_pos h ▸ .zero _
    · exact dif_neg h ▸ .finite n k _
  exact hmantissa _ _

/-- A sum is not less than zero, whatever it is rounded to. -/
theorem Unsigned.add {u v : UnpackedFloat} (hu : Unsigned u) (hv : Unsigned v) :
    Unsigned (UnpackedFloat.add Format.binary64 u v) := by
  cases hu with
  | infinity => cases hv <;> exact .infinity
  | zero s =>
    cases hv with
    | infinity => exact .infinity
    | zero t => cases s <;> cases t <;> exact .zero _
    | finite m e h => exact .finite m e h
  | finite m e h =>
    cases hv with
    | infinity => exact .infinity
    | zero t => exact .finite m e h
    | finite n k h' =>
      show Unsigned (UnpackedFloat.normalize _ _ _ _)
      unfold UnpackedFloat.normalize
      split
      · rename_i hneg
        have hlt := compare_lt_iff_lt.1 hneg
        exact absurd hlt (Int.add_nonneg (Int.natCast_nonneg _) (Int.natCast_nonneg _)).not_gt
      · exact .zero _
      · exact unsigned_roundWithAccuracy _ _ _

theorem Unsigned.div {u : UnpackedFloat} (hu : Unsigned u) (m : Nat) (e : Int) (h : 0 < m) :
    Unsigned (UnpackedFloat.div Format.binary64 u (.finite .positive m e h)) := by
  cases hu with
  | infinity => exact .infinity
  | zero s => exact .zero _
  | finite n k h' => exact unsigned_roundWithAccuracy _ _ _

theorem zero_le_add {x y : Float} (hx : 0.0 ≤ x) (hy : 0.0 ≤ y) : 0.0 ≤ x + y :=
  zero_le_iff.2 ((zero_le_iff.1 hx).add (zero_le_iff.1 hy)).pack

theorem zero_le_half {x : Float} (hx : 0.0 ≤ x) : 0.0 ≤ x / 2.0 := by
  obtain ⟨m, e, h, htwo⟩ : ∃ m e h, (2.0 : Float).toModel.unpack = .finite .positive m e h :=
    ⟨_, _, _, rfl⟩
  refine zero_le_iff.2 ?_
  show Unsigned (Float.Model.pack (UnpackedFloat.div _ _ (2.0 : Float).toModel.unpack)).unpack
  rw [htwo]
  exact ((zero_le_iff.1 hx).div m e h).pack

/-! ### Comparison -/

/-- All doubles that are not less than zero compare with each other. -/
theorem Unsigned.le_of_not_lt {u v : UnpackedFloat} (hu : Unsigned u) (hv : Unsigned v)
    (hlt : u.compare v ≠ some .lt) : (v.compare u).any (·.isLE) = true := by
  cases hu with
  | infinity => cases hv <;> rfl
  | zero s =>
    cases hv with
    | infinity => exact (hlt rfl).elim
    | zero t => rfl
    | finite m e h => exact (hlt rfl).elim
  | finite m e h =>
    cases hv with
    | infinity => exact (hlt rfl).elim
    | zero t => rfl
    | finite n k h' =>
      have hparts : (compare e k).then (compare m n) ≠ .lt := fun h => hlt (congrArg some h)
      show ((compare k e).then (compare n m)).isLE = true
      rw [← Int.compare_swap, ← Nat.compare_swap, ← Ordering.swap_then, Ordering.isLE_swap,
        Ordering.isGE_iff_ne_lt]
      exact hparts

/-- Of two doubles that are not negative, one that is not less is at least as large. -/
theorem le_of_not_lt {x y : Float} (hx : 0.0 ≤ x) (hy : 0.0 ≤ y) (h : ¬ x < y) : y ≤ x := by
  have hlt : x < y ↔ (x.toModel.unpack.compare y.toModel.unpack == some .lt) = true :=
    decide_eq_true_iff
  have hle : y ≤ x ↔ (y.toModel.unpack.compare x.toModel.unpack).any (·.isLE) = true :=
    decide_eq_true_iff
  rw [hlt, beq_iff_eq] at h
  exact hle.2 ((zero_le_iff.1 hx).le_of_not_lt (zero_le_iff.1 hy) h)

end PageExtract.Double
