/-
Doubles that are not finite.

What is infinite or not a number stays so in sums, differences, products and quotients, with one
exception: a finite double divided by an infinite one is zero. A quotient by zero is never finite.

* `Boundless`, `isFinite_iff` — the doubles that are not finite;
* `Boundless.neg`, `Boundless.add_left` and so on — operations on them, and packing;
* `isFinite_neg`, `isFinite_add`, `isFinite_sub`, `isFinite_mul` — a finite result has finite
  operands;
* `isFinite_div` — a finite quotient has a finite dividend, and a divisor that is not zero and is
  finite or infinite.
-/
import PageExtract.Number.Basic
import PageExtract.Proofs.Number.Packing

namespace PageExtract.Double

open Float.Model Float.Model.UnpackedFloat

/-- What is infinite or not a number. -/
inductive Boundless : UnpackedFloat → Prop
  | notANumber : Boundless .notANumber
  | infinity (s : Sign) : Boundless (.infinity s)

theorem isFinite_iff {x : Float} : Numeric.isFinite x = true ↔ ¬ Boundless x.toModel.unpack := by
  have hsome : Numeric.isFinite x = (Binary.decode x).isSome := Option.isSome_map
  rw [hsome]
  constructor
  · intro h
    obtain ⟨p, hp⟩ := Option.isSome_iff_exists.1 h
    rw [unpack_of_decode hp, unpacked]
    by_cases hm : 0 < p.mantissa
    · rw [dif_pos hm]
      rintro ⟨⟩
    · rw [dif_neg hm]
      rintro ⟨⟩
  · intro h
    have hexponent : (exponentField x.toModel).toNat ≠ 2047 := by
      have hunpacks := unpacks x.toModel
      generalize x.toModel.unpack = u at h hunpacks
      cases hunpacks with
      | notANumber => exact (h .notANumber).elim
      | infinity => exact (h (.infinity _)).elim
      | zero hk => simp [hk]
      | subnormal hk => simp [hk]
      | normal hk => exact fun hones => hk (BitVec.eq_of_toNat_eq hones)
    have hword : x.toBits.toNat = x.toModel.toBits.toNat := rfl
    unfold Binary.decode
    simp only [hword, ← toNat_exponentField, beq_iff_eq]
    rw [if_neg hexponent]
    split <;> rfl

theorem Boundless.pack {u : UnpackedFloat} (h : Boundless u) :
    Boundless (Float.Model.pack u).unpack := by
  cases h with
  | notANumber => exact .notANumber
  | infinity s => cases s <;> exact .infinity _

/-! ### Operations -/

namespace Boundless

variable {u v : UnpackedFloat}

theorem neg (h : Boundless u) : Boundless u.neg := by
  cases h with
  | notANumber => exact .notANumber
  | infinity s => exact .infinity (-s)

theorem add_left (h : Boundless u) (v : UnpackedFloat) :
    Boundless (u.add Format.binary64 v) := by
  cases h with
  | notANumber => exact .notANumber
  | infinity s =>
    cases v with
    | notANumber => exact .notANumber
    | infinity t => cases s <;> cases t <;> constructor
    | zero t => exact .infinity s
    | finite t m e hm => exact .infinity s

theorem add_right (u : UnpackedFloat) (h : Boundless v) :
    Boundless (u.add Format.binary64 v) := by
  cases u with
  | notANumber => exact .notANumber
  | infinity s => exact (infinity s).add_left v
  | zero s => cases h <;> constructor
  | finite s m e hm => cases h <;> constructor

theorem sub_left (h : Boundless u) (v : UnpackedFloat) :
    Boundless (u.sub Format.binary64 v) := by
  cases h with
  | notANumber => exact .notANumber
  | infinity s =>
    cases v with
    | notANumber => exact .notANumber
    | infinity t => cases s <;> cases t <;> constructor
    | zero t => exact .infinity s
    | finite t m e hm => exact .infinity s

theorem sub_right (u : UnpackedFloat) (h : Boundless v) :
    Boundless (u.sub Format.binary64 v) := by
  cases u with
  | notANumber => exact .notANumber
  | infinity s => exact (infinity s).sub_left v
  | zero s => cases h <;> constructor
  | finite s m e hm => cases h <;> constructor

theorem mul_left (h : Boundless u) (v : UnpackedFloat) :
    Boundless (u.mul Format.binary64 v) := by
  cases h with
  | notANumber => exact .notANumber
  | infinity s => cases v <;> constructor

theorem mul_right (u : UnpackedFloat) (h : Boundless v) :
    Boundless (u.mul Format.binary64 v) := by
  cases u with
  | notANumber => exact .notANumber
  | infinity s => exact (infinity s).mul_left v
  | zero s => cases h <;> constructor
  | finite s m e hm => cases h <;> constructor

theorem div_left (h : Boundless u) (v : UnpackedFloat) :
    Boundless (u.div Format.binary64 v) := by
  cases h with
  | notANumber => exact .notANumber
  | infinity s => cases v <;> constructor

theorem div_notANumber (u : UnpackedFloat) : Boundless (u.div Format.binary64 .notANumber) := by
  cases u <;> constructor

theorem div_zero (u : UnpackedFloat) (s : Sign) :
    Boundless (u.div Format.binary64 (.zero s)) := by
  cases u <;> constructor

end Boundless

/-! ### Finite results -/

section

variable {x y : Float}

theorem isFinite_neg (h : Numeric.isFinite (-x) = true) : Numeric.isFinite x = true :=
  isFinite_iff.2 fun hx => isFinite_iff.1 h hx.neg.pack

theorem isFinite_add (h : Numeric.isFinite (x + y) = true) :
    Numeric.isFinite x = true ∧ Numeric.isFinite y = true :=
  ⟨isFinite_iff.2 fun hx => isFinite_iff.1 h (hx.add_left _).pack,
    isFinite_iff.2 fun hy => isFinite_iff.1 h (Boundless.add_right _ hy).pack⟩

theorem isFinite_sub (h : Numeric.isFinite (x - y) = true) :
    Numeric.isFinite x = true ∧ Numeric.isFinite y = true :=
  ⟨isFinite_iff.2 fun hx => isFinite_iff.1 h (hx.sub_left _).pack,
    isFinite_iff.2 fun hy => isFinite_iff.1 h (Boundless.sub_right _ hy).pack⟩

theorem isFinite_mul (h : Numeric.isFinite (x * y) = true) :
    Numeric.isFinite x = true ∧ Numeric.isFinite y = true :=
  ⟨isFinite_iff.2 fun hx => isFinite_iff.1 h (hx.mul_left _).pack,
    isFinite_iff.2 fun hy => isFinite_iff.1 h (Boundless.mul_right _ hy).pack⟩

/-- A finite quotient has a finite dividend. Its divisor is not zero, and if it is not finite
either, it is infinite. -/
theorem isFinite_div (h : Numeric.isFinite (x / y) = true) :
    Numeric.isFinite x = true ∧ (y == 0.0) = false ∧
      (Numeric.isFinite y = true ∨ y.isInf = true) := by
  have hquotient : ¬ Boundless (x.toModel.unpack.div Format.binary64 y.toModel.unpack) :=
    fun hbound => isFinite_iff.1 h hbound.pack
  refine ⟨isFinite_iff.2 fun hx => hquotient (hx.div_left _), ?_, ?_⟩
  · rw [← Bool.not_eq_true]
    intro hzero
    obtain rfl | rfl := eq_zero_of_beq hzero
    · exact hquotient (Boundless.div_zero _ .positive)
    · exact hquotient (Boundless.div_zero _ .negative)
  · by_cases hy : Boundless y.toModel.unpack
    · right
      show y.toModel.unpack.isInf = true
      generalize y.toModel.unpack = v at hquotient hy
      cases hy with
      | notANumber => exact (hquotient (Boundless.div_notANumber _)).elim
      | infinity s => rfl
    · exact .inl (isFinite_iff.2 hy)

end

end PageExtract.Double
