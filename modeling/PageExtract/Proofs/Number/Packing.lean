/-
Doubles as words and as pairs.

A word of 64 bits holds the sign, the exponent and the fraction of a double. A finite double other
than zero stands for a mantissa times a power of two, and the word and that pair determine each
other:

* `Canonical` — the pairs that doubles have;
* `signField`, `exponentField`, `fractionField`, `Unpacks` — the fields of a word, and what they
  stand for;
* `pack_of_bits`, `of_unpack_finite`, `unpack_pack` — a finite double is packed from its pair, and
  unpacked to it;
* `Packs`, `packs` — what any other pair is packed into;
* `unpacked`, `unpack_of_decode` — the parts of a double as the operations on doubles see them;
* `eq_or_zero_of_compare`, `eq_of_beq`, `positive_of_not_le` — comparison as equality and sign;
* `beq_congr`, `beq_comm` — what is equal compares in the same way with everything, in either order;
* `beq_zero_of_decode`, `eq_zero_of_beq` — the two zeros.
-/
import Mathlib.Algebra.Order.Ring.Nat
import Mathlib.Data.Nat.Log
import PageExtract.Number.Binary

namespace PageExtract.Double

open Float.Model Float.Model.UnpackedFloat

/-! ### Fields -/

/-- The sign of a double. -/
def signField (x : Float.Model) : Sign :=
  Sign.ofBitVec (@unpackSign Format.binary64 x.toBits.toBitVec)

/-- The exponent of a double, counted from the least. -/
def exponentField (x : Float.Model) : BitVec 11 := @unpackExponent Format.binary64 x.toBits.toBitVec

/-- The mantissa of a double without its first bit. -/
def fractionField (x : Float.Model) : BitVec 52 := @unpackMantissa Format.binary64 x.toBits.toBitVec

/-- The three fields of a word make it up. -/
theorem packComponents_fields (x : Float.Model) :
    packComponents Format.binary64 (signField x) (exponentField x) (fractionField x) =
      x.toBits.toBitVec := by
  have hsign : ∀ s : BitVec 1, (Sign.ofBitVec s).toBitVec = s := by decide
  unfold signField unpackSign
  simp only [packComponents, exponentField, fractionField, hsign, unpackExponent, unpackMantissa,
    BitVec.extractLsb]
  ext i hi
  simp only [BitVec.getElem_append, BitVec.getElem_extractLsb', BitVec.getElem_cast]
  rw [← BitVec.getLsbD_eq_getElem]
  split
  · rw [Nat.zero_add]
  · split
    · congr 1
      omega
    · congr 1
      omega

theorem toNat_implicit (f : BitVec 52) : (1#1 ++ f).toNat = 2 ^ 52 + f.toNat := by
  rw [BitVec.toNat_append, ← Nat.shiftLeft_add_eq_or_of_lt f.isLt]
  simp [Nat.shiftLeft_eq]

/-- What the fields of a word stand for. -/
inductive Unpacks (x : Float.Model) : UnpackedFloat → Prop
  | notANumber (hk : exponentField x = -1#11) : Unpacks x .notANumber
  | infinity (hk : exponentField x = -1#11) : Unpacks x (.infinity (signField x))
  | zero (hk : exponentField x = 0#11) (hf : fractionField x = 0#52) :
      Unpacks x (.zero (signField x))
  | subnormal (hk : exponentField x = 0#11) (h : 0 < (fractionField x).toNat) :
      Unpacks x (.finite (signField x) (fractionField x).toNat (-1074) h)
  | normal (hk : exponentField x ≠ -1#11) (hk0 : exponentField x ≠ 0#11)
      (h : 0 < 2 ^ 52 + (fractionField x).toNat) :
      Unpacks x (.finite (signField x) (2 ^ 52 + (fractionField x).toNat)
        ((exponentField x).toNat - 1075) h)

theorem unpacks (x : Float.Model) : Unpacks x x.unpack := by
  by_cases hk : exponentField x = -1#11
  · by_cases hf : fractionField x = 0#52
    · have hx : x.unpack = .infinity (signField x) := (if_pos hk).trans (if_pos hf)
      exact hx ▸ .infinity hk
    · have hx : x.unpack = .notANumber := (if_pos hk).trans (if_neg hf)
      exact hx ▸ .notANumber hk
  · by_cases hk0 : exponentField x = 0#11
    · by_cases hf : fractionField x = 0#52
      · have hx : x.unpack = .zero (signField x) :=
          (if_neg hk).trans ((if_pos hk0).trans (dif_pos hf))
        exact hx ▸ .zero hk0 hf
      · have hpos : 0 < (fractionField x).toNat :=
          Nat.pos_of_ne_zero fun h0 => hf (BitVec.eq_of_toNat_eq h0)
        have hx : x.unpack = .finite (signField x) (fractionField x).toNat
            ((exponentField x).toNat - 1075 + 1) hpos :=
          (if_neg hk).trans ((if_pos hk0).trans (dif_neg hf))
        rw [hx, hk0]
        exact .subnormal hk0 hpos
    · have hpos : 0 < (1#1 ++ fractionField x).toNat := by
        rw [toNat_implicit]
        omega
      have hx : x.unpack = .finite (signField x) (1#1 ++ fractionField x).toNat
          ((exponentField x).toNat - 1075) hpos := (if_neg hk).trans (if_neg hk0)
      have hnormal : ∀ m (h : 0 < m), m = 2 ^ 52 + (fractionField x).toNat →
          Unpacks x (.finite (signField x) m ((exponentField x).toNat - 1075) h) := by
        rintro _ h rfl
        exact .normal hk hk0 h
      rw [hx]
      exact hnormal _ hpos (toNat_implicit _)

/-! ### Pairs -/

/-- What the mantissa and the exponent of a double satisfy. -/
structure Canonical (m : Nat) (e : Int) : Prop where
  pos : 0 < m
  lt : m < 2 ^ 53
  full : 2 ^ 52 ≤ m ∨ e = -1074
  least : -1074 ≤ e
  most : e ≤ 971

/-- The word that a sign, an exponent and a mantissa of a normal double are packed into. -/
theorem pack_normal (s : Sign) (k : BitVec 11) (f : BitVec 52) (hk : k ≠ -1#11)
    (h : 0 < 2 ^ 52 + f.toNat) :
    UnpackedFloat.pack Format.binary64 (.finite s (2 ^ 52 + f.toNat) (k.toNat - 1075) h) =
      packComponents Format.binary64 s k f := by
  have hlog : (2 ^ 52 + f.toNat).log2 = 52 := by
    rw [Nat.log2_eq_iff h.ne']
    have := f.isLt
    omega
  have hk' : k.toNat ≠ 2 ^ 11 - 1 := by
    intro e
    exact hk (BitVec.eq_of_toNat_eq (by rw [e]; rfl))
  have hbiased : ((k.toNat : Int) - 1075 + Format.binary64.exponentBias +
      Format.binary64.mantissaBitsWithoutImplicit).toNat = k.toNat := by
    have : ((Format.binary64.exponentBias : Nat) : Int) = 1023 := rfl
    simp only [this]
    omega
  have hmantissa : BitVec.ofNat 52 (2 ^ 52 + f.toNat) = f := by
    apply BitVec.eq_of_toNat_eq
    rw [BitVec.toNat_ofNat, Nat.add_mod_left, Nat.mod_eq_of_lt f.isLt]
  have hlarge : ¬ 2 ^ Format.binary64.exponentBits ≤ k.toNat + 1 := by
    have := k.isLt
    simp only
    omega
  unfold UnpackedFloat.pack
  simp only [hbiased, hlog, hlarge, ↓reduceIte, BitVec.ofNat_toNat, BitVec.setWidth_eq]
  rw [if_pos (by rfl)]
  exact congrArg _ hmantissa

/-- The same for a double that is not normal. -/
theorem pack_subnormal (s : Sign) (f : BitVec 52) (h : 0 < f.toNat) :
    UnpackedFloat.pack Format.binary64 (.finite s f.toNat (-1074) h) =
      packComponents Format.binary64 s 0 f := by
  have hlog : f.toNat.log2 < 52 := (Nat.log2_lt h.ne').2 f.isLt
  have hbiased : ((-1074 : Int) + Format.binary64.exponentBias +
      Format.binary64.mantissaBitsWithoutImplicit).toNat = 1 := rfl
  have hmantissaBits : Format.binary64.mantissaBits = 53 := rfl
  unfold UnpackedFloat.pack
  simp only [hbiased, hmantissaBits]
  rw [if_neg (by decide), if_neg (by omega)]
  simp

/-- A double is determined by its word. -/
theorem pack_of_bits {x : Float.Model} {u : UnpackedFloat}
    (h : UnpackedFloat.pack Format.binary64 u = x.toBits.toBitVec) : pack u = x := by
  cases x
  exact (Float.Model.mk.injEq _ _ _ _).mpr (congrArg UInt64.ofBitVec h)

/-- A finite double is canonical, and packing it gives it back. -/
theorem of_unpack_finite {x : Float.Model} {s : Sign} {m : Nat} {e : Int} {h : 0 < m}
    (hx : x.unpack = .finite s m e h) : Canonical m e ∧ pack (.finite s m e h) = x := by
  have hfields := packComponents_fields x
  have hflt := (fractionField x).isLt
  have hklt := (exponentField x).isLt
  have hunpacks := unpacks x
  rw [hx] at hunpacks
  -- Only words of these two kinds stand for a finite number other than zero.
  cases hunpacks with
  | subnormal hk =>
    refine ⟨⟨h, by omega, .inr rfl, le_rfl, by omega⟩, pack_of_bits ?_⟩
    rw [pack_subnormal, ← hfields, hk]
    rfl
  | normal hk hk0 =>
    have hpositive : (exponentField x).toNat ≠ 0 := fun e => hk0 (BitVec.eq_of_toNat_eq e)
    have hfinite : (exponentField x).toNat ≠ 2047 := fun e => hk (BitVec.eq_of_toNat_eq e)
    refine ⟨⟨h, by omega, .inl (by omega), by omega, by omega⟩, pack_of_bits ?_⟩
    rw [pack_normal _ _ _ hk]
    exact hfields

/-- There is one zero of each sign. -/
theorem of_unpack_zero {x : Float.Model} {s : Sign} (hx : x.unpack = .zero s) :
    pack (.zero s) = x := by
  have hfields := packComponents_fields x
  have hunpacks := unpacks x
  rw [hx] at hunpacks
  cases hunpacks with
  | zero hk hf =>
    rw [hk, hf] at hfields
    exact pack_of_bits hfields

theorem unpackSign_packComponents (s : Sign) (k : BitVec 11) (f : BitVec 52) :
    Sign.ofBitVec (unpackSign (packComponents Format.binary64 s k f)) = s := by
  have hbit : unpackSign (packComponents Format.binary64 s k f) = s.toBitVec := by
    unfold unpackSign
    simp only [packComponents, BitVec.extractLsb]
    ext i hi
    -- The sign stands above the two other fields.
    rw [BitVec.getElem_cast, BitVec.getElem_extractLsb', BitVec.getLsbD_append, if_neg (by omega),
      BitVec.getLsbD_append, if_neg (by omega), ← BitVec.getLsbD_eq_getElem]
    congr 1
    omega
  rw [hbit]
  cases s <;> rfl

/-- The fields of a word that was packed are those that it was packed from. -/
theorem fields_of_packed {x : Float.Model} {s : Sign} {k : BitVec 11} {f : BitVec 52}
    (hx : x.toBits.toBitVec = packComponents Format.binary64 s k f) :
    signField x = s ∧ exponentField x = k ∧ fractionField x = f := by
  refine ⟨?_, ?_, ?_⟩
  · rw [signField, hx, unpackSign_packComponents]
  · rw [exponentField, hx, unpackExponent_packComponents]
  · rw [fractionField, hx, unpackMantissa_packComponents]

/-- The words that a number is packed into: an infinity if it is too large, else one with its sign
and with the exponent and fraction of a normal double or of one that is not normal. -/
inductive Packs (s : Sign) (m : Nat) (e : Int) : Float.Model → Prop
  | infinite : Packs s m e (Float.Model.pack (.infinity s))
  | normal {x : Float.Model} (hsign : signField x = s)
      (hk : (exponentField x).toNat = (e + 1075).toNat) (hsmall : (e + 1075).toNat < 2047) :
      Packs s m e x
  | subnormal {x : Float.Model} (hsign : signField x = s) (hk : exponentField x = 0#11)
      (hf : fractionField x = BitVec.ofNat 52 m) (hshort : m.log2 + 1 ≠ 53) : Packs s m e x

theorem packs (s : Sign) {m : Nat} {e : Int} (hm : 0 < m) :
    Packs s m e (Float.Model.pack (.finite s m e hm)) := by
  have hword : (Float.Model.pack (.finite s m e hm)).toBits.toBitVec =
      if 2048 ≤ (e + 1023 + 52).toNat + 1 then packedInfinity Format.binary64 s
      else if m.log2 + 1 = 53 then
        packComponents Format.binary64 s (BitVec.ofNat 11 (e + 1023 + 52).toNat)
          (BitVec.ofNat 52 m)
      else packComponents Format.binary64 s 0#11 (BitVec.ofNat 52 m) := rfl
  generalize Float.Model.pack (.finite s m e hm) = x at hword ⊢
  split at hword
  · have hinfinite : Float.Model.pack (.infinity s) = x := pack_of_bits hword.symm
    rw [← hinfinite]
    exact .infinite
  · rename_i hsmall
    split at hword
    · obtain ⟨hsign, hk, -⟩ := fields_of_packed hword
      refine .normal hsign ?_ (by omega)
      rw [hk, BitVec.toNat_ofNat]
      omega
    · obtain ⟨hsign, hk, hf⟩ := fields_of_packed hword
      exact .subnormal hsign hk hf ‹_›

/-- A normal double that was packed is unpacked to its pair. -/
theorem unpack_normal {x : Float.Model} {s : Sign} {k : BitVec 11} {f : BitVec 52}
    (hx : x.toBits.toBitVec = packComponents Format.binary64 s k f) (hinfinite : k ≠ -1#11)
    (hzero : k ≠ 0#11) (h : 0 < 2 ^ 52 + f.toNat) :
    x.unpack = .finite s (2 ^ 52 + f.toNat) (k.toNat - 1075) h := by
  obtain ⟨rfl, rfl, rfl⟩ := fields_of_packed hx
  have hunpacks := unpacks x
  generalize x.unpack = u at hunpacks
  cases hunpacks with
  | notANumber hinf => exact absurd hinf hinfinite
  | infinity hinf => exact absurd hinf hinfinite
  | zero h0 => exact absurd h0 hzero
  | subnormal h0 => exact absurd h0 hzero
  | normal => rfl

/-- The same for a double that is not normal. -/
theorem unpack_subnormal {x : Float.Model} {s : Sign} {f : BitVec 52}
    (hx : x.toBits.toBitVec = packComponents Format.binary64 s 0 f) (h : 0 < f.toNat) :
    x.unpack = .finite s f.toNat (-1074) h := by
  obtain ⟨rfl, hk, rfl⟩ := fields_of_packed hx
  have hinfinite : (0 : BitVec 11) ≠ -1#11 := by decide
  have hunpacks := unpacks x
  generalize x.unpack = u at hunpacks
  cases hunpacks with
  | notANumber hinf => exact absurd (hk.symm.trans hinf) hinfinite
  | infinity hinf => exact absurd (hk.symm.trans hinf) hinfinite
  | zero _ h0 =>
    rw [h0] at h
    cases h
  | subnormal => rfl
  | normal _ h0 => exact absurd hk h0

/-- Unpacking gives back a double that was packed. -/
theorem unpack_pack {m : Nat} {e : Int} (h : Canonical m e) (s : Sign) :
    (Float.Model.pack (.finite s m e h.pos)).unpack = .finite s m e h.pos := by
  have hlt := h.lt
  have hleast := h.least
  have hmost := h.most
  by_cases hfull : 2 ^ 52 ≤ m
  · obtain ⟨f, rfl⟩ : ∃ f : BitVec 52, m = 2 ^ 52 + f.toNat :=
      ⟨BitVec.ofNat 52 m, by rw [BitVec.toNat_ofNat]; omega⟩
    obtain ⟨k, rfl⟩ : ∃ k : BitVec 11, e = k.toNat - 1075 :=
      ⟨BitVec.ofNat 11 (e + 1075).toNat, by rw [BitVec.toNat_ofNat]; omega⟩
    have hinfinite : k ≠ -1#11 := by
      rintro rfl
      have : (-1#11 : BitVec 11).toNat = 2047 := rfl
      omega
    have hzero : k ≠ 0#11 := by
      rintro rfl
      have : (0#11 : BitVec 11).toNat = 0 := rfl
      omega
    exact unpack_normal (pack_normal s k f hinfinite h.pos) hinfinite hzero h.pos
  · obtain rfl := h.full.resolve_left hfull
    obtain ⟨f, rfl⟩ : ∃ f : BitVec 52, m = f.toNat :=
      ⟨BitVec.ofNat 52 m, by rw [BitVec.toNat_ofNat]; omega⟩
    exact unpack_subnormal (pack_subnormal s f h.pos) h.pos

/-! ### Parts -/

/-- A finite number as the operations on doubles see it. -/
def unpacked (p : Binary.Parts) : UnpackedFloat :=
  if h : 0 < p.mantissa then
    .finite (if p.negative then .negative else .positive) p.mantissa p.exponent h
  else .zero (if p.negative then .negative else .positive)

theorem toNat_fractionField (x : Float.Model) :
    (fractionField x).toNat = x.toBits.toNat % Nat.pow 2 52 := by
  have hfield : (fractionField x).toNat = x.toBits.toBitVec.toNat % 2 ^ 52 := by
    simp [fractionField, unpackMantissa]
  exact hfield

theorem toNat_exponentField (x : Float.Model) :
    (exponentField x).toNat = x.toBits.toNat / Nat.pow 2 52 % Nat.pow 2 11 := by
  have hfield : (exponentField x).toNat = x.toBits.toBitVec.toNat / 2 ^ 52 % 2 ^ 11 := by
    simp [exponentField, unpackExponent, Nat.shiftRight_eq_div_pow]
  exact hfield

theorem signField_eq (x : Float.Model) :
    signField x = if x.toBits.toNat / Nat.pow 2 63 == 1 then .negative else .positive := by
  have hbit : (@unpackSign Format.binary64 x.toBits.toBitVec).toNat =
      x.toBits.toNat / 2 ^ 63 % 2 := by
    unfold unpackSign
    simp [Nat.shiftRight_eq_div_pow]
  have hlt : x.toBits.toNat < 2 ^ 64 := x.toBits.toBitVec.isLt
  have hpow : Nat.pow 2 63 = 2 ^ 63 := rfl
  have hcases : x.toBits.toNat / 2 ^ 63 = 0 ∨ x.toBits.toNat / 2 ^ 63 = 1 := by omega
  unfold signField Sign.ofBitVec
  rw [hpow]
  generalize @unpackSign Format.binary64 x.toBits.toBitVec = b at hbit ⊢
  obtain h | h := hcases
  · rw [h] at hbit ⊢
    have hzero : b = 0#1 := BitVec.eq_of_toNat_eq hbit
    rw [if_pos hzero]
    rfl
  · rw [h] at hbit ⊢
    have hone : b ≠ 0#1 := by
      rintro rfl
      cases hbit
    rw [if_neg hone]
    rfl

theorem unpack_of_decode {x : Float} {p : Binary.Parts} (hx : Binary.decode x = some p) :
    x.toModel.unpack = unpacked p := by
  have hword : x.toBits.toNat = x.toModel.toBits.toNat := rfl
  have hones : (-1#11 : BitVec 11).toNat = 2047 := rfl
  have hzeros : (0#11 : BitVec 11).toNat = 0 := rfl
  have hunpacks := unpacks x.toModel
  unfold Binary.decode at hx
  -- Both sides look at the same fields, in the same order.
  simp only [hword, ← toNat_fractionField, ← toNat_exponentField, beq_iff_eq] at hx
  generalize x.toModel.unpack = u at hunpacks
  cases hunpacks with
  | notANumber hk =>
    rw [hk, hones, if_pos rfl] at hx
    cases hx
  | infinity hk =>
    rw [hk, hones, if_pos rfl] at hx
    cases hx
  | zero hk hf =>
    rw [hk, hzeros, if_neg (by decide), if_pos rfl] at hx
    cases hx
    rw [unpacked, dif_neg (by simp [hf]), signField_eq]
  | subnormal hk h =>
    rw [hk, hzeros, if_neg (by decide), if_pos rfl] at hx
    cases hx
    rw [unpacked, dif_pos h, signField_eq]
  | normal hk hk0 h =>
    have hne : (exponentField x.toModel).toNat ≠ 2047 := fun e => hk (BitVec.eq_of_toNat_eq e)
    have hne0 : (exponentField x.toModel).toNat ≠ 0 := fun e => hk0 (BitVec.eq_of_toNat_eq e)
    rw [if_neg hne, if_neg hne0] at hx
    cases hx
    have hpos : 0 < Nat.pow 2 52 + (fractionField x.toModel).toNat := h
    rw [unpacked, dif_pos hpos, signField_eq]
    rfl

theorem unpack_positive {x : Float} {p : Binary.Parts} (hx : Binary.decode x = some p)
    (hpositive : p.negative = false) (hmantissa : 0 < p.mantissa) :
    x.toModel.unpack = .finite .positive p.mantissa p.exponent hmantissa := by
  rw [unpack_of_decode hx, unpacked, dif_pos hmantissa, hpositive]
  rfl

/-! ### Comparison -/

/-- Doubles that compare as equal are the same, or both are zero. -/
theorem eq_or_zero_of_compare {u v : UnpackedFloat} (h : u.compare v = some .eq) :
    u = v ∨ ∃ s t, u = .zero s ∧ v = .zero t := by
  have hparts : ∀ {m m' : Nat} {e e' : Int},
      (compare e e').then (compare m m') = .eq → e = e' ∧ m = m' := by
    intro m m' e e' h
    simpa [Ordering.then_eq_eq] using h
  cases u with
  | notANumber => cases h
  | infinity s =>
    cases v with
    | infinity t => cases s <;> cases t <;> first | exact .inl rfl | cases h
    | _ => cases s <;> cases h
  | zero s =>
    cases v with
    | zero t => exact .inr ⟨s, t, rfl, rfl⟩
    | notANumber => cases h
    | infinity t => cases t <;> cases h
    | finite t m e hm => cases t <;> cases h
  | finite s m e hm =>
    cases v with
    | finite t m' e' hm' =>
      cases s with
      | positive =>
        cases t with
        | positive =>
          obtain ⟨rfl, rfl⟩ := hparts (Option.some_inj.1 h)
          exact .inl rfl
        | negative => cases h
      | negative =>
        cases t with
        | positive => cases h
        | negative =>
          -- Numbers below zero compare the other way round.
          have hswap := congrArg Ordering.swap (Option.some_inj.1 h)
          rw [Ordering.swap_swap] at hswap
          obtain ⟨rfl, rfl⟩ := hparts hswap
          exact .inl rfl
    | notANumber => cases h
    | infinity t => cases t <;> cases h
    | zero t => cases s <;> cases h

section

variable {x y : Float} {m : Nat} {e : Int} {h : 0 < m}

theorem beq_self (hx : x.toModel.unpack = .finite .positive m e h) : (x == x) = true := by
  show (x.toModel.unpack.compare x.toModel.unpack == some .eq) = true
  have hself : (UnpackedFloat.finite .positive m e h).compare (.finite .positive m e h) =
      some ((compare e e).then (compare m m)) := rfl
  rw [hx, hself]
  simp

/-- A number that equals a positive one is that number. -/
theorem eq_of_beq (hy : y.toModel.unpack = .finite .positive m e h) (hxy : (x == y) = true) :
    x = y := by
  have hcompare : x.toModel.unpack.compare y.toModel.unpack = some .eq := beq_iff_eq.1 hxy
  obtain hsame | ⟨s, t, -, hzero⟩ := eq_or_zero_of_compare hcompare
  · have hmodel : x.toModel = y.toModel :=
      (of_unpack_finite (hsame.trans hy)).2.symm.trans (of_unpack_finite hy).2
    cases x
    cases y
    exact congrArg _ hmodel
  · rw [hy] at hzero
    cases hzero

theorem unpack_abs {s : Sign} (hx : x.toModel.unpack = .finite s m e h) :
    x.abs.toModel.unpack = .finite .positive m e h := by
  show (Float.Model.pack x.toModel.unpack.abs).unpack = _
  rw [hx]
  exact unpack_pack (of_unpack_finite hx).1 .positive

theorem abs_eq (hx : x.toModel.unpack = .finite .positive m e h) : x.abs = x := by
  show Float.ofModel (Float.Model.pack x.toModel.unpack.abs) = x
  rw [hx]
  exact congrArg Float.ofModel (of_unpack_finite hx).2

theorem neg_abs (hx : x.toModel.unpack = .finite .negative m e h) : -x.abs = x := by
  show Float.ofModel (Float.Model.pack x.abs.toModel.unpack.neg) = x
  rw [unpack_abs hx]
  exact congrArg Float.ofModel (of_unpack_finite hx).2

theorem unpack_zero : (0.0 : Float).toModel.unpack = .zero .positive := by rfl

/-- A finite number that is not at most zero has a mantissa and no sign. -/
theorem positive_of_not_le {p : Binary.Parts} (hx : Binary.decode x = some p) (hpos : ¬ x ≤ 0.0) :
    p.negative = false ∧ 0 < p.mantissa := by
  have hle : x ≤ 0.0 ↔
      (x.toModel.unpack.compare (0.0 : Float).toModel.unpack).any (·.isLE) = true :=
    decide_eq_true_iff
  have hcompare := mt hle.2 hpos
  rw [unpack_zero, unpack_of_decode hx, unpacked] at hcompare
  by_cases hp : 0 < p.mantissa
  · rw [dif_pos hp] at hcompare
    cases hn : p.negative with
    | true =>
      rw [hn] at hcompare
      exact absurd rfl hcompare
    | false => exact ⟨rfl, hp⟩
  · rw [dif_neg hp] at hcompare
    exact absurd rfl hcompare

end

theorem compare_zero (w : UnpackedFloat) (s t : Sign) :
    w.compare (.zero s) = w.compare (.zero t) := by
  cases w with
  | notANumber => rfl
  | infinity r => cases r <;> rfl
  | zero r => rfl
  | finite r m e h => cases r <;> rfl

/-- Doubles that are equal are equal to the same doubles. -/
theorem beq_congr {x y : Float} (hxy : (x == y) = true) (z : Float) : (z == x) = (z == y) := by
  have hcompare : x.toModel.unpack.compare y.toModel.unpack = some .eq :=
    beq_iff_eq.1 hxy
  show (z.toModel.unpack.compare x.toModel.unpack == some .eq) =
    (z.toModel.unpack.compare y.toModel.unpack == some .eq)
  obtain h | ⟨s, t, hx, hy⟩ := eq_or_zero_of_compare hcompare
  · rw [h]
  · rw [hx, hy, compare_zero _ s t]

/-- Doubles are equal in either order. -/
theorem beq_comm (x y : Float) : (x == y) = (y == x) := by
  have hswap : ∀ {x y : Float}, (x == y) = true → (y == x) = true := by
    intro x y hxy
    have hcompare : x.toModel.unpack.compare y.toModel.unpack = some .eq := beq_iff_eq.1 hxy
    show (y.toModel.unpack.compare x.toModel.unpack == some .eq) = true
    obtain h | ⟨s, t, hx, hy⟩ := eq_or_zero_of_compare hcompare
    · rw [h] at hcompare ⊢
      rw [hcompare]
      rfl
    · rw [hx, hy]
      rfl
  exact Bool.eq_iff_iff.2 ⟨hswap, hswap⟩

/-- A finite number without a mantissa is zero. -/
theorem beq_zero_of_decode {x : Float} {p : Binary.Parts} (hx : Binary.decode x = some p)
    (hm : p.mantissa = 0) : (x == 0.0) = true := by
  show (x.toModel.unpack.compare (0.0 : Float).toModel.unpack == some .eq) = true
  rw [unpack_zero, unpack_of_decode hx, unpacked, dif_neg hm.not_gt]
  rfl

/-- What equals zero is one of the two zeros. -/
theorem eq_zero_of_beq {x : Float} (hx : (x == 0.0) = true) : x = 0.0 ∨ x = -0.0 := by
  have hcompare : x.toModel.unpack.compare (0.0 : Float).toModel.unpack = some .eq :=
    beq_iff_eq.1 hx
  rw [unpack_zero] at hcompare
  obtain ⟨s, hs⟩ : ∃ s, x.toModel.unpack = .zero s := by
    obtain h | ⟨s, t, hs, -⟩ := eq_or_zero_of_compare hcompare
    · exact ⟨_, h⟩
    · exact ⟨s, hs⟩
  have hx : x = Float.ofModel (Float.Model.pack (.zero s)) :=
    congrArg Float.ofModel (of_unpack_zero hs).symm
  cases s with
  | positive => exact .inl hx
  | negative => exact .inr hx

end PageExtract.Double
