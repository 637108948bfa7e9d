/-
Numbers written and read.

A finite double is written with the digits of a decimal that the double is read from, positionally
or with an exponent. Seventeen digits are always enough, so such a decimal is found. Reading the
text gives the double back:

* `Writes`, `writes_decimalText` — the text of a decimal writes its value;
* `pow_magnitude_le`, `near_neighbours` — a number between the neighbours on a grid;
* `exists_shortest` — a decimal that is read as a double is found for it;
* `Plain`, `readNumber_text` — a double is read from its text.
-/
import Mathlib.Data.Rat.Lemmas
import PageExtract.Number.Basic
import PageExtract.Proofs.Number.Decimal
import PageExtract.Proofs.Number.Numeral

namespace PageExtract

open Shortest (natDigits dropZeros layOut decimalText)

namespace Numeral

/-! ### Texts of decimals -/

/-- A text is a numeral that writes a number. -/
def Writes (cs : List Char) (q : ℚ) : Prop :=
  ∃ ws fs e, cs = ws ++ (pointed fs ++ powerText e) ∧ (∀ c ∈ ws, c.isDigit = true) ∧ ws ≠ [] ∧
    (ws.head? = some '0' → ws.length = 1) ∧ (∀ c ∈ fs, c.isDigit = true) ∧
    (⟨natOfDigits (ws ++ fs), e - fs.length⟩ : Decimal).value = q

/-- What writes the value of a decimal is read as the decimal is. -/
theorem Writes.readUnsigned {cs : List Char} {d : Decimal} (h : Writes cs d.value)
    {rest : List Char} (hrest : Ended rest) :
    Json.readUnsigned? (cs ++ rest) = some (d.toFloat, rest) := by
  obtain ⟨ws, fs, e, rfl, hws, hne, hlead, hfs, hvalue⟩ := h
  rw [List.append_assoc, List.append_assoc, Json.readUnsigned_numeral hws hne hlead hfs hrest,
    Double.toFloat_congr hvalue]

/-- What writes a number begins with a digit. -/
theorem Writes.head {cs : List Char} {q : ℚ} (h : Writes cs q) :
    ∃ c cs', cs = c :: cs' ∧ c.isDigit = true := by
  obtain ⟨ws, fs, e, rfl, hws, hne, -, -, -⟩ := h
  obtain ⟨c, more, rfl⟩ := List.exists_cons_of_ne_nil hne
  exact ⟨c, _, rfl, hws c List.mem_cons_self⟩

theorem Writes.readNumber {cs : List Char} {d : Decimal} (h : Writes cs d.value)
    {rest : List Char} (hrest : Ended rest) :
    Json.readNumber? (cs ++ rest) = some (d.toFloat, rest) := by
  rw [← h.readUnsigned hrest]
  obtain ⟨c, cs', rfl, hc⟩ := h.head
  exact Json.readNumber_digit hc _

/-- Zeros before digits count for nothing. -/
theorem natOfDigits_zeros_append (z : Nat) (cs : List Char) :
    natOfDigits (List.replicate z '0' ++ cs) = natOfDigits cs := by
  induction z with
  | zero => rfl
  | succ z ih => exact ih

/-- Zeros at the end of the digits count for the exponent. -/
theorem value_mul_pow (n z : Nat) (e : Int) :
    (⟨n * 10 ^ z, e⟩ : Decimal).value = (⟨n, e + z⟩ : Decimal).value := by
  unfold Decimal.value
  rw [zpow_add₀ (by norm_num), zpow_natCast]
  push_cast
  ring

theorem isDigit_of_mem_zeros (z : Nat) : ∀ c ∈ List.replicate z '0', c.isDigit = true := by
  intro c hc
  rw [List.eq_of_mem_replicate hc]
  rfl

section

variable {d : Char} {ds : List Char} (hds : ∀ c ∈ d :: ds, c.isDigit = true)

include hds

/-- Digits with zeros before them, after a point. -/
theorem writes_fraction (z : Nat) :
    Writes ('0' :: '.' :: List.replicate z '0' ++ d :: ds)
      (⟨natOfDigits (d :: ds), -z - (d :: ds).length⟩ : Decimal).value := by
  refine ⟨['0'], List.replicate z '0' ++ d :: ds, 0, by simp [pointed, powerText],
    isDigit_of_mem_zeros 1, List.cons_ne_nil _ _, fun _ => rfl,
    List.forall_mem_append.2 ⟨isDigit_of_mem_zeros z, hds⟩, ?_⟩
  have hvalue : natOfDigits (['0'] ++ (List.replicate z '0' ++ d :: ds)) = natOfDigits (d :: ds) :=
    natOfDigits_zeros_append (z + 1) (d :: ds)
  rw [hvalue, List.length_append, List.length_replicate]
  congr 2
  push_cast
  ring

/-- A digit, the others after a point, and an exponent. -/
theorem writes_power (e : Int) :
    Writes ([d] ++ (pointed ds ++ powerText e))
      (⟨natOfDigits (d :: ds), e + 1 - (d :: ds).length⟩ : Decimal).value := by
  refine ⟨[d], ds, e, rfl, ?_, List.cons_ne_nil _ _, fun _ => rfl,
    fun c hc => hds c (List.mem_cons_of_mem d hc), ?_⟩
  · exact List.forall_mem_singleton.2 (hds d List.mem_cons_self)
  · rw [List.singleton_append, List.length_cons]
    congr 2
    push_cast
    ring

variable (hd : d ≠ '0')

include hd

/-- Digits with zeros after them. -/
theorem writes_zeros (z : Nat) :
    Writes (d :: ds ++ List.replicate z '0') (⟨natOfDigits (d :: ds), z⟩ : Decimal).value := by
  refine ⟨d :: ds ++ List.replicate z '0', [], 0, by simp [pointed, powerText],
    List.forall_mem_append.2 ⟨hds, isDigit_of_mem_zeros z⟩, List.cons_ne_nil _ _,
    fun h => absurd (Option.some_inj.1 h) hd, List.forall_mem_nil _, ?_⟩
  rw [List.append_nil, natOfDigits_append_zeros, value_mul_pow]
  congr 2
  simp

/-- Digits with a point between them. -/
theorem writes_point {k : Nat} (hk : k < ds.length) :
    Writes (d :: ds.take k ++ '.' :: ds.drop k)
      (⟨natOfDigits (d :: ds), (k + 1 : Nat) - (d :: ds).length⟩ : Decimal).value := by
  have hempty : (ds.drop k).isEmpty = false := by
    rw [List.isEmpty_eq_false_iff, Ne, List.drop_eq_nil_iff]
    omega
  refine ⟨d :: ds.take k, ds.drop k, 0, by simp [pointed, powerText, hempty],
    fun c hc => hds c (List.mem_of_mem_take (i := k + 1) hc), List.cons_ne_nil _ _,
    fun h => absurd (Option.some_inj.1 h) hd,
    fun c hc => hds c (List.mem_cons_of_mem d (List.mem_of_mem_drop hc)), ?_⟩
  rw [List.cons_append, List.take_append_drop, List.length_drop, List.length_cons]
  congr 2
  omega

/-- Digits are laid out as a numeral that writes their value with the point in its place. -/
theorem writes_layOut (point : Int) :
    Writes (layOut (d :: ds) point)
      (⟨natOfDigits (d :: ds), point - (d :: ds).length⟩ : Decimal).value := by
  unfold layOut
  simp only
  split
  · obtain ⟨z, rfl⟩ : ∃ z : Nat, point = (d :: ds).length + z :=
      ⟨(point - (d :: ds).length).toNat, by omega⟩
    rw [add_sub_cancel_left, Int.toNat_natCast]
    exact writes_zeros hds hd z
  · split
    · rename_i hlong hpoint
      obtain ⟨k, rfl⟩ : ∃ k : Nat, point = (k + 1 : Nat) := ⟨(point - 1).toNat, by omega⟩
      simp only [List.length_cons] at hlong
      exact writes_point hds hd (by omega)
    · split
      · obtain ⟨z, rfl⟩ : ∃ z : Nat, point = -(z : Int) := ⟨(-point).toNat, by omega⟩
        rw [Int.neg_neg, Int.toNat_natCast]
        exact writes_fraction hds z
      · rename_i hlong _ _
        have hnonzero : ¬ point - 1 = 0 := by
          simp only [List.length_cons] at hlong
          omega
        have hpower : (if point - 1 < 0 then ['e', '-'] else ['e', '+']) ++
            natDigits (point - 1).natAbs = powerText (point - 1) := by
          unfold powerText
          rw [if_neg hnonzero]
          split <;> rfl
        have hwrites := writes_power hds (point - 1)
        rw [sub_add_cancel] at hwrites
        rw [hpower]
        cases ds with
        | nil => exact hwrites
        | cons c cs => exact hwrites

end

end Numeral

namespace Shortest

open Numeral

/-- Zeros that are dropped stood at the end. -/
theorem dropZeros_append (ds : List Char) :
    ∃ z, dropZeros ds ++ List.replicate z '0' = ds := by
  refine ⟨(ds.reverse.takeWhile (· == '0')).length, ?_⟩
  have hzeros : ds.reverse.takeWhile (· == '0') =
      List.replicate (ds.reverse.takeWhile (· == '0')).length '0' :=
    List.eq_replicate_of_mem fun c hc => by
      simpa using List.all_eq_true.1 (List.all_takeWhile (p := (· == '0')) (l := ds.reverse)) c hc
  have hsplit : (ds.reverse.takeWhile (· == '0') ++ ds.reverse.dropWhile (· == '0')).reverse =
      ds := by
    rw [List.takeWhile_append_dropWhile, List.reverse_reverse]
  rw [List.reverse_append, hzeros, List.reverse_replicate] at hsplit
  exact hsplit

/-- The digits of a positive number without the zeros at the end. -/
theorem exists_dropZeros {m : Nat} (hm : 0 < m) :
    ∃ d ms z, d ≠ '0' ∧ dropZeros (natDigits m) = d :: ms ∧
      d :: ms ++ List.replicate z '0' = natDigits m := by
  obtain ⟨z, hz⟩ := dropZeros_append (natDigits m)
  obtain ⟨d, more, hhead, hd⟩ := head_natDigits hm
  rw [hhead] at hz
  cases hdrop : dropZeros (d :: more) with
  | nil =>
    rw [hdrop, List.nil_append] at hz
    exact absurd (List.eq_of_mem_replicate (hz ▸ List.mem_cons_self)) hd
  | cons c cs =>
    rw [hdrop] at hz
    obtain rfl : c = d := (List.cons.inj hz).1
    exact ⟨c, cs, z, hd, hhead ▸ hdrop, hhead ▸ hz⟩

/-- The text of a decimal writes its value. -/
theorem writes_decimalText {d : Decimal} (hd : 0 < d.digits) : Writes (decimalText d) d.value := by
  obtain ⟨c, ms, z, hc, hms, hz⟩ := exists_dropZeros hd
  have hdigits : ∀ c' ∈ c :: ms, c'.isDigit = true := fun c' hc' =>
    isDigit_of_mem_natDigits (hz ▸ List.mem_append_left _ hc')
  have hnumber : d.digits = natOfDigits (c :: ms) * 10 ^ z := by
    rw [← natOfDigits_append_zeros, hz, natOfDigits_natDigits]
  have hvalue : d.value = (⟨natOfDigits (c :: ms), d.exponent + z⟩ : Decimal).value := by
    rw [← value_mul_pow, ← hnumber]
  have hpoint : (natDigits d.digits).length + d.exponent - (c :: ms).length = d.exponent + z := by
    rw [← hz, List.length_append, List.length_replicate]
    push_cast
    ring
  unfold decimalText
  simp only [hms]
  rw [hvalue, ← hpoint]
  exact writes_layOut hdigits hc _

/-! ### The shortest decimal -/

/-- A positive fraction is not below the power of ten that its magnitude gives. -/
theorem pow_magnitude_le {num den : Nat} (hnum : 0 < num) (hden : 0 < den) :
    (10 : ℚ) ^ (magnitude num den - 1) ≤ num / den := by
  have hnum' : (0 : ℚ) < num := by exact_mod_cast hnum
  have hden' : (0 : ℚ) < den := by exact_mod_cast hden
  unfold magnitude
  split
  · rename_i hle
    obtain ⟨hlow, -⟩ := Decimal.pow_length_toDigits (Nat.div_pos hle hden)
    obtain ⟨k, hk⟩ : ∃ k, (natDigits (num / den)).length = k + 1 :=
      ⟨_, (Nat.sub_add_cancel Nat.length_toDigits_pos).symm⟩
    unfold natDigits at hk ⊢
    rw [hk] at hlow ⊢
    rw [Nat.cast_add_one, add_sub_cancel_right, zpow_natCast, le_div_iff₀ hden']
    exact_mod_cast (Nat.le_div_iff_mul_le hden).1 hlow
  · rename_i hlt
    obtain ⟨-, hhigh⟩ := Decimal.pow_length_toDigits (Nat.div_pos (by omega) hnum : 0 < den / num)
    simp only
    unfold natDigits
    obtain ⟨j, hj⟩ : ∃ j, (Nat.toDigits 10 (den / num)).length = j + 1 :=
      ⟨_, (Nat.sub_add_cancel Nat.length_toDigits_pos).symm⟩
    rw [hj] at hhigh ⊢
    have hpow : ∀ k, Nat.pow 10 k = 10 ^ k := fun _ => rfl
    rw [Nat.add_sub_cancel, hpow]
    split
    · rename_i heq
      have hexponent : (2 - ((j + 1 : Nat) : Int) - 1) = -(j : Int) := by
        push_cast
        ring
      rw [hexponent, zpow_neg, zpow_natCast, le_div_iff₀ hden', ← beq_iff_eq.1 heq]
      push_cast
      rw [mul_left_comm, inv_mul_cancel₀ (by positivity), mul_one]
    · have hexponent : (1 - ((j + 1 : Nat) : Int) - 1) = -((j + 1 : Nat) : Int) := by
        push_cast
        ring
      rw [hexponent, zpow_neg, zpow_natCast, le_div_iff₀ hden', inv_mul_le_iff₀ (by positivity)]
      exact_mod_cast ((Nat.div_lt_iff_lt_mul hnum).1 hhigh).le

theorem scaled_pos (num : Nat) {den : Nat} (hden : 0 < den) (e : Int) :
    0 < (scaled num den e).2 := by
  unfold scaled
  split
  · exact Nat.mul_pos hden (Nat.pow_pos (by decide))
  · exact hden

theorem value_scaled (num : Nat) {den : Nat} (hden : 0 < den) (e : Int) :
    ((scaled num den e).1 / (scaled num den e).2 : ℚ) * 10 ^ e = num / den := by
  have hpow : ∀ k, Nat.pow 10 k = 10 ^ k := fun _ => rfl
  have hden' : (den : ℚ) ≠ 0 := by exact_mod_cast hden.ne'
  unfold scaled
  split
  · rename_i h
    obtain ⟨k, rfl⟩ := Int.eq_ofNat_of_zero_le h
    rw [Int.toNat_natCast, hpow, zpow_natCast]
    push_cast
    field_simp
  · rename_i h
    obtain ⟨k, hk⟩ := Int.eq_ofNat_of_zero_le (a := -e) (by omega)
    obtain rfl : e = -(k : Int) := by omega
    rw [Int.neg_neg, Int.toNat_natCast, hpow, zpow_neg, zpow_natCast]
    push_cast
    field_simp

/-- The first of the neighbours on a grid is at most half a step away. -/
theorem near_neighbours (num : Nat) {den : Nat} (hden : 0 < den) (e : Int) :
    ∃ d more, neighbours num den e = d :: more ∧ |d.value - num / den| ≤ 10 ^ e / 2 := by
  have hpos := scaled_pos num hden e
  rw [← value_scaled num hden e]
  unfold neighbours
  generalize scaled num den e = p at hpos ⊢
  obtain ⟨n, d⟩ := p
  simp only at hpos ⊢
  have hd : (0 : ℚ) < d := by exact_mod_cast hpos
  have hpow : (0 : ℚ) < 10 ^ e := zpow_pos (by norm_num) e
  have hsplit : (n / d : ℚ) = (n / d : Nat) + (n % d : Nat) / d := by
    have hn : (n : ℚ) = d * (n / d : Nat) + (n % d : Nat) := by
      exact_mod_cast (Nat.div_add_mod n d).symm
    rw [hn, add_div, mul_div_cancel_left₀ _ hd.ne']
  have hdistance : ∀ k : Nat, |(⟨k, e⟩ : Decimal).value - n / d * 10 ^ e| =
      |(k : ℚ) - n / d| * 10 ^ e := fun k => by
    rw [Decimal.value, ← sub_mul, abs_mul, abs_of_pos hpow]
  have hfraction : (0 : ℚ) ≤ (n % d : Nat) / d := by positivity
  have hbelow : ((n % d : Nat) / d : ℚ) < 1 := by
    rw [div_lt_one hd]
    exact_mod_cast Nat.mod_lt n hpos
  split
  · rename_i hlow
    refine ⟨_, _, rfl, ?_⟩
    have hhalf : ((n % d : Nat) / d : ℚ) ≤ 1 / 2 := by
      rw [div_le_iff₀ hd]
      have htwice : 2 * (n % d) ≤ d := by
        simp only [Bool.or_eq_true, decide_eq_true_eq, Bool.and_eq_true, beq_iff_eq] at hlow
        omega
      have : (2 * (n % d : Nat) : ℚ) ≤ d := by exact_mod_cast htwice
      linarith
    rw [hdistance, hsplit, abs_sub_comm, add_sub_cancel_left, abs_of_nonneg hfraction]
    nlinarith
  · rename_i hhigh
    refine ⟨_, _, rfl, ?_⟩
    have hhalf : (1 / 2 : ℚ) ≤ (n % d : Nat) / d := by
      rw [le_div_iff₀ hd]
      have htwice : d ≤ 2 * (n % d) := by
        simp only [Bool.or_eq_true, decide_eq_true_eq, Bool.and_eq_true, beq_iff_eq] at hhigh
        omega
      have : (d : ℚ) ≤ 2 * (n % d : Nat) := by exact_mod_cast htwice
      linarith
    have hrest : (((n / d + 1 : Nat) : ℚ)) - n / d = 1 - (n % d : Nat) / d := by
      rw [hsplit]
      push_cast
      ring
    rw [hdistance, hrest, abs_of_pos (by linarith)]
    nlinarith

/-- For a fraction that is read from any decimal close to it, a decimal is found. -/
theorem exists_shortest {num den : Nat} (hnum : 0 < num) (hden : 0 < den) {back : Decimal → Bool}
    (hback : ∀ d : Decimal, 2 * 10 ^ 16 * |d.value - num / den| ≤ num / den → back d = true) :
    ∃ d, shortest num den back = some d ∧ back d = true := by
  obtain ⟨d, more, hfirst, hnear⟩ :=
    near_neighbours num hden (magnitude num den - ((16 : Nat) + 1))
  -- On the grid of seventeen digits the nearer neighbour is close enough.
  have haccepted : back d = true := by
    refine hback d ?_
    have hlow := pow_magnitude_le hnum hden
    have hstep : (10 : ℚ) ^ (magnitude num den - ((16 : Nat) + 1)) * 10 ^ 16 =
        10 ^ (magnitude num den - 1) := by
      rw [← zpow_natCast (10 : ℚ) 16, ← zpow_add₀ (by norm_num)]
      congr 1
      push_cast
      ring
    calc 2 * 10 ^ 16 * |d.value - num / den|
        ≤ 2 * 10 ^ 16 * (10 ^ (magnitude num den - ((16 : Nat) + 1)) / 2) := by gcongr
      _ = 10 ^ (magnitude num den - 1) := by
        rw [← hstep]
        ring
      _ ≤ num / den := hlow
  cases hfound : shortest num den back with
  | none =>
    have hnone := List.findSome?_eq_none_iff.1 hfound 16 (List.mem_range.2 (by decide))
    rw [hfirst, List.find?_cons_of_pos haccepted] at hnone
    cases hnone
  | some d' =>
    obtain ⟨n, -, hn⟩ := List.exists_of_findSome?_eq_some hfound
    exact ⟨d', rfl, List.find?_some hn⟩

end Shortest

namespace Double

open Numeral Shortest Float.Model Float.Model.UnpackedFloat

/-! ### Doubles -/

/-- A finite number, but not the zero that has a sign. -/
def Plain (x : Float) : Prop :=
  ∃ p, Binary.decode x = some p ∧ (p.mantissa = 0 → p.negative = false)

theorem isFinite_of_isInteger {x : Float} (hx : Numeric.isInteger x = true) :
    Numeric.isFinite x = true := by
  unfold Numeric.isInteger at hx
  unfold Numeric.isFinite
  split at hx
  · rename_i h
    rw [h]
    rfl
  · cases hx

/-- A finite number above zero is plain. -/
theorem plain_of_positive {x : Float} (hfinite : Numeric.isFinite x = true)
    (hpos : ¬ x ≤ (0.0 : Float)) : Plain x := by
  obtain ⟨q, hq⟩ := Option.isSome_iff_exists.1 hfinite
  obtain ⟨p, hdecode, -⟩ := Option.map_eq_some_iff.1 hq
  exact ⟨p, hdecode, fun _ => (positive_of_not_le hdecode hpos).1⟩

theorem isFinite_of_decode {x : Float} {p : Binary.Parts} (hx : Binary.decode x = some p) :
    Numeric.isFinite x = true := by
  have hexact : Numeric.exact x = some p.toRat := congrArg (Option.map _) hx
  rw [Numeric.isFinite, hexact]
  rfl

theorem numerator_pos {p : Binary.Parts} (hp : 0 < p.mantissa) : 0 < p.fraction.1 := by
  unfold Binary.Parts.fraction
  split
  · exact Nat.mul_pos hp (Nat.two_pow_pos _)
  · exact hp

/-- A finite number other than zero is written as a decimal that its absolute value is read from. -/
theorem number_eq {x : Float} {p : Binary.Parts} (hx : Binary.decode x = some p)
    (hm : 0 < p.mantissa) :
    ∃ d : Decimal, 0 < d.digits ∧ d.toFloat = x.abs ∧
      Json.number x = if p.negative then '-' :: decimalText d else decimalText d := by
  have habs : x.abs.toModel.unpack = .finite .positive p.mantissa p.exponent hm := by
    refine unpack_abs (s := if p.negative then .negative else .positive) ?_
    rw [unpack_of_decode hx, unpacked, dif_pos hm]
  have hnear : ∀ d : Decimal, 2 * 10 ^ 16 * |d.value - p.fraction.1 / p.fraction.2| ≤
      p.fraction.1 / p.fraction.2 → (d.toFloat == x.abs) = true := by
    intro d hd
    rw [value_fraction] at hd
    rw [toFloat_near habs hd]
    exact beq_self habs
  obtain ⟨d, hshortest, hback⟩ := exists_shortest (numerator_pos hm) (fraction_pos p) hnear
  have hread : d.toFloat = x.abs := eq_of_beq habs hback
  refine ⟨d, Nat.pos_of_ne_zero fun h0 => ?_, hread, ?_⟩
  · have hzero : d.toFloat = 0.0 := by
      unfold Decimal.toFloat
      simp only [h0, beq_self_eq_true, ↓reduceIte]
    rw [← hread, hzero, unpack_zero] at habs
    cases habs
  · have hnonzero : (p.mantissa == 0) = false := by simpa using hm.ne'
    have htext : Numeric.text x = floatText x := rfl
    rw [Json.number, isFinite_of_decode hx, if_pos rfl, htext, floatText, hx]
    simp only [hnonzero, hshortest, Bool.false_eq_true, ↓reduceIte, String.toList_ofList]

/-- Zero is written as a digit. -/
theorem number_zero {x : Float} {p : Binary.Parts} (hx : Binary.decode x = some p)
    (hm : p.mantissa = 0) : Json.number x = ['0'] := by
  have htext : Numeric.text x = floatText x := rfl
  rw [Json.number, isFinite_of_decode hx, if_pos rfl, htext, floatText, hx]
  simp only [hm, beq_self_eq_true, ↓reduceIte]
  rfl

theorem writes_zero : Writes ['0'] (⟨0, 0⟩ : Decimal).value :=
  ⟨['0'], [], 0, rfl, isDigit_of_mem_zeros 1, List.cons_ne_nil _ _, fun _ => rfl,
    List.forall_mem_nil _, rfl⟩

/-- The text of a plain number is read as that number, whatever follows it. -/
theorem readNumber_text {x : Float} (hx : Plain x) {rest : List Char} (hrest : Ended rest) :
    Json.readNumber? (Json.number x ++ rest) = some (x, rest) := by
  obtain ⟨p, hdecode, hsign⟩ := hx
  by_cases hm : 0 < p.mantissa
  · obtain ⟨d, hd, hread, htext⟩ := number_eq hdecode hm
    have hunpack := unpack_of_decode hdecode
    rw [unpacked, dif_pos hm] at hunpack
    have hbody := (writes_decimalText hd).readUnsigned hrest
    cases hn : p.negative with
    | true =>
      rw [hn, if_pos rfl] at htext hunpack
      rw [htext, List.cons_append, Json.readNumber?, hbody, hread]
      exact congrArg (fun y => some (y, rest)) (neg_abs hunpack)
    | false =>
      rw [hn, if_neg Bool.false_ne_true] at htext hunpack
      rw [htext, (writes_decimalText hd).readNumber hrest, hread, abs_eq hunpack]
  · have hzero : p.mantissa = 0 := Nat.eq_zero_of_not_pos hm
    have hunpack := unpack_of_decode hdecode
    rw [unpacked, dif_neg hm, hsign hzero] at hunpack
    have hx : x = 0.0 :=
      congrArg Float.ofModel ((of_unpack_zero hunpack).symm.trans (of_unpack_zero unpack_zero))
    rw [number_zero hdecode hzero, writes_zero.readNumber hrest, hx]
    rfl

end Double

end PageExtract
