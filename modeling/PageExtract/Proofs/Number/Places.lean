/-
Numbers with a fixed number of decimal places.

A number that is not negative is rounded to units of its last place, a half upwards. Its text has
the digits of these units with a point before the last places, so that it tells how many units there
are:

* `placeUnits`, `roundPlaces_eq` — the units of the last place;
* `placesText_inj`, `mem_placesText` — the texts of different numbers of units, and what they are
  made of;
* `placed_eq`, `placed_eq_iff` — numbers with the same text.
-/
import Mathlib.Data.Rat.Floor
import Mathlib.Tactic.FieldSimp
import PageExtract.Number.Basic
import PageExtract.Proofs.Number.ReadBack

namespace PageExtract.Shortest

open Numeral

/-! ### Rounding -/

/-- How many units of the last of some decimal places a number is rounded to, a half upwards. -/
def placeUnits (places : Nat) (q : ℚ) : ℤ := ⌊10 ^ places * q + 1 / 2⌋

theorem natAbs_num {q : ℚ} (hq : 0 ≤ q) : (q.num.natAbs : ℚ) = q.num := by
  rw [Nat.cast_natAbs, abs_of_nonneg (Rat.num_nonneg.2 hq)]

theorem roundPlaces_eq (places : Nat) {q : ℚ} (hq : 0 ≤ q) :
    (roundPlaces places q.num.natAbs q.den : ℤ) = placeUnits places q := by
  have hden : (q.den : ℚ) ≠ 0 := by exact_mod_cast q.den_nz
  have hsplit : 10 ^ places * q + 1 / 2 =
      ((2 * 10 ^ places * q.num.natAbs + q.den : Nat) : ℚ) / ((2 * q.den : Nat) : ℚ) := by
    push_cast
    rw [natAbs_num hq]
    nth_rewrite 1 [← Rat.num_div_den q]
    field_simp
  have hpow : Nat.pow 10 places = 10 ^ places := rfl
  unfold placeUnits roundPlaces
  rw [hsplit, Rat.floor_natCast_div_natCast, hpow]
  rfl

/-! ### Texts -/

/-- A text with decimal places is made of digits and a point. -/
theorem mem_placesText {places n : Nat} {c : Char} (hc : c ∈ placesText places n) :
    c.isDigit = true ∨ c = '.' := by
  unfold placesText at hc
  simp only [List.mem_append, List.mem_cons] at hc
  obtain hc | rfl | hc | hc := hc
  · exact .inl (isDigit_of_mem_natDigits hc)
  · exact .inr rfl
  · exact .inl (isDigit_of_mem_zeros _ c hc)
  · exact .inl (isDigit_of_mem_natDigits hc)

/-- The number of units is read off its text. -/
theorem placesText_inj {places m n : Nat} (h : placesText places m = placesText places n) :
    m = n := by
  unfold placesText at h
  simp only at h
  -- The digits before the places end where the point stands.
  have hdigits := congrArg digits h
  rw [digits_run _ _ (fun _ => isDigit_of_mem_natDigits) (by simp),
    digits_run _ _ (fun _ => isDigit_of_mem_natDigits) (by simp)] at hdigits
  simp only [Prod.mk.injEq, List.cons.injEq, true_and] at hdigits
  obtain ⟨hwhole, hfraction⟩ := hdigits
  have hquotient : m / Nat.pow 10 places = n / Nat.pow 10 places := by
    have hvalue := congrArg natOfDigits hwhole
    rwa [natOfDigits_natDigits, natOfDigits_natDigits] at hvalue
  have hremainder : m % Nat.pow 10 places = n % Nat.pow 10 places := by
    have hvalue := congrArg natOfDigits hfraction
    rwa [natOfDigits_zeros_append, natOfDigits_zeros_append, natOfDigits_natDigits,
      natOfDigits_natDigits] at hvalue
  rw [← Nat.div_add_mod m (Nat.pow 10 places), hquotient, hremainder, Nat.div_add_mod]

end PageExtract.Shortest

namespace PageExtract.Numeric

open Shortest

variable {ν : Type} [Numeric ν] {x y : ν} {q r : ℚ}

/-- A number that is not negative and not too large is written with its places. -/
theorem placed_eq (places : Nat) (hx : exact x = some q) (hq : 0 ≤ q) (hlt : q < 10 ^ 21) :
    placed places x =
      String.ofList (placesText places (roundPlaces places q.num.natAbs q.den)) := by
  have hsmall : q.num.natAbs < Nat.pow 10 21 * q.den := by
    have hden : (0 : ℚ) < q.den := by exact_mod_cast q.den_pos
    rw [← Rat.num_div_den q, div_lt_iff₀ hden, ← natAbs_num hq] at hlt
    exact_mod_cast hlt
  unfold placed
  simp only [hx]
  rw [if_pos hsmall, fixed, if_neg hq.not_gt]

/-- Two such numbers have the same text exactly if they are rounded to the same number. -/
theorem placed_eq_iff (places : Nat) (hx : exact x = some q) (hy : exact y = some r) (hq : 0 ≤ q)
    (hr : 0 ≤ r) (hqlt : q < 10 ^ 21) (hrlt : r < 10 ^ 21) :
    placed places x = placed places y ↔ placeUnits places q = placeUnits places r := by
  rw [placed_eq places hx hq hqlt, placed_eq places hy hr hrlt, ← roundPlaces_eq places hq,
    ← roundPlaces_eq places hr, Int.natCast_inj, String.ofList_inj]
  exact ⟨placesText_inj, fun h => congrArg _ h⟩

end PageExtract.Numeric
