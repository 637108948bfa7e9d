/-
Numerals in expressions.

The text of a number without a sign is one numeral, which is cut off from what follows it and writes
that number:

* `scan?_numeral`, `read_numeral` — a numeral is cut off as a whole and read as its decimal;
* `scan?_whole`, `scan?_pointed` — what is cut off without an exponent, also before a second point;
* `Writes.scan?`, `Writes.read` — the same for a text that writes a number;
* `Double.exists_decode` — a positive finite double has parts;
* `Double.writes_ofNat` — the text of a whole number below 2⁵³ writes that number.
-/
import Mathlib
import PageExtract.Proofs.Number.Finite
import PageExtract.Proofs.Number.ReadBack

namespace PageExtract

namespace Numeral

/-! ### Cutting off numerals -/

section

variable {ws fs : List Char} {e : Int} (hws : ∀ c ∈ ws, c.isDigit = true) (hne : ws ≠ [])
  (hfs : ∀ c ∈ fs, c.isDigit = true)

include hws hne hfs

/-- A numeral is cut off as a whole, whatever follows it. -/
theorem scan?_numeral {rest : List Char} (hrest : Ended rest) :
    scan? (ws ++ (pointed fs ++ (powerText e ++ rest))) =
      some (ws ++ (pointed fs ++ powerText e), rest) := by
  obtain ⟨d, more, rfl⟩ := List.exists_cons_of_ne_nil hne
  have hpower := head_powerText e fun c hc => ⟨(hrest c hc).1, (hrest c hc).2.1⟩
  have hwhole := digits_run (d :: more) (pointed fs ++ (powerText e ++ rest)) hws
    (head_pointed fs fun c hc => (hpower c hc).1)
  have hscan := Json.scanExponent_powerText e hrest
  unfold scan?
  rw [hwhole]
  -- Without a fraction there is no point, and the power is not taken for one.
  cases fs with
  | nil =>
    have hpart : pointed [] ++ (powerText e ++ rest) = powerText e ++ rest := rfl
    rw [hpart]
    simp only
    split
    · rename_i hnil _
      cases hnil
    · rename_i hnil _
      cases hnil
    · rename_i heq _
      exact absurd rfl (hpower '.' (by rw [heq]; rfl)).2
    · rw [hscan]
      rfl
  | cons f fs =>
    have hpart : pointed (f :: fs) ++ (powerText e ++ rest) =
        '.' :: (f :: fs ++ (powerText e ++ rest)) := rfl
    have hrun := digits_run (f :: fs) (powerText e ++ rest) hfs fun c hc => (hpower c hc).1
    rw [hpart]
    simp only [hrun, hscan, List.append_assoc]
    rfl

/-- A numeral is read as its decimal. -/
theorem read_numeral : (read (ws ++ (pointed fs ++ powerText e))).toFloat =
    (⟨natOfDigits (ws ++ fs), e - fs.length⟩ : Decimal).toFloat := by
  rw [← toFloat_numeral hws hne hfs, List.append_assoc]
  obtain ⟨d, more, rfl⟩ := List.exists_cons_of_ne_nil hne
  rw [List.cons_append, toFloat, sign_digit (hws d List.mem_cons_self)]
  rfl

end

section

variable {ws fs : List Char} (hws : ∀ c ∈ ws, c.isDigit = true) (hne : ws ≠ [])

include hws hne

theorem scan?_whole {rest : List Char} (hrest : Ended rest) :
    scan? (ws ++ rest) = some (ws, rest) := by
  simpa [pointed, powerText] using
    scan?_numeral (e := 0) hws hne (List.forall_mem_nil _) hrest

theorem read_whole : (read ws).toFloat = (⟨natOfDigits ws, 0⟩ : Decimal).toFloat := by
  simpa [pointed, powerText] using read_numeral (e := 0) hws hne (List.forall_mem_nil _)

variable (hfs : ∀ c ∈ fs, c.isDigit = true)

include hfs

/-- The first point belongs to a numeral, and a second one does not. -/
theorem scan?_pointed {rest : List Char}
    (hrest : ∀ c ∈ rest.head?, c.isDigit = false ∧ isExponentMark c = false) :
    scan? (ws ++ '.' :: (fs ++ rest)) = some (ws ++ '.' :: fs, rest) := by
  obtain ⟨d, more, rfl⟩ := List.exists_cons_of_ne_nil hne
  have hwhole : digits (d :: more ++ '.' :: (fs ++ rest)) = (d :: more, '.' :: (fs ++ rest)) :=
    digits_run _ _ hws (by rintro c ⟨⟩; rfl)
  have hfraction := digits_run fs rest hfs fun c hc => (hrest c hc).1
  have hexponent : scanExponent rest = ([], rest) := by
    match rest with
    | [] => rfl
    | [_] => rfl
    | m :: s :: rest => simp [scanExponent, (hrest m rfl).2]
  unfold scan?
  rw [hwhole]
  simp only [hfraction, hexponent, List.append_nil]

theorem read_pointed (hfne : fs ≠ []) : (read (ws ++ '.' :: fs)).toFloat =
    (⟨natOfDigits (ws ++ fs), -fs.length⟩ : Decimal).toFloat := by
  simpa [pointed, powerText, List.isEmpty_eq_false_iff.2 hfne] using
    read_numeral (e := 0) hws hne hfs

end

theorem Writes.scan? {cs : List Char} {q : ℚ} (h : Writes cs q) {rest : List Char}
    (hrest : Ended rest) : Numeral.scan? (cs ++ rest) = some (cs, rest) := by
  obtain ⟨ws, fs, e, rfl, hws, hne, -, hfs, -⟩ := h
  rw [List.append_assoc, List.append_assoc, scan?_numeral hws hne hfs hrest]

theorem Writes.read {cs : List Char} {d : Decimal} (h : Writes cs d.value) :
    (Numeral.read cs).toFloat = d.toFloat := by
  obtain ⟨ws, fs, e, rfl, hws, hne, -, hfs, hvalue⟩ := h
  rw [read_numeral hws hne hfs, Double.toFloat_congr hvalue]

end Numeral

/-! ### Whole numbers -/

namespace Double

/-- A positive finite number has parts and no sign. -/
theorem exists_decode {x : Float} {m : Nat} {e : Int} {hm : 0 < m}
    (hx : x.toModel.unpack = .finite .positive m e hm) :
    ∃ p, Binary.decode x = some p ∧ p.negative = false ∧ 0 < p.mantissa := by
  have hfinite : Numeric.isFinite x = true := by
    refine isFinite_iff.2 fun hbound => ?_
    rw [hx] at hbound
    cases hbound
  obtain ⟨q, hq⟩ := Option.isSome_iff_exists.1 hfinite
  obtain ⟨p, hp, -⟩ := Option.map_eq_some_iff.1 hq
  have hunpack := unpack_of_decode hp
  rw [hx, unpacked] at hunpack
  refine ⟨p, hp, ?_⟩
  split at hunpack
  · rename_i hpos
    cases hn : p.negative with
    | false => exact ⟨rfl, hpos⟩
    | true =>
      rw [hn] at hunpack
      cases hunpack
  · cases hunpack

/-- A whole number below 2⁵³ is what its digits are read as. -/
theorem ofNat_eq_toFloat {n : Nat} (hpos : 0 < n) (hn : n < 2 ^ 53) :
    Float.ofNat n = (⟨n, 0⟩ : Decimal).toFloat := by
  have hlength : (Nat.toDigits 10 n).length ≤ 16 :=
    (Nat.length_toDigits_le_iff (by decide) (by decide)).2 (hn.trans (by decide))
  unfold Decimal.toFloat
  simp only [beq_iff_eq, hpos.ne', ↓reduceIte]
  rw [if_neg (by omega), if_neg (by omega)]
  rfl

/-- The text of a whole number below 2⁵³ is a numeral that is read as the number. -/
theorem writes_ofNat {n : Nat} (hn : n < 2 ^ 53) :
    ∃ d : Decimal, Numeral.Writes (Numeric.text (Float.ofNat n)).toList d.value ∧
      d.toFloat = Float.ofNat n := by
  obtain rfl | hpos := Nat.eq_zero_or_pos n
  · exact ⟨⟨0, 0⟩, writes_zero, rfl⟩
  · -- The number and the decimal of its digits have the same value, so the number is what the
    -- decimal is read as, and its shortest text writes the value of some decimal read as it.
    obtain ⟨m, e, hm, hunpack, -, hvalue⟩ := unpack_toFloat hpos hn
    have hread : (⟨n, 0⟩ : Decimal).toFloat = n.toUInt64.toFloat := by
      have hexact : (⟨n, 0⟩ : Decimal).value = m * 2 ^ e := by
        rw [hvalue, Decimal.value, zpow_zero, mul_one]
      refine toFloat_near hunpack ?_
      rw [hexact, sub_self, abs_zero, mul_zero, hvalue]
      exact Nat.cast_nonneg n
    have hx : (Float.ofNat n).toModel.unpack = .finite .positive m e hm := by
      rw [ofNat_eq_toFloat hpos hn, hread, hunpack]
    obtain ⟨p, hdecode, hsign, hmantissa⟩ := exists_decode hx
    obtain ⟨d, hd, hback, htext⟩ := number_eq hdecode hmantissa
    rw [hsign, if_neg Bool.false_ne_true, Json.number, isFinite_of_decode hdecode,
      if_pos rfl] at htext
    refine ⟨d, ?_, hback.trans (abs_eq hx)⟩
    rw [htext]
    exact Shortest.writes_decimalText hd

end Double

end PageExtract
