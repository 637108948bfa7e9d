/-
Numerals written and read.

A numeral is written as digits, perhaps a point with further digits, and perhaps an exponent. It is
read as the decimal that its digits write without the point, whatever follows it:

* `natOfDigits_natDigits`, `natDigits_natOfDigits`, `digits_run` — digits and what they write;
* `Ended` — what may follow a number;
* `pointed`, `powerText` — the parts of a numeral after its first digits;
* `toFloat_numeral`, `readUnsigned_numeral` — a numeral is read as its decimal.
-/
import Mathlib.Data.List.Induction
import Mathlib.Tactic.IntervalCases
import PageExtract.Proofs.Text.Runs
import PageExtract.Value.JsonReader

namespace PageExtract

open Shortest (natDigits)

namespace Numeral

/-! ### Digits -/

theorem natOfDigits_eq (cs : List Char) : natOfDigits cs = Nat.ofDigitChars 10 cs 0 := rfl

@[simp] theorem natOfDigits_natDigits (n : Nat) : natOfDigits (natDigits n) = n :=
  Nat.ofDigitChars_ten_toDigits

/-- Zeros at the end multiply by ten. -/
theorem natOfDigits_append_zeros (cs : List Char) (z : Nat) :
    natOfDigits (cs ++ List.replicate z '0') = natOfDigits cs * 10 ^ z := by
  rw [natOfDigits_eq, Nat.ofDigitChars_append, Nat.ofDigitChars_replicate_zero, Nat.mul_comm]
  rfl

theorem isDigit_of_mem_natDigits {n : Nat} {c : Char} (hc : c ∈ natDigits n) : c.isDigit = true :=
  Nat.isDigit_of_mem_toDigits (by decide) (by decide) hc

theorem digitValue_lt {c : Char} (hc : c.isDigit = true) :
    48 ≤ c.toNat ∧ digitValue c < 10 := by
  simp only [Char.isDigit, ge_iff_le, Bool.and_eq_true, decide_eq_true_eq,
    UInt32.le_iff_toNat_le] at hc
  have h0 : 48 ≤ c.toNat := hc.1
  have h9 : c.toNat ≤ 57 := hc.2
  have hzero : '0'.toNat = 48 := rfl
  rw [digitValue]
  omega

theorem digitChar_digitValue {c : Char} (hc : c.isDigit = true) :
    (digitValue c).digitChar = c := by
  obtain ⟨hle, hlt⟩ := digitValue_lt hc
  have hzero : '0'.toNat = 48 := rfl
  rw [← Char.toNat_inj, Nat.toNat_digitChar_of_lt_ten hlt, digitValue]
  omega

theorem natOfDigits_concat (cs : List Char) (c : Char) :
    natOfDigits (cs ++ [c]) = 10 * natOfDigits cs + digitValue c := by
  simp [natOfDigits]

/-- Digits without a leading zero are those of the number that they write. -/
theorem natDigits_natOfDigits {d : Char} {cs : List Char} (hcs : ∀ c ∈ d :: cs, c.isDigit = true)
    (hd : cs = [] ∨ d ≠ '0') : natDigits (natOfDigits (d :: cs)) = d :: cs := by
  induction cs using List.reverseRecOn with
  | nil =>
    have hdigit := hcs d List.mem_cons_self
    have hvalue : natOfDigits [d] = digitValue d := by simp [natOfDigits]
    rw [hvalue, natDigits, Nat.toDigits_of_lt_base (digitValue_lt hdigit).2,
      digitChar_digitValue hdigit]
  | append_singleton cs c ih =>
    have hnonzero : d ≠ '0' := hd.resolve_left (by simp)
    have hinit := ih (fun c' hc' => hcs c' (by
      rw [← List.cons_append]
      exact List.mem_append_left _ hc')) (.inr hnonzero)
    have hc := hcs c (by simp)
    have hvalue := natOfDigits_concat (d :: cs) c
    rw [List.cons_append] at hvalue
    -- The first digits write a number other than zero, so all of them are kept.
    have hpos : 0 < natOfDigits (d :: cs) := by
      refine Nat.pos_of_ne_zero fun h0 => hnonzero ?_
      rw [h0] at hinit
      exact (List.cons.inj hinit).1.symm
    unfold natDigits at hinit ⊢
    rw [hvalue, ← Nat.toDigits_append_toDigits (by decide) hpos (digitValue_lt hc).2, hinit,
      Nat.toDigits_of_lt_base (digitValue_lt hc).2, digitChar_digitValue hc, List.cons_append]

/-- The digits of a positive number do not begin with a zero. -/
theorem head_natDigits {n : Nat} (hn : 0 < n) :
    ∃ d more, natDigits n = d :: more ∧ d ≠ '0' := by
  induction n using Nat.strongRecOn with
  | ind n ih =>
    by_cases hlt : n < 10
    · refine ⟨n.digitChar, [], Nat.toDigits_of_lt_base hlt, ?_⟩
      interval_cases n <;> decide
    · obtain ⟨d, more, hmore, hd⟩ := ih (n / 10) (by omega) (by omega)
      refine ⟨d, more ++ [Nat.digitChar (n % 10)], ?_, hd⟩
      unfold natDigits at hmore ⊢
      rw [Nat.toDigits_of_base_le (by decide) (by omega), hmore]
      rfl

/-! ### Reading digits -/

/-- What may follow a number: nothing that would go on with it. -/
def Ended (rest : List Char) : Prop :=
  ∀ c ∈ rest.head?, c.isDigit = false ∧ c ≠ '.' ∧ isExponentMark c = false

theorem digits_run (ds rest : List Char) (hds : ∀ c ∈ ds, c.isDigit = true)
    (hrest : ∀ c ∈ rest.head?, c.isDigit = false) : digits (ds ++ rest) = (ds, rest) := by
  rw [digits, Text.takeWhile_run hds hrest, Text.dropWhile_run hds hrest]

/-- A digit is no sign. -/
theorem sign_digit {d : Char} (hd : d.isDigit = true) (cs : List Char) :
    sign (d :: cs) = (false, d :: cs) := by
  unfold sign
  split
  · rename_i h
    cases h
    cases hd
  · rename_i h
    cases h
    cases hd
  · rfl

/-! ### Numerals -/

/-- A point and the digits after it, if there are any. -/
def pointed (fs : List Char) : List Char := if fs.isEmpty then [] else '.' :: fs

/-- An exponent, unless it is zero. -/
def powerText (e : Int) : List Char :=
  if e = 0 then []
  else if e < 0 then 'e' :: '-' :: natDigits e.natAbs
  else 'e' :: '+' :: natDigits e.natAbs

@[simp] theorem readExponent_powerText (e : Int) : readExponent (powerText e) = e := by
  unfold powerText
  split
  · rename_i h
    exact h.symm
  · split
    · simp only [readExponent, natOfDigits_natDigits]
      omega
    · simp only [readExponent, natOfDigits_natDigits]
      omega

/-- An exponent and what follows a number begin with no digit. -/
theorem head_powerText (e : Int) {rest : List Char}
    (hrest : ∀ c ∈ rest.head?, c.isDigit = false ∧ c ≠ '.') :
    ∀ c ∈ (powerText e ++ rest).head?, c.isDigit = false ∧ c ≠ '.' := by
  unfold powerText
  split
  · exact hrest
  · split <;>
    · rintro c ⟨⟩
      decide

theorem head_pointed (fs : List Char) {rest : List Char}
    (hrest : ∀ c ∈ rest.head?, c.isDigit = false) :
    ∀ c ∈ (pointed fs ++ rest).head?, c.isDigit = false := by
  unfold pointed
  split
  · exact hrest
  · rintro c ⟨⟩
    decide

section

variable {ws fs : List Char} {e : Int} (hws : ∀ c ∈ ws, c.isDigit = true) (hne : ws ≠ [])
  (hfs : ∀ c ∈ fs, c.isDigit = true)

include hws hne hfs

/-- A numeral writes the number of its digits, with an exponent that counts from the point. -/
theorem toFloat_numeral :
    toFloat (ws ++ pointed fs ++ powerText e) =
      (⟨natOfDigits (ws ++ fs), e - fs.length⟩ : Decimal).toFloat := by
  obtain ⟨d, more, rfl⟩ := List.exists_cons_of_ne_nil hne
  have hpower : ∀ c ∈ (powerText e).head?, c.isDigit = false ∧ c ≠ '.' := by
    rw [← List.append_nil (powerText e)]
    exact head_powerText e (by simp)
  have hwhole : digits (d :: more ++ (pointed fs ++ powerText e)) =
      (d :: more, pointed fs ++ powerText e) :=
    digits_run _ _ hws (head_pointed fs fun c hc => (hpower c hc).1)
  rw [List.append_assoc, toFloat, List.cons_append, sign_digit (hws d List.mem_cons_self),
    ← List.cons_append]
  simp only [Bool.false_eq_true, ↓reduceIte]
  congr 1
  unfold read
  simp only [hwhole]
  cases fs with
  | nil =>
    have hpart : pointed [] ++ powerText e = powerText e := rfl
    rw [hpart]
    split
    · rename_i heq
      exact absurd rfl (hpower '.' (by rw [heq]; rfl)).2
    · simp
  | cons f fs =>
    have hpart : pointed (f :: fs) ++ powerText e = '.' :: (f :: fs ++ powerText e) := rfl
    rw [hpart]
    simp only [digits_run (f :: fs) (powerText e) hfs fun c hc => (hpower c hc).1,
      readExponent_powerText]

end

end Numeral

namespace Json

open Numeral

theorem readNumber_digit {d : Char} (hd : d.isDigit = true) (cs : List Char) :
    readNumber? (d :: cs) = readUnsigned? (d :: cs) := by
  unfold readNumber?
  split
  · rename_i h
    cases h
    cases hd
  · rfl

theorem scanExponent_of_ended {rest : List Char} (hrest : Ended rest) :
    scanExponent rest = ([], rest) := by
  cases rest with
  | nil => rfl
  | cons c rest =>
    have hmark := (hrest c rfl).2.2
    cases rest with
    | nil => rfl
    | cons s rest => simp [scanExponent, hmark]

theorem scanExponent_powerText (e : Int) {rest : List Char} (hrest : Ended rest) :
    scanExponent (powerText e ++ rest) = (powerText e, rest) := by
  have hmark : isExponentMark 'e' = true := rfl
  have hsigns : isSign '-' = true ∧ isSign '+' = true := ⟨rfl, rfl⟩
  have hrun := digits_run (natDigits e.natAbs) rest (fun c hc => isDigit_of_mem_natDigits hc)
    fun c hc => (hrest c hc).1
  have hempty : (natDigits e.natAbs).isEmpty = false :=
    List.isEmpty_eq_false_iff.2 Nat.toDigits_ne_nil
  unfold powerText
  split
  · exact scanExponent_of_ended hrest
  · split
    · simp only [List.cons_append, scanExponent, hmark, hsigns.1, ↓reduceIte, hrun, hempty,
        Bool.false_eq_true]
    · simp only [List.cons_append, scanExponent, hmark, hsigns.2, ↓reduceIte, hrun, hempty,
        Bool.false_eq_true]

/-- A numeral without a zero before other digits is read as its decimal, whatever follows it. -/
theorem readUnsigned_numeral {ws fs : List Char} {e : Int} (hws : ∀ c ∈ ws, c.isDigit = true)
    (hne : ws ≠ []) (hlead : ws.head? = some '0' → ws.length = 1)
    (hfs : ∀ c ∈ fs, c.isDigit = true) {rest : List Char} (hrest : Ended rest) :
    readUnsigned? (ws ++ (pointed fs ++ (powerText e ++ rest))) =
      some ((⟨natOfDigits (ws ++ fs), e - fs.length⟩ : Decimal).toFloat, rest) := by
  have hpower := head_powerText e fun c hc => ⟨(hrest c hc).1, (hrest c hc).2.1⟩
  have hwhole : digits (ws ++ (pointed fs ++ (powerText e ++ rest))) =
      (ws, pointed fs ++ (powerText e ++ rest)) :=
    digits_run _ _ hws (head_pointed fs fun c hc => (hpower c hc).1)
  have hstart : (ws.isEmpty || (decide (ws.length > 1) && ws.head? == some '0')) = false := by
    rw [Bool.or_eq_false_iff, Bool.and_eq_false_imp]
    refine ⟨List.isEmpty_eq_false_iff.2 hne, fun hlong => ?_⟩
    have hlong' : ws.length > 1 := of_decide_eq_true hlong
    rw [beq_eq_false_iff_ne]
    intro h0
    have := hlead h0
    omega
  have hscan := scanExponent_powerText e hrest
  -- What follows is no exponent mark without an exponent.
  have hmark : ∀ {c cs}, powerText e = [] → powerText e ++ rest = c :: cs →
      isExponentMark c = false := by
    intro c cs hnone heq
    rw [hnone, List.nil_append] at heq
    exact (hrest c (by rw [heq]; rfl)).2.2
  rw [← toFloat_numeral hws hne hfs]
  unfold readUnsigned?
  simp only [hwhole, hstart, Bool.false_eq_true, ↓reduceIte]
  cases fs with
  | nil =>
    have hpart : pointed [] ++ (powerText e ++ rest) = powerText e ++ rest := rfl
    rw [hpart]
    split
    · rename_i h
      split at h
      · rename_i heq
        exact absurd rfl (hpower '.' (by rw [heq]; rfl)).2
      · cases h
    · rename_i h
      split at h
      · rename_i heq
        exact absurd rfl (hpower '.' (by rw [heq]; rfl)).2
      · cases h
        simp only [hscan]
        split
        · rename_i hnone heq
          rw [hmark hnone heq, hnone]
          simp [pointed]
        · rfl
  | cons f fs =>
    have hpart : pointed (f :: fs) ++ (powerText e ++ rest) =
        '.' :: (f :: fs ++ (powerText e ++ rest)) := rfl
    have hrun := digits_run (f :: fs) (powerText e ++ rest) hfs fun c hc => (hpower c hc).1
    rw [hpart]
    simp only [hrun, List.isEmpty_cons, Bool.false_eq_true, ↓reduceIte, hscan]
    split
    · rename_i hnone heq
      rw [hmark hnone heq, hnone, List.append_nil]
      rfl
    · rfl

end Json

end PageExtract
