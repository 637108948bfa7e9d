/-
Texts and their code units.

Code units stand for exactly one text in which no two neighbouring halves make a pair, and a text
of that kind is given back by its code units:

* `toNat_char` — the code points of characters;
* `units_ofUnits` — the text that code units stand for has these code units;
* `ofUnits_units` — a joined text is what its code units stand for;
* `joined_ofUnits`, `joined_joined` — what code units stand for is joined;
* `units_inj`, `unitsLt_iff` — joined texts differ in their code units, and what comes first among
  them;
* `shown_ofScalars` — a text of whole characters is shown as it is.
-/
import Mathlib.Data.List.Lex
import PageExtract.Text.Units

namespace PageExtract.Text

theorem toNat_char (c : Char) : c.toNat < 0xD800 ∨ (0xDFFF < c.toNat ∧ c.toNat < 0x110000) := by
  have h := c.valid
  simpa [UInt32.isValidChar, Nat.isValidChar] using h

theorem toNat_ofNat {n : Nat} (h : n < 0xD800 ∨ (0xDFFF < n ∧ n < 0x110000)) :
    (Char.ofNat n).toNat = n := by
  rw [Char.ofNat, dif_pos h]
  rfl

theorem isHalf_iff (c : Char) : isHalf c = true ↔ 0x10D800 ≤ c.toNat ∧ c.toNat < 0x10E000 := by
  simp [isHalf]

theorem isHigh_iff (n : Nat) : isHigh n = true ↔ 0xD800 ≤ n ∧ n < 0xDC00 := by
  simp [isHigh]

theorem isLow_iff (n : Nat) : isLow n = true ↔ 0xDC00 ≤ n ∧ n < 0xE000 := by
  simp [isLow]

/-- A half pair has itself as its code unit. -/
theorem charUnits_halfChar {n : Nat} (h : 0xD800 ≤ n ∧ n < 0xE000) :
    charUnits (halfChar n) = [n] := by
  have hn : (halfChar n).toNat = 0x100000 + n := toNat_ofNat (.inr (by omega))
  have hhalf : isHalf (halfChar n) = true := by
    rw [isHalf_iff, hn]
    omega
  rw [charUnits, if_neg (by omega), if_pos hhalf, hn, Nat.add_sub_cancel_left]

/-- The character that a code unit is read as on its own has that code unit. -/
theorem charUnits_single {n : Nat} (h : n < 0x10000) :
    charUnits (if isHigh n || isLow n then halfChar n else Char.ofNat n) = [n] := by
  split
  · rename_i hhalf
    rw [Bool.or_eq_true, isHigh_iff, isLow_iff] at hhalf
    exact charUnits_halfChar (by omega)
  · rename_i hwhole
    rw [Bool.or_eq_true, isHigh_iff, isLow_iff] at hwhole
    have hn : (Char.ofNat n).toNat = n := toNat_ofNat (by omega)
    rw [charUnits, if_pos (by omega), hn]

/-- The code units of a joined pair are its halves, also if it is kept as two halves. -/
theorem units_ofScalar {high low : Nat} (hhigh : isHigh high = true) (hlow : isLow low = true) :
    (ofScalar (Char.ofNat (joinHalves high low))).flatMap charUnits = [high, low] := by
  rw [isHigh_iff] at hhigh
  rw [isLow_iff] at hlow
  have hjoin : joinHalves high low = 0x10000 + (high - 0xD800) * 0x400 + (low - 0xDC00) := rfl
  have hrange : 0xDFFF < joinHalves high low ∧ joinHalves high low < 0x110000 := by omega
  have hn : (Char.ofNat (joinHalves high low)).toNat = joinHalves high low :=
    toNat_ofNat (.inr hrange)
  have hhalves : halves (Char.ofNat (joinHalves high low)) = [high, low] := by
    have hfirst : 0xD800 + (joinHalves high low - 0x10000) / 0x400 = high := by omega
    have hsecond : 0xDC00 + (joinHalves high low - 0x10000) % 0x400 = low := by omega
    rw [halves, hn, hfirst, hsecond]
  unfold ofScalar
  split
  · rw [hhalves]
    simp only [List.map_cons, List.map_nil, List.flatMap_cons, List.flatMap_nil]
    rw [charUnits_halfChar ⟨hhigh.1, by omega⟩, charUnits_halfChar ⟨by omega, hlow.2⟩]
    rfl
  · rename_i hhalf
    have hbasic : ¬ (Char.ofNat (joinHalves high low)).toNat < 0x10000 := by omega
    rw [List.flatMap_singleton, charUnits, if_neg hbasic, if_neg hhalf, hhalves]

/-- The text that code units stand for has these code units. -/
theorem units_ofUnits {ns : List Nat} (hns : ∀ n ∈ ns, n < 0x10000) :
    (ofUnits ns).flatMap charUnits = ns := by
  unfold ofUnits
  fun_induction readUnits with
  | case1 => rfl
  | case2 n =>
    rw [List.flatMap_singleton]
    exact charUnits_single (hns n List.mem_cons_self)
  | case3 n m rest hpair ih =>
    rw [Bool.and_eq_true] at hpair
    rw [List.flatMap_append, units_ofScalar hpair.1 hpair.2]
    exact congrArg ([n, m] ++ ·) (ih fun k hk => hns k (by simp [hk]))
  | case4 n m rest hpair ih =>
    rw [List.flatMap_cons, charUnits_single (hns n List.mem_cons_self)]
    exact congrArg ([n] ++ ·) (ih fun k hk => hns k (List.mem_cons_of_mem n hk))

/-- A code unit that begins no pair is read on its own. -/
theorem readUnits_cons (pair : Nat → Nat → List Char) (half : Nat → Char) {n : Nat}
    (hn : isHigh n = false) (ns : List Nat) :
    readUnits pair half (n :: ns) =
      (if isHigh n || isLow n then half n else Char.ofNat n) :: readUnits pair half ns := by
  cases ns with
  | nil => rfl
  | cons m ns => rw [readUnits, if_neg (by simp [hn])]

/-- The code units of a character, whether or not it would be taken for a half. -/
def scalarUnits (c : Char) : List Nat := if c.toNat < 0x10000 then [c.toNat] else halves c

/-- The halves of a character join to the character. -/
theorem ofNat_joinHalves {c : Char} (hc : ¬ c.toNat < 0x10000) :
    Char.ofNat (joinHalves (0xD800 + (c.toNat - 0x10000) / 0x400)
      (0xDC00 + (c.toNat - 0x10000) % 0x400)) = c := by
  have hjoin : joinHalves (0xD800 + (c.toNat - 0x10000) / 0x400)
      (0xDC00 + (c.toNat - 0x10000) % 0x400) = c.toNat := by
    unfold joinHalves
    omega
  rw [hjoin, Char.ofNat_toNat]

/-- The code units of characters are read as the characters, if joined pairs are. -/
theorem readUnits_scalarUnits {pair : Nat → Nat → List Char} (half : Nat → Char) {cs : List Char}
    (hpair : ∀ c ∈ cs, ¬ c.toNat < 0x10000 →
      pair (0xD800 + (c.toNat - 0x10000) / 0x400) (0xDC00 + (c.toNat - 0x10000) % 0x400) = [c]) :
    readUnits pair half (cs.flatMap scalarUnits) = cs := by
  induction cs with
  | nil => rfl
  | cons c cs ih =>
    have hrest := ih fun d hd => hpair d (List.mem_cons_of_mem c hd)
    have hchar := toNat_char c
    rw [List.flatMap_cons, scalarUnits]
    by_cases hbasic : c.toNat < 0x10000
    · have hhigh : isHigh c.toNat = false := by
        rw [Bool.eq_false_iff, Ne, isHigh_iff]
        omega
      have hlow : isLow c.toNat = false := by
        rw [Bool.eq_false_iff, Ne, isLow_iff]
        omega
      rw [if_pos hbasic, List.singleton_append, readUnits_cons pair half hhigh, hhigh, hlow, hrest]
      simp
    · have hhigh : isHigh (0xD800 + (c.toNat - 0x10000) / 0x400) = true := by
        rw [isHigh_iff]
        omega
      have hlow : isLow (0xDC00 + (c.toNat - 0x10000) % 0x400) = true := by
        rw [isLow_iff]
        omega
      rw [if_neg hbasic, halves, List.cons_append, List.cons_append, List.nil_append, readUnits,
        hhigh, hlow, Bool.and_true, if_pos rfl, hpair c List.mem_cons_self hbasic, hrest]
      rfl

theorem charUnits_of_whole {c : Char} (hc : isHalf c = false) : charUnits c = scalarUnits c := by
  rw [charUnits, scalarUnits, hc, if_neg Bool.false_ne_true]

/-- Whole characters are what their code units stand for. -/
theorem ofUnits_charUnits {cs : List Char} (hcs : ∀ c ∈ cs, isHalf c = false) :
    ofUnits (cs.flatMap charUnits) = cs := by
  have hunits : cs.flatMap charUnits = cs.flatMap scalarUnits :=
    List.flatMap_congr fun c hc => charUnits_of_whole (hcs c hc)
  rw [hunits]
  refine readUnits_scalarUnits halfChar fun c hc hbasic => ?_
  rw [ofNat_joinHalves hbasic]
  exact if_neg (by simp [hcs c hc])

theorem any_isHalf (s : String) : s.any isHalf = s.toList.any isHalf := String.contains_bool_eq

/-- A text of whole characters is joined. -/
theorem joined_of_whole {s : String} (hs : s.toList.any isHalf = false) : joined s = s := by
  rw [joined, any_isHalf, hs, if_neg Bool.false_ne_true]

/-- A joined text is what its code units stand for. -/
theorem ofUnits_units {s : String} (hs : joined s = s) : String.ofList (ofUnits (units s)) = s := by
  unfold joined at hs
  split at hs
  · exact hs
  · rename_i hany
    have hwhole : ∀ c ∈ s.toList, isHalf c = false := by
      rw [any_isHalf] at hany
      simpa using hany
    rw [units, ofUnits_charUnits hwhole, String.ofList_toList]

/-- Joined texts with the same code units are the same. -/
theorem units_inj {s t : String} (hs : joined s = s) (ht : joined t = t) (h : units s = units t) :
    s = t := by
  rw [← ofUnits_units hs, ← ofUnits_units ht, h]

theorem unitsLt_iff {xs ys : List Nat} : unitsLt xs ys = true ↔ xs < ys := by
  fun_induction unitsLt with
  | case1 xs => simp
  | case2 y ys => simp
  | case3 x xs y ys h => simp [List.cons_lt_cons_iff, h]
  | case4 x xs y ys h h' =>
    rw [List.cons_lt_cons_iff]
    simp only [Bool.false_eq_true, false_iff]
    omega
  | case5 x xs y ys h h' ih =>
    obtain rfl : x = y := by omega
    rw [ih, List.cons_lt_cons_iff]
    simp

/-- What code units stand for is joined. -/
theorem joined_ofUnits {ns : List Nat} (hns : ∀ n ∈ ns, n < 0x10000) :
    joined (String.ofList (ofUnits ns)) = String.ofList (ofUnits ns) := by
  unfold joined
  split
  · rw [units, String.toList_ofList, units_ofUnits hns]
  · rfl

/-! ### Texts of whole characters -/

/-- A text of whole characters has their code units. -/
theorem flatMap_charUnits_ofScalar (cs : List Char) :
    (cs.flatMap ofScalar).flatMap charUnits = cs.flatMap scalarUnits := by
  rw [List.flatMap_assoc]
  refine List.flatMap_congr fun c _ => ?_
  unfold ofScalar
  cases hc : isHalf c with
  | false => simp [charUnits_of_whole hc]
  | true =>
    have hrange := (isHalf_iff c).1 hc
    have hbasic : ¬ c.toNat < 0x10000 := by omega
    rw [if_pos rfl, scalarUnits, if_neg hbasic, halves]
    simp only [List.map_cons, List.map_nil, List.flatMap_cons, List.flatMap_nil]
    rw [charUnits_halfChar (by omega), charUnits_halfChar (by omega)]
    rfl

/-- A text none of whose characters would be taken for a half is a text of whole characters. -/
theorem ofScalars_of_whole {s : String} (hs : s.toList.any isHalf = false) : ofScalars s = s := by
  rw [ofScalars, any_isHalf, hs, if_neg Bool.false_ne_true]

/-- A text of whole characters is shown as it is. -/
theorem shown_ofScalars (s : String) : shown (ofScalars s) = s := by
  unfold ofScalars
  split
  · have hread : readUnits (fun high low => [Char.ofNat (joinHalves high low)])
        (fun _ => replacement) (s.toList.flatMap scalarUnits) = s.toList :=
      readUnits_scalarUnits _ fun c _ hbasic => by rw [ofNat_joinHalves hbasic]
    unfold shown
    split
    · rw [units, String.toList_ofList, flatMap_charUnits_ofScalar, hread, String.ofList_toList]
    · rename_i hany hnone
      -- A character that would be taken for a half leaves two of them.
      rw [any_isHalf, List.any_eq_true] at hany
      obtain ⟨c, hc, hhalf⟩ := hany
      refine absurd ?_ hnone
      rw [any_isHalf, String.toList_ofList, List.any_eq_true]
      have hrange := (isHalf_iff c).1 hhalf
      refine ⟨halfChar (0xD800 + (c.toNat - 0x10000) / 0x400), ?_, ?_⟩
      · refine List.mem_flatMap.2 ⟨c, hc, ?_⟩
        rw [ofScalar, if_pos hhalf]
        exact List.mem_cons_self
      · rw [isHalf_iff, halfChar, toNat_ofNat (.inr (by omega))]
        omega
  · rename_i hany
    rw [shown, if_neg hany]

theorem charUnits_lt (c : Char) : ∀ n ∈ charUnits c, n < 0x10000 := by
  have hchar := toNat_char c
  unfold charUnits halves
  split
  · simpa using ‹_›
  · split
    · rename_i hhalf
      rw [isHalf_iff] at hhalf
      simp only [List.mem_singleton, forall_eq]
      omega
    · simp only [List.mem_cons, List.not_mem_nil, or_false, forall_eq_or_imp, forall_eq]
      omega

theorem units_lt (s : String) : ∀ n ∈ units s, n < 0x10000 := by
  intro n hn
  obtain ⟨c, -, hc⟩ := List.mem_flatMap.1 hn
  exact charUnits_lt c n hc

theorem joined_joined (s : String) : joined (joined s) = joined s := by
  by_cases hs : s.any isHalf = true
  · have hjoined : joined s = String.ofList (ofUnits (units s)) := if_pos hs
    rw [hjoined, joined_ofUnits (units_lt s)]
  · have hjoined : joined s = s := if_neg hs
    rw [hjoined, hjoined]

end PageExtract.Text
