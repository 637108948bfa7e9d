/-
The characters of a text that are seen.

Two texts that differ by blank characters only have the same ink, and so have a text with halves
of surrogate pairs side by side and the text that joins them:

* `ink` — the code units of a text that are not blank;
* `inkChars_append`, `inkChars_of_blank` — the ink of parts of a text;
* `ink_trim`, `ink_joined` — trimming and joining leave the ink as it is;
* `ink_eq_nil_iff` — a text without ink is blank.
-/
import PageExtract.Proofs.Text.Words

namespace PageExtract.Text

/-- Whether a code unit is not blank. Half a surrogate pair is not. -/
def isInk (n : Nat) : Bool := !isBlank (Char.ofNat n)

/-- The code units of some characters that are not blank. -/
def inkChars (cs : List Char) : List Nat := (cs.flatMap charUnits).filter isInk

/-- The code units of a text that are not blank. -/
def ink (s : String) : List Nat := inkChars s.toList

@[simp] theorem inkChars_nil : inkChars [] = [] := rfl

@[simp] theorem inkChars_append (cs ds : List Char) :
    inkChars (cs ++ ds) = inkChars cs ++ inkChars ds := by
  rw [inkChars, List.flatMap_append, List.filter_append]
  rfl

theorem inkChars_cons (c : Char) (cs : List Char) :
    inkChars (c :: cs) = (charUnits c).filter isInk ++ inkChars cs := by
  rw [inkChars, List.flatMap_cons, List.filter_append]
  rfl

/-! ### Blank and other characters -/

theorem filter_charUnits_of_blank {c : Char} (hc : isBlank c = true) :
    (charUnits c).filter isInk = [] := by
  rw [charUnits_of_isBlank hc, List.filter_cons_of_neg, List.filter_nil]
  simp [isInk, hc]

/-- A code unit of a character that is not blank is ink. -/
theorem isInk_of_mem_charUnits {c : Char} (hc : isBlank c = false) {n : Nat}
    (hn : n ∈ charUnits c) : isInk n = true := by
  unfold isInk
  by_cases hvalid : n.isValidChar
  · cases hblank : isBlank (Char.ofNat n) with
    | false => rfl
    | true =>
      -- The code unit of a blank character would make `c` that character.
      rw [← toNat_ofNat hvalid] at hn
      rw [eq_of_mem_charUnits hblank hn, hblank] at hc
      cases hc
  · -- Half a surrogate pair is no character.
    have hhalf : Char.ofNat n = Char.ofNat 0 := by
      unfold Char.ofNat
      rw [dif_neg hvalid]
      rfl
    rw [hhalf]
    rfl

theorem inkChars_of_blank {cs : List Char} (hcs : ∀ c ∈ cs, isBlank c = true) :
    inkChars cs = [] := by
  induction cs with
  | nil => rfl
  | cons c cs ih =>
    obtain ⟨hc, hrest⟩ := List.forall_mem_cons.1 hcs
    rw [inkChars_cons, filter_charUnits_of_blank hc, ih hrest, List.nil_append]

theorem inkChars_ne_nil {c : Char} (hc : isBlank c = false) (cs : List Char) :
    inkChars (c :: cs) ≠ [] := by
  have hink : (charUnits c).filter isInk = charUnits c :=
    List.filter_eq_self.2 fun n hn => isInk_of_mem_charUnits hc hn
  rw [inkChars_cons, hink]
  exact List.append_ne_nil_of_left_ne_nil (charUnits_ne_nil c) _

/-! ### Texts with the same ink -/

theorem inkChars_trimChars (cs : List Char) : inkChars (trimChars cs) = inkChars cs := by
  obtain ⟨before, after, hsplit, hbefore, hafter⟩ := exists_eq_append_trimChars cs
  conv_rhs => rw [hsplit]
  rw [inkChars_append, inkChars_append, inkChars_of_blank hbefore, inkChars_of_blank hafter,
    List.nil_append, List.append_nil]

theorem ink_trim (s : String) : ink (trim s) = ink s := by
  rw [ink, trim, String.toList_ofList, inkChars_trimChars, ink]

theorem ink_joined (s : String) : ink (joined s) = ink s := by
  unfold joined
  split
  · rw [ink, inkChars, String.toList_ofList, units_ofUnits (units_lt s)]
    rfl
  · rfl

/-- A text has ink unless it is blank. -/
theorem ink_eq_nil_iff (s : String) : ink s = [] ↔ trim s = "" := by
  constructor
  · intro h
    rw [← ink_trim] at h
    have hfirst := (isTrimmed_trimChars s.toList).1
    cases hcs : trimChars s.toList with
    | nil => rw [trim, hcs]
    | cons c cs =>
      rw [hcs] at hfirst
      rw [ink, trim, String.toList_ofList, hcs] at h
      exact absurd h (inkChars_ne_nil (hfirst c rfl) cs)
  · intro h
    rw [← ink_trim, h]
    rfl

end PageExtract.Text
