/-
Texts without blank characters around them.

No blank character is half of a surrogate pair, so joining halves leaves what is blank as it is:

* `IsTrimmed`, `isTrimmed_trimChars`, `trimChars_eq_self` — characters without blank ones around
  them, which trimming gives and leaves as they are;
* `eq_of_mem_charUnits` — the code unit of a blank character belongs to no other character;
* `trim_joined` — a trimmed text is still trimmed when its halves are joined.
-/
import PageExtract.Proofs.Text.Runs
import PageExtract.Proofs.Text.Units
import PageExtract.Text.Blank

namespace PageExtract.Text

/-- Neither the first nor the last of some characters is blank. -/
def IsTrimmed (cs : List Char) : Prop :=
  (∀ c ∈ cs.head?, isBlank c = false) ∧ ∀ c ∈ cs.getLast?, isBlank c = false

theorem dropWhile_isBlank_eq_self {cs : List Char} (h : ∀ c ∈ cs.head?, isBlank c = false) :
    cs.dropWhile isBlank = cs := by
  cases cs with
  | nil => rfl
  | cons c cs => exact List.dropWhile_cons_of_neg (by simp [h c rfl])

/-- Trimmed characters stay as they are. -/
theorem trimChars_eq_self {cs : List Char} (h : IsTrimmed cs) : trimChars cs = cs := by
  have hlast : ∀ c ∈ cs.reverse.head?, isBlank c = false := by
    rw [List.head?_reverse]
    exact h.2
  rw [trimChars, dropWhile_isBlank_eq_self h.1, dropWhile_isBlank_eq_self hlast,
    List.reverse_reverse]

/-- Trimming gives trimmed characters. -/
theorem isTrimmed_trimChars (cs : List Char) : IsTrimmed (trimChars cs) := by
  unfold trimChars
  refine ⟨?_, ?_⟩
  · -- What is left is the beginning of what was left at first.
    rw [List.head?_reverse]
    intro c hc
    obtain ⟨ds, hds⟩ := List.dropWhile_suffix isBlank (l := (cs.dropWhile isBlank).reverse)
    refine head?_dropWhile_run isBlank cs c ?_
    rw [← List.getLast?_reverse, ← hds, List.getLast?_append, Option.mem_def.1 hc]
    rfl
  · rw [List.getLast?_reverse]
    exact head?_dropWhile_run isBlank _

/-- Trimming twice is trimming once. -/
theorem trimChars_trim (s : String) : trimChars (trim s).toList = trimChars s.toList := by
  rw [trim, String.toList_ofList, trimChars_eq_self (isTrimmed_trimChars _)]

theorem toNat_lt_of_isBlank {c : Char} (hc : isBlank c = true) :
    c.toNat < 0xD800 ∨ c.toNat = 0xFEFF := by
  simp only [isBlank, Bool.or_eq_true, Bool.and_eq_true, decide_eq_true_eq, beq_iff_eq] at hc
  omega

theorem charUnits_of_isBlank {c : Char} (hc : isBlank c = true) : charUnits c = [c.toNat] := by
  have := toNat_lt_of_isBlank hc
  rw [charUnits, if_pos (by omega)]

/-- The code unit of a blank character belongs to no other character. -/
theorem eq_of_mem_charUnits {b c : Char} (hb : isBlank b = true) (h : b.toNat ∈ charUnits c) :
    c = b := by
  have hblank := toNat_lt_of_isBlank hb
  have hchar := toNat_char c
  unfold charUnits halves at h
  split at h
  · exact Char.toNat_inj.1 (List.mem_singleton.1 h).symm
  · split at h
    · rename_i hhalf
      rw [isHalf_iff] at hhalf
      rw [List.mem_singleton] at h
      omega
    · simp only [List.mem_cons, List.not_mem_nil, or_false] at h
      omega

theorem charUnits_ne_nil (c : Char) : charUnits c ≠ [] := by
  intro h
  have hlength := length_charUnits c
  rw [h] at hlength
  exact Nat.ne_of_lt (unitWidth_pos c) hlength

/-- Characters with the same code units as trimmed ones are trimmed. -/
theorem IsTrimmed.of_charUnits {cs ds : List Char} (hcs : IsTrimmed cs)
    (h : ds.flatMap charUnits = cs.flatMap charUnits) : IsTrimmed ds := by
  -- A blank character at one end is a code unit there, hence a character of `cs` there.
  refine ⟨fun b hb => ?_, fun b hb => ?_⟩
  · obtain ⟨ds, rfl⟩ := List.head?_eq_some_iff.1 (Option.mem_def.1 hb)
    by_contra hblank
    rw [Bool.not_eq_false] at hblank
    rw [List.flatMap_cons, charUnits_of_isBlank hblank] at h
    cases cs with
    | nil => cases h
    | cons c cs =>
      obtain ⟨n, ns, hc⟩ := List.exists_cons_of_ne_nil (charUnits_ne_nil c)
      rw [List.flatMap_cons, hc] at h
      have hmem : b.toNat ∈ charUnits c := by
        rw [hc, (List.cons.inj h).1]
        exact List.mem_cons_self
      have hfirst := hcs.1 c rfl
      rw [eq_of_mem_charUnits hblank hmem, hblank] at hfirst
      cases hfirst
  · obtain ⟨ds, rfl⟩ := List.getLast?_eq_some_iff.1 (Option.mem_def.1 hb)
    by_contra hblank
    rw [Bool.not_eq_false] at hblank
    rw [List.flatMap_append, List.flatMap_singleton, charUnits_of_isBlank hblank] at h
    obtain rfl | ⟨cs, c, rfl⟩ := cs.eq_nil_or_concat
    · simp at h
    · have hc := List.dropLast_concat_getLast (charUnits_ne_nil c)
      rw [List.concat_eq_append, List.flatMap_append, List.flatMap_singleton, ← hc,
        ← List.append_assoc] at h
      have hmem : b.toNat ∈ charUnits c := by
        rw [List.singleton_inj.1 (List.append_inj_right' h rfl)]
        exact List.getLast_mem _
      have hlast := hcs.2 c (by simp)
      rw [eq_of_mem_charUnits hblank hmem, hblank] at hlast
      cases hlast

/-- A trimmed text is still trimmed when its halves are joined. -/
theorem trim_joined {cs : List Char} (hcs : IsTrimmed cs) :
    trim (joined (String.ofList cs)) = joined (String.ofList cs) := by
  unfold joined
  split
  · have hunits := units_ofUnits (units_lt (String.ofList cs))
    have htrimmed : IsTrimmed (ofUnits (units (String.ofList cs))) := by
      refine hcs.of_charUnits ?_
      rw [hunits, units, String.toList_ofList]
    rw [trim, String.toList_ofList, trimChars_eq_self htrimmed]
  · rw [trim, String.toList_ofList, trimChars_eq_self hcs]

end PageExtract.Text
