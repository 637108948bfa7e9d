/-
The words of a text in lower case.

Lower case keeps blank characters blank and others not blank. So a text that has no blank character
between others has at most one word in lower case.

* `blankRanges`, `isBlank_eq_inRanges` — the codes of blank characters;
* `isBlank_lowerChar`, `exists_lowerChars_append` — lower case of blank and of other characters;
* `wordRuns_append_of_blank`, `wordRuns_append_of_not_blank` — words across runs of characters;
* `length_words_lower_le_one` — a text without blank characters inside has at most one word.
-/
import Mathlib.Data.List.TakeWhile
import PageExtract.Proofs.Text.Trim
import PageExtract.Text.Case

namespace PageExtract.Text

/-! ### Blank characters and case -/

/-- The codes of blank characters. -/
def blankRanges : List (Nat × Nat) := [
    (9, 13), (0x20, 0x20), (0xA0, 0xA0), (0x1680, 0x1680), (0x2000, 0x200A), (0x2028, 0x2029),
    (0x202F, 0x202F), (0x205F, 0x205F), (0x3000, 0x3000), (0xFEFF, 0xFEFF)]

theorem isBlank_eq_inRanges (c : Char) : isBlank c = inRanges blankRanges c.toNat := by
  rw [Bool.eq_iff_iff, inRanges_iff]
  simp only [isBlank, Bool.or_eq_true, Bool.and_eq_true, decide_eq_true_eq, beq_iff_eq]
  simp only [blankRanges, List.exists_mem_cons_iff, List.not_mem_nil, false_and, exists_false,
    or_false]
  omega

/-- The runs of lower case mappings pass by blank characters, and so do their images. -/
theorem lowerRuns_apart : ∀ r ∈ lowerRuns, ∀ s ∈ blankRanges, 0 < s.1 ∧
    (r.last < s.1 ∨ s.2 < r.first) ∧
    ((r.last : Int) + r.shift < s.1 ∨ (s.2 : Int) < r.first + r.shift) := by
  decide +kernel

theorem isBlank_ofNat {n : Nat} (h : inRanges blankRanges n = false) :
    isBlank (Char.ofNat n) = false := by
  by_cases hn : n.isValidChar
  · rw [isBlank_eq_inRanges, toNat_ofNat hn]
    exact h
  · have hzero : Char.ofNat n = Char.ofNat 0 := by
      unfold Char.ofNat
      rw [dif_neg hn]
      rfl
    rw [hzero]
    rfl

theorem isBlank_mapped (c : Char) :
    isBlank (Char.ofNat (mapped lowerRuns c.toNat)) = isBlank c := by
  unfold mapped
  cases hshift : shiftOf lowerRuns c.toNat with
  | none => exact congrArg isBlank (Char.ofNat_toNat c)
  | some d =>
    obtain ⟨r, hr, rfl⟩ := Option.map_eq_some_iff.1 hshift
    have happlies := List.find?_some hr
    simp only [Bool.and_eq_true, decide_eq_true_eq] at happlies
    obtain ⟨⟨hfirst, hlast⟩, -⟩ := happlies
    have hrun := lowerRuns_apart r (List.mem_of_find?_eq_some hr)
    -- Neither the character nor what it is mapped to is blank.
    have hbefore : isBlank c = false := by
      rw [isBlank_eq_inRanges, ← Bool.not_eq_true, inRanges_iff]
      rintro ⟨s, hs, hlow, hhigh⟩
      have := hrun s hs
      omega
    have hafter : inRanges blankRanges ((c.toNat : Int) + r.shift).toNat = false := by
      rw [← Bool.not_eq_true, inRanges_iff]
      rintro ⟨s, hs, hlow, hhigh⟩
      have := hrun s hs
      omega
    rw [hbefore]
    exact isBlank_ofNat hafter

theorem isBlank_toLower {c : Char} (hc : c.toNat < 0x80) : isBlank c.toLower = isBlank c := by
  have hascii : ∀ n < 0x80, isBlank (Char.ofNat n).toLower = isBlank (Char.ofNat n) := by decide
  have h := hascii c.toNat hc
  rwa [Char.ofNat_toNat] at h

/-- The lower case of a character is blank exactly if the character is. -/
theorem isBlank_lowerChar (c : Char) : ∀ d ∈ lowerChar c, isBlank d = isBlank c := by
  intro d hd
  unfold lowerChar at hd
  simp only at hd
  split at hd
  · rename_i hascii
    rw [List.mem_singleton.1 hd]
    exact isBlank_toLower hascii
  · split at hd
    · rename_i hdotted
      have hc : c = Char.ofNat 0x130 := by
        rw [← beq_iff_eq.1 hdotted, Char.ofNat_toNat]
      rw [hc]
      obtain rfl | hd := List.mem_cons.1 hd
      · rfl
      · rw [List.mem_singleton.1 hd]
        rfl
    · rw [List.mem_singleton.1 hd]
      exact isBlank_mapped c

/-- The lower case of a text begins with that of its first character, whatever comes after it. -/
theorem exists_lowerChars_cons (inWord : Bool) (c : Char) (cs : List Char) :
    ∃ ds inWord', lowerChars inWord (c :: cs) = ds ++ lowerChars inWord' cs ∧
      ∀ d ∈ ds, isBlank d = isBlank c := by
  rw [lowerChars]
  split
  · rename_i hascii
    rw [Bool.and_eq_true, decide_eq_true_eq] at hascii
    exact ⟨[c.toLower], c.isAlpha, rfl, List.forall_mem_singleton.2 (isBlank_toLower hascii.1)⟩
  · simp only
    split
    · rename_i hsigma
      rw [beq_iff_eq.1 hsigma]
      refine ⟨[_], _, rfl, List.forall_mem_singleton.2 ?_⟩
      split <;> rfl
    · exact ⟨lowerChar c, _, rfl, isBlank_lowerChar c⟩

/-- Characters that are all blank, or none of them, stay so in lower case. -/
theorem exists_lowerChars_append {p : Bool} {xs : List Char} (hxs : ∀ c ∈ xs, isBlank c = p)
    (inWord : Bool) (ys : List Char) :
    ∃ zs inWord', lowerChars inWord (xs ++ ys) = zs ++ lowerChars inWord' ys ∧
      ∀ c ∈ zs, isBlank c = p := by
  induction xs generalizing inWord with
  | nil => exact ⟨[], inWord, rfl, List.forall_mem_nil _⟩
  | cons c xs ih =>
    obtain ⟨hc, hrest⟩ := List.forall_mem_cons.1 hxs
    obtain ⟨ds, inWord', hfirst, hds⟩ := exists_lowerChars_cons inWord c (xs ++ ys)
    obtain ⟨zs, inWord'', hlower, hzs⟩ := ih hrest inWord'
    refine ⟨ds ++ zs, inWord'', ?_, ?_⟩
    · rw [List.cons_append, hfirst, hlower, List.append_assoc]
    · intro d hd
      rcases List.mem_append.1 hd with hd | hd
      · rw [hds d hd, hc]
      · exact hzs d hd

/-! ### Words -/

/-- Blank characters end a word, if there is one. -/
theorem wordRuns_append_of_blank {xs : List Char} (hxs : ∀ c ∈ xs, isBlank c = true)
    (ys : List Char) : wordRuns [] (xs ++ ys) = wordRuns [] ys := by
  induction xs with
  | nil => rfl
  | cons c xs ih =>
    obtain ⟨hc, hrest⟩ := List.forall_mem_cons.1 hxs
    rw [List.cons_append, wordRuns, hc]
    exact ih hrest

/-- Other characters go on with the word that is read. -/
theorem wordRuns_append_of_not_blank {xs : List Char} (hxs : ∀ c ∈ xs, isBlank c = false)
    (run ys : List Char) : wordRuns run (xs ++ ys) = wordRuns (xs.reverse ++ run) ys := by
  induction xs generalizing run with
  | nil => rfl
  | cons c xs ih =>
    obtain ⟨hc, hrest⟩ := List.forall_mem_cons.1 hxs
    rw [List.cons_append, wordRuns, hc, List.reverse_cons, List.append_assoc]
    exact ih hrest (c :: run)

/-- The word that is read is the last one if only blank characters come after it. -/
theorem length_wordRuns_of_blank {xs : List Char} (hxs : ∀ c ∈ xs, isBlank c = true)
    (run : List Char) : (wordRuns run xs).length ≤ 1 := by
  have hnone : ∀ {ys : List Char}, (∀ c ∈ ys, isBlank c = true) → wordRuns [] ys = [] := by
    intro ys hys
    have h := wordRuns_append_of_blank hys []
    rwa [List.append_nil] at h
  cases xs with
  | nil =>
    rw [wordRuns]
    split <;> simp
  | cons c xs =>
    obtain ⟨hc, hrest⟩ := List.forall_mem_cons.1 hxs
    rw [wordRuns, hc, if_pos rfl, hnone hrest]
    split <;> simp

/-- Trimming takes blank characters away from both ends. -/
theorem exists_eq_append_trimChars (cs : List Char) :
    ∃ before after, cs = before ++ (trimChars cs ++ after) ∧
      (∀ c ∈ before, isBlank c = true) ∧ ∀ c ∈ after, isBlank c = true := by
  have hleft := List.takeWhile_append_dropWhile (p := isBlank) (l := cs)
  have hright :=
    List.takeWhile_append_dropWhile (p := isBlank) (l := (cs.dropWhile isBlank).reverse)
  refine ⟨cs.takeWhile isBlank, ((cs.dropWhile isBlank).reverse.takeWhile isBlank).reverse, ?_,
    fun c hc => List.mem_takeWhile_imp hc,
    fun c hc => List.mem_takeWhile_imp (List.mem_reverse.1 hc)⟩
  rw [trimChars, ← List.reverse_append, hright, List.reverse_reverse, hleft]

/-- Trimming keeps a character at the front that is not blank. -/
theorem trimChars_cons {c : Char} (hc : isBlank c = false) (cs : List Char) :
    ∃ ds, trimChars (c :: cs) = c :: ds := by
  obtain ⟨before, after, hsplit, hbefore, hafter⟩ := exists_eq_append_trimChars (c :: cs)
  have hnil : before = [] := by
    cases before with
    | nil => rfl
    | cons d ds =>
      obtain ⟨rfl, -⟩ := List.cons.inj hsplit
      simp [hbefore c List.mem_cons_self] at hc
  rw [hnil, List.nil_append] at hsplit
  cases htrim : trimChars (c :: cs) with
  | nil =>
    rw [htrim, List.nil_append] at hsplit
    simp [hafter c (hsplit ▸ List.mem_cons_self)] at hc
  | cons d ds =>
    rw [htrim] at hsplit
    obtain ⟨rfl, -⟩ := List.cons.inj hsplit
    exact ⟨ds, rfl⟩

/-- A text that has no blank character between others has at most one word in lower case. -/
theorem length_words_lower_le_one {s : String} (hs : (trim s).toList.any isBlank = false) :
    (words (lower s)).length ≤ 1 := by
  have hcore : ∀ c ∈ trimChars s.toList, isBlank c = false := by
    intro c hc
    rw [trim, String.toList_ofList, List.any_eq_false] at hs
    exact Bool.eq_false_iff.2 (hs c hc)
  obtain ⟨before, after, hsplit, hbefore, hafter⟩ := exists_eq_append_trimChars s.toList
  obtain ⟨xs, inWord, hfirst, hxs⟩ :=
    exists_lowerChars_append hbefore false (trimChars s.toList ++ after)
  obtain ⟨ys, inWord', hsecond, hys⟩ := exists_lowerChars_append hcore inWord after
  obtain ⟨zs, inWord'', hthird, hzs⟩ := exists_lowerChars_append hafter inWord' []
  rw [List.append_nil] at hthird
  have hlower : (lower s).toList = xs ++ (ys ++ zs) := by
    rw [lower, String.toList_ofList, hsplit, hfirst, hsecond, hthird]
    simp [lowerChars]
  rw [words, List.length_map, hlower, wordRuns_append_of_blank hxs,
    wordRuns_append_of_not_blank hys]
  exact length_wordRuns_of_blank hzs _

end PageExtract.Text
