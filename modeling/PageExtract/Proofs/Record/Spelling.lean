/-
The spelling of field paths.

A path is spelled by its levels with points between them. No character of a name is a point or a
bracket, so that a spelling can be cut apart again:

* `Segment.ofChars_text`, `Segment.text_ofChars` — a level and its spelling;
* `Path.parse_text` — a path of names is read back from its spelling;
* `Path.text_of_parse` — the spelling of a path that was read is the text it was read from;
* `Path.infix_text`, `Path.mem_text` — what is in the spelling of a path.
-/
import PageExtract.Record.Path

namespace PageExtract

theorem isNameChar_of_isNameStart {c : Char} (h : isNameStart c = true) : isNameChar c = true := by
  simp only [isNameStart, isNameChar, Char.isAlphanum, Bool.or_eq_true] at h ⊢
  rcases h with hletter | hline
  · exact .inl (.inl hletter)
  · exact .inr hline

theorem not_isBlank_of_isNameChar {c : Char} (h : isNameChar c = true) :
    Text.isBlank c = false := by
  have hrange : 48 ≤ c.toNat ∧ c.toNat ≤ 122 := by
    unfold isNameChar Char.isAlphanum Char.isAlpha Char.isUpper Char.isLower Char.isDigit at h
    simp only [Bool.or_eq_true, Bool.and_eq_true, decide_eq_true_eq, beq_iff_eq,
      UInt32.le_iff_toNat_le, ge_iff_le] at h
    rcases h with ((h | h) | h) | rfl
    · exact ⟨Nat.le_trans (by decide) h.1, Nat.le_trans h.2 (by decide)⟩
    · exact ⟨Nat.le_trans (by decide) h.1, Nat.le_trans h.2 (by decide)⟩
    · exact ⟨Nat.le_trans (by decide) h.1, Nat.le_trans h.2 (by decide)⟩
    · decide
  simp only [Text.isBlank, Bool.or_eq_false_iff, Bool.and_eq_false_iff, decide_eq_false_iff_not,
    beq_eq_false_iff_ne]
  omega

/-- A name consists of letters, digits and underscores. -/
theorem isNameChar_of_isName {s : String} (h : isName s = true) {c : Char} (hc : c ∈ s.toList) :
    isNameChar c = true := by
  unfold isName at h
  cases hs : s.toList with
  | nil => simp [hs] at hc
  | cons d cs =>
    rw [hs] at h hc
    simp only [isNameChars, Bool.and_eq_true, List.all_eq_true] at h
    rcases List.mem_cons.1 hc with rfl | hc
    · exact isNameChar_of_isNameStart h.1
    · exact h.2 c hc

theorem not_mem_of_isName {s : String} (h : isName s = true) {c : Char}
    (hc : isNameChar c = false) : c ∉ s.toList := by
  intro hmem
  rw [isNameChar_of_isName h hmem] at hc
  cases hc

theorem splitChars_eq_splitOn (sep : Char) (cs : List Char) :
    splitChars sep cs = cs.splitOn sep := by
  induction cs with
  | nil => simp [splitChars, List.splitOn_eq_splitOnP]
  | cons c cs ih =>
    rw [splitChars, List.splitOn_cons_eq_if_modifyHead, ih]
    split
    · rfl
    · cases hparts : cs.splitOn sep with
      | nil => exact absurd hparts (List.splitOn_ne_nil sep cs)
      | cons part parts => rfl

/-- Characters that do not end in the mark are a name without the mark. -/
theorem Segment.ofChars_of_not_mem {cs : List Char} (h : ']' ∉ cs) :
    Segment.ofChars cs = ⟨String.ofList cs, false⟩ := by
  unfold Segment.ofChars
  split
  · rename_i name hrev
    have hmem : ']' ∈ cs.reverse := by rw [hrev]; exact List.mem_cons_self
    exact absurd (List.mem_reverse.1 hmem) h
  · rfl

/-- A level is read back from its spelling. -/
theorem Segment.ofChars_text {s : Segment} (h : isName s.name = true) :
    Segment.ofChars s.text.toList = s := by
  obtain ⟨name, many⟩ := s
  have hbracket : ']' ∉ name.toList := not_mem_of_isName h (by decide)
  cases many with
  | false =>
    show Segment.ofChars name.toList = _
    rw [Segment.ofChars_of_not_mem hbracket, String.ofList_toList]
  | true =>
    show Segment.ofChars (name ++ "[]").toList = _
    rw [String.toList_append]
    simp [Segment.ofChars]

/-- Any run of characters spells the level that is read from it. -/
theorem Segment.text_ofChars (cs : List Char) : (Segment.ofChars cs).text = String.ofList cs := by
  unfold Segment.ofChars
  split
  · rename_i name hrev
    have hcs : cs = name.reverse ++ ['[', ']'] := by
      rw [← List.reverse_reverse cs, hrev]
      simp
    rw [hcs, String.ofList_append]
    rfl
  · rfl

theorem Segment.point_not_mem_text {s : Segment} (h : isName s.name = true) :
    '.' ∉ s.text.toList := by
  have hname : '.' ∉ s.name.toList := not_mem_of_isName h (by decide)
  unfold Segment.text
  split
  · simpa using hname
  · exact hname

namespace Path

/-- A path is read back from its spelling. -/
theorem parse_text {p : Path} (hne : p ≠ []) (h : ∀ s ∈ p, isName s.name = true) :
    parse p.text = .ok p := by
  -- No level has a point, so that cutting at the points gives the levels back.
  have hsplit : splitChars '.' p.text.toList = p.map fun s => s.text.toList := by
    have hpoint : ∀ cs ∈ p.map (fun s => s.text.toList), '.' ∉ cs := by
      intro cs hcs
      obtain ⟨s, hs, rfl⟩ := List.mem_map.1 hcs
      exact Segment.point_not_mem_text (h s hs)
    rw [splitChars_eq_splitOn, Path.text, String.toList_intercalate, List.map_map]
    exact List.splitOn_intercalate '.' hpoint (by simpa using hne)
  have hsegments : (splitChars '.' p.text.toList).map Segment.ofChars = p := by
    rw [hsplit, List.map_map]
    exact (List.map_congr_left fun s hs => Segment.ofChars_text (h s hs)).trans (List.map_id p)
  have hnone : p.find? (fun s => !isName s.name) = none :=
    List.find?_eq_none.2 fun s hs => by simp [h s hs]
  simp only [parse, hsegments, hnone]

/-- The spelling of a path that was read is the text it was read from. -/
theorem text_of_parse {path : String} {p : Path} (h : parse path = .ok p) : p.text = path := by
  have hp : p = (splitChars '.' path.toList).map Segment.ofChars := by
    unfold parse at h
    simp only at h
    split at h
    · cases h
    · cases h
      rfl
  -- Each part spells the level that was read from it, whether or not it ends in the mark.
  have hparts : p.map (fun s => s.text.toList) = path.toList.splitOn '.' := by
    rw [hp, List.map_map, ← splitChars_eq_splitOn]
    refine (List.map_congr_left fun cs _ => ?_).trans (List.map_id _)
    rw [Function.comp_apply, Segment.text_ofChars, String.toList_ofList, id]
  have hlist : p.text.toList = path.toList := by
    rw [text, String.toList_intercalate, List.map_map]
    exact (congrArg _ hparts).trans (List.intercalate_splitOn '.')
  exact String.toList_inj.1 hlist

theorem text_cons_cons (s t : Segment) (p : Path) :
    text (s :: t :: p) = s.text ++ "." ++ text (t :: p) :=
  String.intercalate_cons_cons

/-- A path contains the spellings of its levels. -/
theorem infix_text {p : Path} {s : Segment} (h : s ∈ p) : s.text.toList <:+: p.text.toList := by
  induction p with
  | nil => cases h
  | cons first p ih =>
    cases p with
    | nil =>
      rw [List.mem_singleton.1 h]
      simp [text]
    | cons next p =>
      rw [text_cons_cons, String.toList_append, String.toList_append]
      rcases List.mem_cons.1 h with rfl | h
      · rw [List.append_assoc]
        exact (List.prefix_append _ _).isInfix
      · exact (ih h).trans (List.suffix_append _ _).isInfix

/-- Besides the spellings of its levels there are only points in a path. -/
theorem mem_text {p : Path} {c : Char} (h : c ∈ p.text.toList) :
    c = '.' ∨ ∃ s ∈ p, c ∈ s.text.toList := by
  induction p with
  | nil => simp [text] at h
  | cons first p ih =>
    cases p with
    | nil => exact .inr ⟨first, List.mem_cons_self, by simpa [text] using h⟩
    | cons next p =>
      rw [text_cons_cons, String.toList_append, String.toList_append] at h
      rcases List.mem_append.1 h with h | h
      · rcases List.mem_append.1 h with h | h
        · exact .inr ⟨first, List.mem_cons_self, h⟩
        · exact .inl (List.mem_singleton.1 h)
      · rcases ih h with hpoint | ⟨s, hs, hc⟩
        · exact .inl hpoint
        · exact .inr ⟨s, List.mem_cons_of_mem first hs, hc⟩

/-- A text that spells a path has only characters of names, points and brackets. -/
theorem not_mem_of_parse {path : String} {p : Path} (h : parse path = .ok p) {c : Char}
    (hname : isNameChar c = false) (hmark : c ∉ ".[]".toList) : c ∉ path.toList := by
  intro hmem
  rw [← text_of_parse h] at hmem
  rcases mem_text hmem with rfl | ⟨s, hs, hc⟩
  · exact hmark (by decide)
  · have hc' : c ∉ s.name.toList := not_mem_of_isName (isName_of_parse h s hs) hname
    unfold Segment.text at hc
    split at hc
    · rw [String.toList_append] at hc
      rcases List.mem_append.1 hc with hc | hc
      · exact hc' hc
      · exact hmark (List.mem_cons_of_mem _ hc)
    · exact hc' hc

/-- What leads to a level of a path that a text spells is read back from its spelling too. -/
theorem parse_text_of_subset {path : String} {p q : Path} (hp : parse path = .ok p)
    (hne : q ≠ []) (h : ∀ s ∈ q, s.name ∈ p.names) : parse q.text = .ok q := by
  refine parse_text hne fun s hs => ?_
  obtain ⟨t, ht, hname⟩ := List.mem_map.1 (h s hs)
  rw [← hname]
  exact isName_of_parse hp t ht

end Path

end PageExtract
