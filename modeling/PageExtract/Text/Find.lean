/-
Text inside text.

Texts are compared by their code units, so half a surrogate pair is found inside a whole one.

* `occursIn needle text` : whether `needle` is a contiguous part of `text`;
* `contains s t`, `startsWith s t`, `endsWith s t` : the same on texts;
* `occursIn_iff` : a part is found exactly when the text splits around it.
-/
import PageExtract.Text.Units

namespace PageExtract.Text

/-- Whether the first list is a contiguous part of the second. -/
def occursIn {α : Type} [BEq α] (needle : List α) : List α → Bool
  | [] => needle.isEmpty
  | c :: cs => needle.isPrefixOf (c :: cs) || occursIn needle cs

/-- Whether `part` occurs in `s`. -/
def contains (s part : String) : Bool := occursIn (units part) (units s)

/-- Whether `s` ends in `tail`. -/
def endsWith (s tail : String) : Bool := (units tail).isSuffixOf (units s)

/-- Whether `s` begins with `head`. -/
def startsWith (s head : String) : Bool := (units head).isPrefixOf (units s)

/-- A part is found exactly when the text splits around it. -/
theorem occursIn_iff {α : Type} [BEq α] [LawfulBEq α] {needle cs : List α} :
    occursIn needle cs = true ↔ ∃ before after, cs = before ++ needle ++ after := by
  induction cs with
  | nil =>
    constructor
    · intro h
      exact ⟨[], [], by simpa [occursIn] using h⟩
    · rintro ⟨before, after, h⟩
      simp at h
      simp [occursIn, h.2.1]
  | cons c cs ih =>
    constructor
    · intro h
      simp only [occursIn, Bool.or_eq_true] at h
      rcases h with h | h
      · obtain ⟨after, ha⟩ := List.isPrefixOf_iff_prefix.1 h
        exact ⟨[], after, by simpa using ha.symm⟩
      · obtain ⟨before, after, rfl⟩ := ih.1 h
        exact ⟨c :: before, after, rfl⟩
    · rintro ⟨before, after, h⟩
      simp only [occursIn, Bool.or_eq_true]
      cases before with
      | nil => exact Or.inl (List.isPrefixOf_iff_prefix.2 ⟨after, by simpa using h.symm⟩)
      | cons b bs =>
        simp only [List.cons_append, List.cons.injEq] at h
        exact Or.inr (ih.2 ⟨bs, after, h.2⟩)

end PageExtract.Text
