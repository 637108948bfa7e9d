/-
Sets of code points given by ranges.

* `inRanges ranges n` : whether `n` lies in one of the ranges;
* `inRanges_iff` : that is so exactly when some range has `n` between its ends.
-/

namespace PageExtract.Text

/-- Whether `n` lies in one of the ranges. -/
def inRanges (ranges : List (Nat × Nat)) (n : Nat) : Bool :=
  ranges.any fun r => r.1 ≤ n && n ≤ r.2

/-- A code point is in the set exactly when some range has it between its ends. -/
theorem inRanges_iff {ranges : List (Nat × Nat)} {n : Nat} :
    inRanges ranges n = true ↔ ∃ r ∈ ranges, r.1 ≤ n ∧ n ≤ r.2 := by
  simp [inRanges]

end PageExtract.Text
