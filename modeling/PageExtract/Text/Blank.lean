/-
White space.

A character is blank when it belongs to one fixed set: tab, line feed, vertical tab, form feed,
carriage return, space, no-break space, byte order mark, line and paragraph separator, and the
space separators of Unicode. The next-line control, the zero width space and the Mongolian
vowel separator are not in it.

* `isBlank` : membership in the set;
* `trim s` : `s` without the blank characters at both ends;
* `words s` : the maximal runs of other characters;
* `isBlank_of_isWhitespace` : what core calls white space is blank here.
-/

namespace PageExtract.Text

/-- The set of blank characters. -/
def isBlank (c : Char) : Bool :=
  let n := c.toNat
  (9 ≤ n && n ≤ 13) || n == 0x20 || n == 0xA0 || n == 0x1680 || (0x2000 ≤ n && n ≤ 0x200A)
    || n == 0x2028 || n == 0x2029 || n == 0x202F || n == 0x205F || n == 0x3000 || n == 0xFEFF

/-- Drops blank characters from both ends of a run of characters. -/
def trimChars (cs : List Char) : List Char :=
  ((cs.dropWhile isBlank).reverse.dropWhile isBlank).reverse

/-- The text without the blank characters at both ends. -/
def trim (s : String) : String := String.ofList (trimChars s.toList)

/-- The maximal runs of non-blank characters, in order. The first argument is the run being
read, last character first. -/
def wordRuns : List Char → List Char → List (List Char)
  | run, [] => if run.isEmpty then [] else [run.reverse]
  | run, c :: cs =>
    if isBlank c then
      if run.isEmpty then wordRuns [] cs else run.reverse :: wordRuns [] cs
    else wordRuns (c :: run) cs

/-- The words of a text: its maximal runs of non-blank characters. -/
def words (s : String) : List String := (wordRuns [] s.toList).map String.ofList

/-- What core calls white space is blank. -/
theorem isBlank_of_isWhitespace {c : Char} (h : c.isWhitespace = true) : isBlank c = true := by
  simp only [Char.isWhitespace, Bool.or_eq_true, decide_eq_true_eq] at h
  rcases h with ((rfl | rfl) | rfl) | rfl <;> rfl

end PageExtract.Text
