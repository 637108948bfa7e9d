/-
Characters of identifiers.

An identifier starts with a letter, a dollar sign or an underscore. It goes on with these, with
digits, and with the marks, digits and joiners that Unicode lets an identifier continue with.

* `isIdentifierStart n` : whether an identifier can start with the code point `n`;
* `isIdentifierPart n` : whether it can go on with `n`;
* `isIdentifierPart_of_start` : what can start an identifier can stand anywhere in it.
-/
import PageExtract.Text.LetterTable
import PageExtract.Text.Ranges

namespace PageExtract.Text

/-- Whether an identifier can start with a code point. -/
def isIdentifierStart (n : Nat) : Bool :=
  if n < 0x80 then (65 ≤ n && n ≤ 90) || (97 ≤ n && n ≤ 122) || n == 36 || n == 95
  else inRanges letterRuns n

/-- Whether an identifier can go on with a code point. -/
def isIdentifierPart (n : Nat) : Bool :=
  isIdentifierStart n || (48 ≤ n && n ≤ 57) || inRanges continuationRuns n

/-- What can start an identifier can stand anywhere in it. -/
theorem isIdentifierPart_of_start {n : Nat} (h : isIdentifierStart n = true) :
    isIdentifierPart n = true := by
  simp [isIdentifierPart, h]

end PageExtract.Text
