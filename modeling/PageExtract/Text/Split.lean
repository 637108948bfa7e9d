/-
Text in parts.

* `splitOn sep cs` : the parts between the occurrences of a character;
* `cutAt mark cs` : what comes before and after the first occurrence of a mark;
* `cutAtLast mark cs` : what comes before and after the last occurrence of a character;
* `splitOn_ne_nil`, `intercalate_splitOn` : there is always a part, and joined the parts are the
  text.
-/

namespace PageExtract.Text

/-- Adds a character to the first of some parts. -/
def consFirst (c : Char) : List (List Char) → List (List Char)
  | [] => [[c]]
  | p :: ps => (c :: p) :: ps

/-- The parts between the occurrences of a character. -/
def splitOn (sep : Char) : List Char → List (List Char)
  | [] => [[]]
  | c :: cs => if c = sep then [] :: splitOn sep cs else consFirst c (splitOn sep cs)

/-- What comes before and after the first occurrence of a mark. -/
def cutAt (mark : List Char) : List Char → Option (List Char × List Char)
  | [] => if mark.isEmpty then some ([], []) else none
  | c :: cs =>
    if mark.isPrefixOf (c :: cs) then some ([], (c :: cs).drop mark.length)
    else (cutAt mark cs).map fun p => (c :: p.1, p.2)

/-- What comes before and after the last occurrence of a character. -/
def cutAtLast (mark : Char) (cs : List Char) : Option (List Char × List Char) :=
  let back := cs.reverse
  if back.contains mark then
    some (((back.dropWhile (· != mark)).drop 1).reverse, (back.takeWhile (· != mark)).reverse)
  else none

theorem splitOn_ne_nil (sep : Char) (cs : List Char) : splitOn sep cs ≠ [] := by
  induction cs with
  | nil => simp [splitOn]
  | cons c cs ih =>
    unfold splitOn
    split
    · simp
    · cases h : splitOn sep cs <;> simp [consFirst]

/-- Joined with the character between them, the parts are the text. -/
theorem intercalate_splitOn (sep : Char) (cs : List Char) :
    [sep].intercalate (splitOn sep cs) = cs := by
  induction cs with
  | nil => rfl
  | cons c cs ih =>
    unfold splitOn
    cases h : splitOn sep cs with
    | nil => exact absurd h (splitOn_ne_nil sep cs)
    | cons p ps =>
      rw [h] at ih
      split
      · subst c
        cases ps <;> simp_all [List.intercalate, List.intersperse]
      · cases ps <;> simp_all [consFirst, List.intercalate, List.intersperse]

/-- A text without the character is one part. -/
theorem splitOn_of_not_mem {sep : Char} {cs : List Char} (h : sep ∉ cs) :
    splitOn sep cs = [cs] := by
  induction cs with
  | nil => rfl
  | cons c cs ih =>
    simp only [List.mem_cons, not_or] at h
    simp [splitOn, Ne.symm h.1, ih h.2, consFirst]

end PageExtract.Text
