/-
Paths of addresses.

A path is resolved before it is sent: a part `.` is dropped, and a part `..` drops the part before
it, too. At the end of a path both leave a slash.

* `resolveParts` : the parts of a path without dots;
* `resolvePath` : a path without dots;
* `resolveParts_of_plain` : parts without dots stay as they are.
-/
import PageExtract.Text.Split

namespace PageExtract.Address

/-- Whether a part of a path is a dot, written as it is or as its byte. -/
def isDot (part : List Char) : Bool :=
  [".".toList, "%2e".toList].contains (part.map Char.toLower)

/-- Whether a part of a path is two dots, each written as it is or as its byte. -/
def isTwoDots (part : List Char) : Bool :=
  ["..".toList, ".%2e".toList, "%2e.".toList, "%2e%2e".toList].contains (part.map Char.toLower)

/-- The parts of a path without dots. `done` holds the parts so far, the last one first. -/
def resolveParts (done : List (List Char)) : List (List Char) → List (List Char)
  | [] => done.reverse
  | p :: ps =>
    if isTwoDots p then resolveParts (if ps.isEmpty then [] :: done.drop 1 else done.drop 1) ps
    else if isDot p then resolveParts (if ps.isEmpty then [] :: done else done) ps
    else resolveParts (p :: done) ps

/-- A path without dots. There is always a slash at its beginning. -/
def resolvePath (path : List Char) : List Char :=
  match resolveParts [] ((Text.splitOn '/' path).drop 1) with
  | [] => ['/']
  | ps => ps.flatMap ('/' :: ·)

/-- Parts without dots stay as they are. -/
theorem resolveParts_of_plain (done ps : List (List Char))
    (h : ∀ p ∈ ps, isDot p = false ∧ isTwoDots p = false) :
    resolveParts done ps = done.reverse ++ ps := by
  induction ps generalizing done with
  | nil => simp [resolveParts]
  | cons p ps ih =>
    have hp := h p (by simp)
    have ih' := ih (p :: done) fun q hq => h q (by simp [hq])
    simp [resolveParts, hp.1, hp.2, ih']

end PageExtract.Address
