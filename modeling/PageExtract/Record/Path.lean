/-
Field paths.

A path is a sequence of names separated by points. A name may carry the mark `[]`, which says that
its level is a sequence of records.

* `Segment`, `Path` : a name with or without the mark, and a sequence of them;
* `Path.parse` : the path that a text spells;
* `Path.text` : how a path is spelled;
* `Path.names` : its names without the marks.
-/
import PageExtract.Expr.Token

namespace PageExtract

/-- One level of a path. -/
structure Segment where
  name : String
  /-- Whether the name carries the mark `[]`. -/
  many : Bool
deriving DecidableEq, Repr, Inhabited

/-- A path: its levels from the root. -/
abbrev Path := List Segment

/-- A text that is no path, and the first of its names that is no name. -/
structure PathError where
  name : String
  path : String
deriving DecidableEq, Repr, Inhabited

/-- The words of the error. -/
def PathError.message (e : PathError) : String :=
  s!"invalid path segment '{e.name}' in '{e.path}'"

/-- Cuts a run of characters at each occurrence of one of them. -/
def splitChars (sep : Char) : List Char → List (List Char)
  | [] => [[]]
  | c :: cs =>
    if c == sep then [] :: splitChars sep cs
    else match splitChars sep cs with
      | part :: parts => (c :: part) :: parts
      | [] => [[c]]

/-- The level that a text between two points spells: a trailing `[]` is the mark. -/
def Segment.ofChars (cs : List Char) : Segment :=
  match cs.reverse with
  | ']' :: '[' :: name => ⟨String.ofList name.reverse, true⟩
  | _ => ⟨String.ofList cs, false⟩

/-- How a level is spelled. -/
def Segment.text (s : Segment) : String := if s.many then s.name ++ "[]" else s.name

namespace Path

/-- The path that a text spells. -/
def parse (path : String) : Except PathError Path :=
  let segments := (splitChars '.' path.toList).map Segment.ofChars
  match segments.find? fun s => !isName s.name with
  | some bad => .error ⟨bad.name, path⟩
  | none => .ok segments

/-- How a path is spelled. -/
def text (p : Path) : String := ".".intercalate (p.map Segment.text)

/-- The names of a path, without the marks. -/
def names (p : Path) : List String := p.map (·.name)

/-- A parsed path has only names. -/
theorem isName_of_parse {path : String} {p : Path} (h : parse path = .ok p) :
    ∀ s ∈ p, isName s.name = true := by
  unfold parse at h
  simp only at h
  split at h
  · cases h
  · rename_i hnone
    cases h
    intro s hs
    have := List.find?_eq_none.1 hnone s hs
    simpa using this

theorem splitChars_ne_nil (sep : Char) (cs : List Char) : splitChars sep cs ≠ [] := by
  cases cs with
  | nil => simp [splitChars]
  | cons c cs =>
    unfold splitChars
    split
    · simp
    · split <;> simp

/-- A parsed path has at least one level. -/
theorem ne_nil_of_parse {path : String} {p : Path} (h : parse path = .ok p) : p ≠ [] := by
  unfold parse at h
  simp only at h
  split at h
  · cases h
  · cases h
    simp [splitChars_ne_nil]

end Path

end PageExtract
