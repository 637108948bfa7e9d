/-
Values checked against a schema.

A check lists what is wrong with a value. It also answers what the value reads as, unless something
is so wrong that it cannot be read. A value that can be read but has issues is still checked
further, so that as many issues as possible are listed; in the end it is refused.

* `Fault`, `Issue` : what is wrong, and where;
* `Checked` : what a value reads as, and the issues;
* `Checked.flagIf` : one more issue for a value that can be read;
* `Checked.settled` : a value with issues cannot be read;
* `Checked.toExcept` : the value if there are no issues, else the issues.
-/
import PageExtract.Value.Basic

namespace PageExtract

/-- The kinds of plain values. -/
inductive ValueKind where
  | null
  | bool
  | num
  | str
  | list
  | map
deriving DecidableEq, Repr, Inhabited

/-- How messages name a kind. -/
def ValueKind.text : ValueKind → String
  | null => "null"
  | bool => "boolean"
  | num => "number"
  | str => "string"
  | list => "array"
  | map => "object"

/-- The kind of a value. -/
def Value.kind {ν : Type} : Value ν → ValueKind
  | .null => .null
  | .bool _ => .bool
  | .num _ => .num
  | .str _ => .str
  | .list _ => .list
  | .map _ => .map

/-- What can be wrong with a value. -/
inductive Fault where
  /-- A value is missing, or is of another kind than it should be. -/
  | kind (expected : ValueKind) (found : Option ValueKind)
  /-- A choice is missing or is no text. -/
  | choiceKind (choices : List String) (found : Option ValueKind)
  /-- A text is none of the choices. -/
  | choice (choices : List String) (found : String)
  | emptyText
  | tooFew (least : Nat)
  | tooMany (most : Nat)
  | notPositive
  | tooLow (least : Nat)
  | tooHigh (most : Nat)
  | notWhole
  /-- The edges of a box are crossed. -/
  | crossedEdges
  /-- A block lies on a page that the document does not have. -/
  | pageOutside (page count : String)
  /-- Two blocks have one id. -/
  | repeatedBlock (id : String)
deriving DecidableEq, Repr, Inhabited

/-- The choices as messages list them. -/
def choicesText (choices : List String) : String :=
  " | ".intercalate (choices.map fun c => s!"'{c}'")

/-- The words for a missing or a mistaken value. -/
def expectedText (expected : String) : Option ValueKind → String
  | none => "Required"
  | some found => s!"Expected {expected}, received {found.text}"

/-- The words for a fault. -/
def Fault.message : Fault → String
  | kind expected found => expectedText expected.text found
  | choiceKind choices found => expectedText (choicesText choices) found
  | choice choices found =>
    s!"Invalid enum value. Expected {choicesText choices}, received '{found}'"
  | emptyText => "String must contain at least 1 character(s)"
  | tooFew least => s!"Array must contain at least {least} element(s)"
  | tooMany most => s!"Array must contain at most {most} element(s)"
  | notPositive => "Number must be greater than 0"
  | tooLow least => s!"Number must be greater than or equal to {least}"
  | tooHigh most => s!"Number must be less than or equal to {most}"
  | notWhole => "Expected integer, received float"
  | crossedEdges => "expected x0<=x1 and y0<=y1"
  | pageOutside page count => s!"page {page} outside page_count {count}"
  | repeatedBlock id => s!"duplicate block id '{id}'"

/-- A fault and the names and positions that lead to where it is. -/
structure Issue where
  place : List String
  fault : Fault
deriving DecidableEq, Repr, Inhabited

/-- The words for an issue. -/
def Issue.message (i : Issue) : String :=
  if i.place.isEmpty then i.fault.message
  else ".".intercalate i.place ++ ": " ++ i.fault.message

/-- What a value reads as, if it can be read, and what is wrong with it. -/
structure Checked (α : Type) where
  value? : Option α
  issues : List Issue
deriving Inhabited

namespace Checked

variable {α β : Type}

/-- A value with nothing wrong. -/
def good (a : α) : Checked α := ⟨some a, []⟩

/-- A value that cannot be read. -/
def bad (fault : Fault) : Checked α := ⟨none, [⟨[], fault⟩]⟩

/-- Several values read one after the other: the result can be read if all of them can, and all
their issues are listed. -/
instance : Applicative Checked where
  pure := good
  seq f x :=
    let y := x ()
    ⟨f.value? <*> y.value?, f.issues ++ y.issues⟩

/-- One more issue, if the value can be read and the test says so. -/
def flagIf (test : α → Bool) (fault : Fault) (c : Checked α) : Checked α :=
  match c.value? with
  | some a => if test a then ⟨some a, c.issues ++ [⟨[], fault⟩]⟩ else c
  | none => c

/-- More issues, if the value can be read. -/
def flagAll (more : α → List Issue) (c : Checked α) : Checked α :=
  match c.value? with
  | some a => ⟨some a, c.issues ++ more a⟩
  | none => c

/-- A value with issues counts as one that cannot be read. -/
def settled (c : Checked α) : Checked α := if c.issues.isEmpty then c else ⟨none, c.issues⟩

/-- The same below a name or a position. -/
def below (step : String) (c : Checked α) : Checked α :=
  ⟨c.value?, c.issues.map fun i => ⟨step :: i.place, i.fault⟩⟩

/-- The value if nothing is wrong, else what is wrong. -/
def toExcept (c : Checked α) : Except (List Issue) α :=
  match c.value?, c.issues with
  | some a, [] => .ok a
  | _, issues => .error issues

@[simp] theorem value_pure (a : α) : (pure a : Checked α).value? = some a := rfl

@[simp] theorem issues_pure (a : α) : (pure a : Checked α).issues = [] := rfl

@[simp] theorem value_seq (f : Checked (α → β)) (x : Checked α) :
    (f <*> x).value? = f.value? <*> x.value? := rfl

@[simp] theorem issues_seq (f : Checked (α → β)) (x : Checked α) :
    (f <*> x).issues = f.issues ++ x.issues := rfl

@[simp] theorem value_map (f : α → β) (x : Checked α) : (f <$> x).value? = x.value?.map f := by
  cases x with
  | mk v is => cases v <;> rfl

@[simp] theorem issues_map (f : α → β) (x : Checked α) : (f <$> x).issues = x.issues := rfl

@[simp] theorem issues_below (step : String) (c : Checked α) :
    (c.below step).issues = [] ↔ c.issues = [] := by
  simp [below]

/-- A value is answered exactly if it can be read and nothing is wrong. -/
theorem toExcept_eq_ok_iff {c : Checked α} {a : α} :
    c.toExcept = .ok a ↔ c.value? = some a ∧ c.issues = [] := by
  unfold toExcept
  split <;> simp_all

end Checked

end PageExtract
