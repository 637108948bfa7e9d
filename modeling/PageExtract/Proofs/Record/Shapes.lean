/-
Writes and the scalars in a tree.

A write looks at names and at the shapes of nodes, and at how long a list is, but never at a scalar.
So it commutes with a function on scalars, and two trees of the same shape remain so when values of
the same shape are written into them, with the same outcome:

* `Node.mapScalars`, `Record.mapScalars`, `Extracted.mapScalars` — a function on all scalars;
* `Record.childMap_mapScalars`, `Record.childSequence_mapScalars`, `Record.leafConflict_mapScalars` —
  what a write finds below a name;
* `Record.writeBelow_mapScalars`, `Record.write_mapScalars` — writes commute with it;
* `Record.SameShape`, `Extracted.SameShape` — trees and values that differ in their scalars only;
* `Record.sameShape_write` — writes into trees of the same shape.
-/
import PageExtract.Proofs.Record.Supply
import PageExtract.Proofs.Value.Members

namespace PageExtract

variable {ν μ : Type}

/-! ### A function on all scalars -/

mutual

/-- A function applied to every scalar of a node. -/
def Node.mapScalars (f : Scalar ν → Scalar μ) : Node ν → Node μ
  | .scalar v => .scalar (f v)
  | .list vs => .list (vs.map f)
  | .map entries => .map (mapEntries f entries)
  | .sequence records => .sequence (mapRecords f records)

/-- A function applied to every scalar below the names of a record. -/
def mapEntries (f : Scalar ν → Scalar μ) : List (String × Node ν) → List (String × Node μ)
  | [] => []
  | (k, n) :: es => (k, n.mapScalars f) :: mapEntries f es

/-- A function applied to every scalar of some records. -/
def mapRecords (f : Scalar ν → Scalar μ) : List (List (String × Node ν)) →
    List (List (String × Node μ))
  | [] => []
  | r :: rs => mapEntries f r :: mapRecords f rs

end

/-- A function applied to every scalar of a tree. -/
def Record.mapScalars (f : Scalar ν → Scalar μ) (r : Record ν) : Record μ :=
  r.map fun m => (m.1, m.2.mapScalars f)

/-- A function applied to the scalars of a value. -/
def Extracted.mapScalars (f : Scalar ν → Scalar μ) : Extracted ν → Extracted μ
  | .one v => .one (f v)
  | .many vs => .many (vs.map f)

/-- A function applied to the scalars of a supply. -/
def Supply.mapScalars (f : Scalar ν → Scalar μ) : Supply ν → Supply μ
  | .same node => .same (node.mapScalars f)
  | .deal vs => .deal (vs.map f)

section

variable (f : Scalar ν → Scalar μ)

theorem mapEntries_eq (r : Record ν) : mapEntries f r = r.mapScalars f := by
  induction r with
  | nil => rfl
  | cons m r ih => exact congrArg ((m.1, m.2.mapScalars f) :: ·) ih

theorem mapRecords_eq (rs : List (Record ν)) :
    mapRecords f rs = rs.map (Record.mapScalars f) := by
  induction rs with
  | nil => rfl
  | cons r rs ih => rw [mapRecords, mapEntries_eq, ih, List.map_cons]

@[simp] theorem Node.mapScalars_map (r : Record ν) :
    (Node.map r).mapScalars f = .map (r.mapScalars f) :=
  congrArg Node.map (mapEntries_eq f r)

@[simp] theorem Node.mapScalars_sequence (rs : List (Record ν)) :
    (Node.sequence rs).mapScalars f = .sequence (rs.map (Record.mapScalars f)) :=
  congrArg Node.sequence (mapRecords_eq f rs)

theorem Supply.next_mapScalars (s : Supply ν) :
    (s.mapScalars f).next = s.next.map (Node.mapScalars f) := by
  cases s with
  | same node => rfl
  | deal vs => cases vs <;> rfl

theorem Supply.rest_mapScalars (s : Supply ν) : (s.mapScalars f).rest = s.rest.mapScalars f := by
  cases s with
  | same node => rfl
  | deal vs => cases vs <;> rfl

namespace Record

/-! ### What a write finds -/

theorem get?_mapScalars (r : Record ν) (name : String) :
    Members.get? (r.mapScalars f) name = (Members.get? r name).map (Node.mapScalars f) :=
  Members.get?_map (Node.mapScalars f) r name

theorem put_mapScalars (r : Record ν) (name : String) (n : Node ν) :
    Members.put (r.mapScalars f) name (n.mapScalars f) = mapScalars f (Members.put r name n) :=
  Members.put_map (Node.mapScalars f) r name n

theorem childMap_mapScalars (r : Record ν) (name : String) :
    childMap (r.mapScalars f) name =
      ((childMap r name).1.mapScalars f, (childMap r name).2) := by
  unfold childMap
  rw [get?_mapScalars]
  cases Members.get? r name with
  | none => rfl
  | some n =>
    cases n with
    | scalar v => rfl
    | list vs => rfl
    | map entries => simp
    | sequence records => rfl

theorem childSequence_mapScalars (r : Record ν) (name : String) (size : Nat) :
    childSequence (r.mapScalars f) name size =
      ((childSequence r name size).1.map (mapScalars f), (childSequence r name size).2) := by
  have hempty : ∀ n, List.replicate n ([] : Record μ) =
      (List.replicate n ([] : Record ν)).map (mapScalars f) := by
    intro n
    rw [List.map_replicate]
    rfl
  unfold childSequence
  rw [get?_mapScalars]
  cases Members.get? r name with
  | none => exact congrArg (·, none) (hempty size)
  | some n =>
    cases n with
    | scalar v => exact congrArg (·, some _) (hempty size)
    | list vs => exact congrArg (·, some _) (hempty size)
    | map entries => exact congrArg (·, some _) (hempty size)
    | sequence records =>
      simp only [Option.map_some, Node.mapScalars_sequence, List.length_map, List.map_append]
      rw [hempty]

theorem leafConflict_mapScalars (r : Record ν) (name : String) :
    leafConflict (r.mapScalars f) name = leafConflict r name := by
  unfold leafConflict
  rw [get?_mapScalars]
  cases Members.get? r name with
  | none => rfl
  | some n => cases n <;> rfl

end Record

/-! ### Writes -/

/-- What a write leaves, with a function applied to the scalars in it. -/
def Written.mapScalars {α β : Type} (g : α → β) (w : Written ν α) : Written μ β :=
  ⟨g w.result, w.supply.mapScalars f, w.reached, w.targets, w.replaced⟩

namespace Record

theorem writeLeaf_mapScalars (name : String) (s : Supply ν) (r : Record ν) :
    writeLeaf name (s.mapScalars f) (r.mapScalars f) =
      (writeLeaf name s r).mapScalars f (mapScalars f) := by
  unfold writeLeaf
  rw [Supply.next_mapScalars, Supply.rest_mapScalars, leafConflict_mapScalars]
  cases s.next with
  | none => rfl
  | some n =>
    simp only [Option.map_some, put_mapScalars]
    rfl

theorem writeEach_mapScalars {g : Supply ν → Record ν → Written ν (Record ν)}
    {g' : Supply μ → Record μ → Written μ (Record μ)}
    (hg : ∀ s r, g' (s.mapScalars f) (r.mapScalars f) = (g s r).mapScalars f (mapScalars f))
    (s : Supply ν) (rs : List (Record ν)) :
    writeEach g' (s.mapScalars f) (rs.map (mapScalars f)) =
      (writeEach g s rs).mapScalars f (List.map (mapScalars f)) := by
  induction rs generalizing s with
  | nil => rfl
  | cons r rs ih =>
    rw [List.map_cons, writeEach, hg]
    simp only [Written.mapScalars, ih]
    rfl

/-- A write below a record commutes with a function on scalars. -/
theorem writeBelow_mapScalars (size : Nat) (p : Path) (s : Supply ν) (r : Record ν) :
    writeBelow size p (s.mapScalars f) (r.mapScalars f) =
      (writeBelow size p s r).mapScalars f (mapScalars f) := by
  induction p generalizing s r with
  | nil => rfl
  | cons seg path ih =>
    cases path with
    | nil => exact writeLeaf_mapScalars f seg.name s r
    | cons next path =>
      have hne : next :: path ≠ [] := List.cons_ne_nil next path
      rw [writeBelow_cons size seg hne, writeBelow_cons size seg hne]
      by_cases hmany : seg.many = true
      · rw [if_pos hmany, if_pos hmany, childSequence_mapScalars]
        simp only [writeEach_mapScalars f ih, Written.mapScalars]
        rw [← Node.mapScalars_sequence, put_mapScalars]
      · rw [if_neg hmany, if_neg hmany, childMap_mapScalars]
        simp only [ih, Written.mapScalars]
        rw [← Node.mapScalars_map, put_mapScalars]

theorem supplyFor_mapScalars (path : Path) (value : Extracted ν) :
    supplyFor path (value.mapScalars f) = (supplyFor path value).mapScalars f := by
  cases value with
  | one v =>
    simp only [supplyFor, Extracted.mapScalars]
    split
    · rfl
    · split <;> rfl
  | many vs =>
    simp only [supplyFor, Extracted.mapScalars]
    split <;> rfl

theorem sizeFor_mapScalars (value : Extracted ν) :
    sizeFor (value.mapScalars f) = sizeFor value := by
  cases value with
  | one v => rfl
  | many vs => exact List.length_map f

theorem mismatchOf_mapScalars (path : Path) (value : Extracted ν) (reached : Nat) :
    mismatchOf path (value.mapScalars f) reached = mismatchOf path value reached := by
  cases value with
  | one v => rfl
  | many vs => simp only [mismatchOf, Extracted.mapScalars, List.length_map]

/-- A write commutes with a function on scalars, and its outcome is the same. -/
theorem write_mapScalars (r : Record ν) (path : Path) (value : Extracted ν) :
    write (r.mapScalars f) path (value.mapScalars f) =
      ((write r path value).1.mapScalars f, (write r path value).2) := by
  simp only [write, sizeFor_mapScalars, supplyFor_mapScalars, writeBelow_mapScalars,
    mismatchOf_mapScalars, Written.mapScalars]

end Record

end

/-! ### Trees of the same shape -/

/-- Whether two trees differ in their scalars only: with null for every scalar they are the same. -/
def Record.SameShape (r r' : Record ν) : Prop :=
  r.mapScalars (fun _ => (.null : Scalar ν)) = r'.mapScalars fun _ => .null

/-- Whether two values are of the same shape: one scalar each, or as many. -/
def Extracted.SameShape (value value' : Extracted ν) : Prop :=
  value.mapScalars (fun _ => (.null : Scalar ν)) = value'.mapScalars fun _ => .null

theorem Extracted.SameShape.trans {a b c : Extracted ν} (h : a.SameShape b) (h' : b.SameShape c) :
    a.SameShape c :=
  Eq.trans h h'

theorem Extracted.SameShape.symm {a b : Extracted ν} (h : a.SameShape b) : b.SameShape a :=
  Eq.symm h

namespace Record

variable {r r' : Record ν} {value value' : Extracted ν}

/-- Writes of values of the same shape into trees of the same shape leave trees of the same shape and
have the same outcome. -/
theorem sameShape_write (hr : r.SameShape r') (hvalue : value.SameShape value') (path : Path) :
    (write r path value).1.SameShape (write r' path value').1 ∧
      (write r path value).2 = (write r' path value').2 := by
  have hboth := write_mapScalars (fun _ => (.null : Scalar ν)) r path value
  rw [hr, hvalue, write_mapScalars] at hboth
  obtain ⟨hresult, houtcome⟩ := Prod.mk.inj hboth
  exact ⟨hresult.symm, houtcome.symm⟩

end Record

end PageExtract
