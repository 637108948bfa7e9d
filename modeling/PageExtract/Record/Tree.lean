/-
Trees of extracted records.

A record maps names to nodes: scalars, lists of scalars, records, and sequences of records. A value
is written at a path. A level with the mark `[]` is a sequence, which grows to the length of an
incoming list; below such a level a list is dealt out to the records in document order, one item
each, and a scalar goes to all of them. A node of another shape that is in the way is replaced, and
the replacement is reported once for each level.

* `Node`, `Record` : the trees;
* `Record.write` : writing a value, with a `WriteOutcome`;
* `Record.read?`, `Record.collect` : one node, and the values of a field over all records;
* `Record.toMembers` : the tree as plain values.
-/
import PageExtract.Record.Path
import PageExtract.Value.Basic

namespace PageExtract

/-- A node of the tree. -/
inductive Node (ν : Type) where
  | scalar (value : Scalar ν)
  | list (items : List (Scalar ν))
  | map (entries : List (String × Node ν))
  | sequence (records : List (List (String × Node ν)))
deriving Inhabited

/-- A record: names and their nodes, in the order in which they were first written. -/
abbrev Record (ν : Type) := Members (Node ν)

/-- The shapes of nodes. -/
inductive Shape where
  | scalar
  | list
  | map
  | sequence
deriving DecidableEq, Repr, Inhabited

/-- How messages name a shape. -/
def Shape.text : Shape → String
  | scalar => "scalar"
  | list => "list"
  | map => "map"
  | sequence => "sequence"

/-- The shape of a node. -/
def Node.shape {ν : Type} : Node ν → Shape
  | .scalar _ => .scalar
  | .list _ => .list
  | .map _ => .map
  | .sequence _ => .sequence

/-- What is written into a tree: a scalar, or one scalar for each row. -/
inductive Extracted (ν : Type) where
  | one (value : Scalar ν)
  | many (values : List (Scalar ν))
deriving DecidableEq, Repr, Inhabited

/-- A node that a write replaced: its path and its shape. -/
structure Replaced where
  path : String
  shape : Shape
deriving DecidableEq, Repr, Inhabited

/-- A list that met a sequence of another length. -/
structure Mismatch where
  records : Nat
  values : Nat
deriving DecidableEq, Repr, Inhabited

/-- What a write did. -/
structure WriteOutcome where
  /-- How many leaves were written. -/
  targets : Nat
  mismatch : Option Mismatch
  replaced : List Replaced
deriving DecidableEq, Repr, Inhabited

/-- What there is to write at the leaves that are still to come. -/
inductive Supply (ν : Type) where
  /-- The same node at every leaf. -/
  | same (node : Node ν)
  /-- One of the values at each leaf. -/
  | deal (values : List (Scalar ν))
deriving Inhabited

namespace Supply

variable {ν : Type}

/-- The node for the next leaf, if there is one left. -/
def next : Supply ν → Option (Node ν)
  | same node => some node
  | deal (v :: _) => some (.scalar v)
  | deal [] => none

/-- What is left after one leaf. -/
def rest : Supply ν → Supply ν
  | same node => same node
  | deal vs => deal vs.tail

end Supply

/-- The result of writing into a part of the tree: the part, what is left to write, how many
leaves were reached and written, and for each level of the path the shape that was replaced
first. -/
structure Written (ν α : Type) where
  result : α
  supply : Supply ν
  reached : Nat
  targets : Nat
  replaced : List (Option Shape)

namespace Record

variable {ν : Type}

/-- The record below a name and, if something else is there, its shape. -/
def childMap (r : Record ν) (name : String) : Record ν × Option Shape :=
  match Members.get? r name with
  | some (.map entries) => (entries, none)
  | some node => ([], some node.shape)
  | none => ([], none)

/-- The records below a name, at least `size` of them, and, if something else is there, its
shape. -/
def childSequence (r : Record ν) (name : String) (size : Nat) : List (Record ν) × Option Shape :=
  match Members.get? r name with
  | some (.sequence records) => (records ++ List.replicate (size - records.length) [], none)
  | some node => (List.replicate size [], some node.shape)
  | none => (List.replicate size [], none)

/-- The shape that writing a leaf under a name replaces: only records and sequences count. -/
def leafConflict (r : Record ν) (name : String) : Option Shape :=
  match Members.get? r name with
  | some (.map _) => some .map
  | some (.sequence _) => some .sequence
  | _ => none

/-- Writes the next node of the supply under a name. -/
def writeLeaf (name : String) (supply : Supply ν) (r : Record ν) : Written ν (Record ν) :=
  match supply.next with
  | some node => ⟨Members.put r name node, supply.rest, 1, 1, [leafConflict r name]⟩
  | none => ⟨r, supply.rest, 1, 0, [none]⟩

/-- Of two reports for the same levels, the earlier one where it has something to say. -/
def firstReplaced : List (Option Shape) → List (Option Shape) → List (Option Shape)
  | a :: as, b :: bs => (a <|> b) :: firstReplaced as bs
  | [], bs => bs
  | as, [] => as

/-- Writes into each record of a sequence, in order. -/
def writeEach (f : Supply ν → Record ν → Written ν (Record ν)) (supply : Supply ν) :
    List (Record ν) → Written ν (List (Record ν))
  | [] => ⟨[], supply, 0, 0, []⟩
  | r :: rs =>
    let w := f supply r
    let ws := writeEach f w.supply rs
    ⟨w.result :: ws.result, ws.supply, w.reached + ws.reached, w.targets + ws.targets,
      firstReplaced w.replaced ws.replaced⟩

/-- Writes below a record, level by level; sequences on the way have at least `size` records. -/
def writeBelow (size : Nat) : Path → Supply ν → Record ν → Written ν (Record ν)
  | [], supply, r => ⟨r, supply, 0, 0, []⟩
  | [leaf], supply, r => writeLeaf leaf.name supply r
  | seg :: path, supply, r =>
    if seg.many then
      let (records, gone) := childSequence r seg.name size
      let w := writeEach (writeBelow size path) supply records
      ⟨Members.put r seg.name (.sequence w.result), w.supply, w.reached, w.targets,
        gone :: w.replaced⟩
    else
      let (child, gone) := childMap r seg.name
      let w := writeBelow size path supply child
      ⟨Members.put r seg.name (.map w.result), w.supply, w.reached, w.targets,
        gone :: w.replaced⟩

/-- The reports of replaced shapes with their paths: the marks of the levels above are kept. -/
def replacedPaths (above : Path) : Path → List (Option Shape) → List Replaced
  | seg :: path, gone :: more =>
    let here := Path.text (above ++ [⟨seg.name, false⟩])
    let later := replacedPaths (above ++ [seg]) path more
    match gone with
    | some shape => ⟨here, shape⟩ :: later
    | none => later
  | _, _ => []

/-- Whether a path has the mark above its last level. -/
def spreads (path : Path) : Bool := path.dropLast.any (·.many)

/-- Whether the last level of a path has the mark. -/
def endsMarked (path : Path) : Bool :=
  match path.getLast? with
  | some seg => seg.many
  | none => false

/-- What a value supplies at the leaves of a path. -/
def supplyFor (path : Path) : Extracted ν → Supply ν
  | .one v =>
    if spreads path then .same (.scalar v)
    else if endsMarked path then .same (.list [v])
    else .same (.scalar v)
  | .many vs => if spreads path then .deal vs else .same (.list vs)

/-- How long the sequences on the way have to be for a value. -/
def sizeFor : Extracted ν → Nat
  | .one _ => 0
  | .many vs => vs.length

/-- The lengths that do not agree, when a list is dealt out to a sequence. -/
def mismatchOf (path : Path) (value : Extracted ν) (reached : Nat) : Option Mismatch :=
  match value with
  | .many vs => if spreads path && reached != vs.length then some ⟨reached, vs.length⟩ else none
  | .one _ => none

/-- Writes a value at a path. -/
def write (r : Record ν) (path : Path) (value : Extracted ν) : Record ν × WriteOutcome :=
  let w := writeBelow (sizeFor value) path (supplyFor path value) r
  (w.result, ⟨w.targets, mismatchOf path value w.reached, replacedPaths [] path w.replaced⟩)

/-- The node at a path, if only records lead to it. -/
def read? : Path → Record ν → Option (Node ν)
  | [], _ => none
  | [seg], r => Members.get? r seg.name
  | seg :: path, r =>
    match Members.get? r seg.name with
    | some (.map entries) => read? path entries
    | _ => none

/-- The values that a field has over all records of a path; a record without the field counts as
one absent value. If a level before the field is absent from some record, its name. -/
structure FieldValues (ν : Type) where
  values : List (Option (Scalar ν))
  missing : Option String
deriving DecidableEq, Repr, Inhabited

/-- The records below a name, over several records; none if one of them has no records there. -/
def recordsBelow (name : String) : List (Record ν) → Option (List (Record ν))
  | [] => some []
  | r :: rs =>
    match Members.get? r name with
    | some (.map entries) => (recordsBelow name rs).map (entries :: ·)
    | some (.sequence records) => (recordsBelow name rs).map (records ++ ·)
    | _ => none

/-- The values of a field of one record. -/
def fieldValues (name : String) (r : Record ν) : List (Option (Scalar ν)) :=
  match Members.get? r name with
  | some (.scalar v) => [some v]
  | some (.list vs) => vs.map some
  | _ => [none]

/-- Collects the values of a path over several records. -/
def collectFrom : Path → List (Record ν) → FieldValues ν
  | [], _ => ⟨[], none⟩
  | [leaf], rs => ⟨rs.flatMap (fieldValues leaf.name), none⟩
  | seg :: path, rs =>
    match recordsBelow seg.name rs with
    | some rs' => collectFrom path rs'
    | none => ⟨[], some seg.name⟩

/-- Collects the values of a path; sequences are entered wherever they are, and a list at the end
gives all its items. -/
def collect (r : Record ν) (path : Path) : FieldValues ν := collectFrom path [r]

end Record

mutual

/-- A node as a plain value. -/
def Node.toValue {ν : Type} : Node ν → Value ν
  | .scalar v => v.toValue
  | .list vs => .list (vs.map Scalar.toValue)
  | .map entries => .map (entriesToValues entries)
  | .sequence records => .list (recordsToValues records)

/-- The nodes of a record as plain values. -/
def entriesToValues {ν : Type} : List (String × Node ν) → List (String × Value ν)
  | [] => []
  | (k, n) :: es => (k, n.toValue) :: entriesToValues es

/-- Records as plain values. -/
def recordsToValues {ν : Type} : List (List (String × Node ν)) → List (Value ν)
  | [] => []
  | r :: rs => .map (entriesToValues r) :: recordsToValues rs

end

/-- A record as the members of a plain value. -/
def Record.toMembers {ν : Type} (r : Record ν) : Members (Value ν) := entriesToValues r

end PageExtract
