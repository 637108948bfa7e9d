/-
Trails in trees of records.

A trail leads from the root of a tree to a node: by the keys of records and by positions in
sequences. The *keys* of a trail forget the positions, so that one field of all the records of a
sequence has one list of keys.

* `Trail`, `Trail.keys` — trails, and their keys;
* `Node.at?` — the node at the end of a trail;
* `Node.isLeaf` — scalars and lists, the nodes that hold what was extracted;
* `Node.at?_put_of_ne` — putting a member changes nothing below another key;
* `Value.at?`, `Node.at?_toValue` — trails in plain values lead to the same places.
-/
import PageExtract.Record.Tree
import PageExtract.Rule.Datum

namespace PageExtract

/-- The steps that lead to a node, from the root downwards. -/
abbrev Trail := List Step

/-- The keys on the way, positions dropped. -/
def Trail.keys : Trail → List String
  | [] => []
  | .key name :: a => name :: keys a
  | .index _ :: a => keys a

@[simp] theorem Trail.keys_nil : Trail.keys [] = [] := rfl

@[simp] theorem Trail.keys_cons_key (name : String) (a : Trail) :
    Trail.keys (.key name :: a) = name :: Trail.keys a := rfl

@[simp] theorem Trail.keys_cons_index (i : Nat) (a : Trail) :
    Trail.keys (.index i :: a) = Trail.keys a := rfl

namespace Node

variable {ν : Type}

/-- Whether a node is a scalar or a list. -/
def isLeaf : Node ν → Bool
  | .scalar _ => true
  | .list _ => true
  | .map _ => false
  | .sequence _ => false

/-- The node one step below. -/
def below? : Node ν → Step → Option (Node ν)
  | .map entries, .key name => Members.get? entries name
  | .sequence records, .index i => records[i]?.map .map
  | _, _ => none

/-- The node at the end of a trail. -/
def at? : Node ν → Trail → Option (Node ν)
  | n, [] => some n
  | n, s :: a => (n.below? s).bind (at? · a)

@[simp] theorem at?_nil (n : Node ν) : n.at? [] = some n := rfl

@[simp] theorem at?_map_key (r : Record ν) (name : String) (a : Trail) :
    (Node.map r).at? (.key name :: a) = (Members.get? r name).bind (·.at? a) := rfl

@[simp] theorem at?_map_index (r : Record ν) (i : Nat) (a : Trail) :
    (Node.map r).at? (.index i :: a) = none := rfl

@[simp] theorem at?_sequence_index (rs : List (Record ν)) (i : Nat) (a : Trail) :
    (Node.sequence rs).at? (.index i :: a) = rs[i]?.bind fun r => (Node.map r).at? a := by
  rw [at?, below?, Option.bind_map]
  rfl

@[simp] theorem at?_sequence_key (rs : List (Record ν)) (name : String) (a : Trail) :
    (Node.sequence rs).at? (.key name :: a) = none := rfl

/-- Below a leaf there is nothing. -/
theorem at?_leaf {n : Node ν} (h : n.isLeaf = true) (s : Step) (a : Trail) :
    n.at? (s :: a) = none := by
  cases n with
  | scalar v => rfl
  | list vs => rfl
  | map entries => cases h
  | sequence records => cases h

/-- A leaf of a record is below one of its keys. -/
theorem exists_key_of_isLeaf {r : Record ν} {a : Trail} {n : Node ν}
    (h : (Node.map r).at? a = some n) (hleaf : n.isLeaf = true) : ∃ key b, a = .key key :: b := by
  rcases a with _ | ⟨⟨key⟩ | ⟨i⟩, b⟩
  · cases h
    cases hleaf
  · exact ⟨key, b, rfl⟩
  · cases h

/-- A leaf of a sequence is in one of its records. -/
theorem exists_index_of_isLeaf {rs : List (Record ν)} {a : Trail} {n : Node ν}
    (h : (Node.sequence rs).at? a = some n) (hleaf : n.isLeaf = true) :
    ∃ i b, a = .index i :: b := by
  rcases a with _ | ⟨⟨key⟩ | ⟨i⟩, b⟩
  · cases h
    cases hleaf
  · cases h
  · exact ⟨i, b, rfl⟩

/-- In an empty record there is nothing but the record. -/
theorem at?_empty {a : Trail} {n : Node ν} (h : (Node.map ([] : Record ν)).at? a = some n) :
    n.isLeaf = false := by
  cases a with
  | nil =>
    rw [at?_nil, Option.some_inj] at h
    rw [← h]
    rfl
  | cons s a => cases s <;> simp [Members.get?] at h

/-- After a member is put, what lies below its key is what lies below the new node. -/
theorem at?_put_self (r : Record ν) (name : String) (n : Node ν) (a : Trail) :
    (Node.map (Members.put r name n)).at? (.key name :: a) = n.at? a := by
  simp [Members.get?_put]

/-- Putting a member changes nothing below another key. -/
theorem at?_put_of_ne (r : Record ν) {name key : String} (n : Node ν) (h : name ≠ key)
    (a : Trail) :
    (Node.map (Members.put r name n)).at? (.key key :: a) = (Node.map r).at? (.key key :: a) := by
  simp [Members.get?_put, h]

end Node

/-! ### Plain values -/

namespace Value

variable {ν : Type}

/-- The value one step below. -/
def below? : Value ν → Step → Option (Value ν)
  | .map ms, .key name => Members.get? ms name
  | .list vs, .index i => vs[i]?
  | _, _ => none

/-- The value at the end of a trail. -/
def at? : Value ν → Trail → Option (Value ν)
  | v, [] => some v
  | v, s :: a => (v.below? s).bind (at? · a)

end Value

variable {ν : Type}

theorem get?_entriesToValues (r : Record ν) (name : String) :
    Members.get? (entriesToValues r) name = (Members.get? r name).map Node.toValue := by
  induction r with
  | nil => rfl
  | cons entry r ih =>
    obtain ⟨key, n⟩ := entry
    rw [entriesToValues, Members.get?, Members.get?]
    split
    · rfl
    · exact ih

theorem recordsToValues_eq_map (rs : List (Record ν)) :
    recordsToValues rs = rs.map fun r => .map (entriesToValues r) := by
  induction rs with
  | nil => rfl
  | cons r rs ih =>
    rw [recordsToValues, ih]
    rfl

/-- A node is at the same place when the tree is a plain value. -/
theorem Node.at?_toValue {n m : Node ν} {a : Trail} (h : n.at? a = some m) :
    n.toValue.at? a = some m.toValue := by
  have hbelow : ∀ {n m : Node ν} {s : Step}, n.below? s = some m →
      n.toValue.below? s = some m.toValue := by
    intro n m s hm
    cases n with
    | scalar v => cases s <;> cases hm
    | list vs => cases s <;> cases hm
    | map entries =>
      cases s with
      | key name =>
        have hget : Members.get? entries name = some m := hm
        show Members.get? (entriesToValues entries) name = _
        rw [get?_entriesToValues, hget]
        rfl
      | index i => cases hm
    | sequence records =>
      cases s with
      | key name => cases hm
      | index i =>
        obtain ⟨r, hr, rfl⟩ := Option.map_eq_some_iff.1 hm
        show (recordsToValues records)[i]? = _
        rw [recordsToValues_eq_map, List.getElem?_map, hr]
        rfl
  induction a generalizing n with
  | nil =>
    cases h
    rfl
  | cons s a ih =>
    obtain ⟨next, hnext, hat⟩ := Option.bind_eq_some_iff.1 h
    show (n.toValue.below? s).bind _ = _
    rw [hbelow hnext]
    exact ih hat

end PageExtract
