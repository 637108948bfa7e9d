/-
The leaves of a tree in order.

What was extracted is in the leaves of a tree, its scalars and lists. Going through the tree as it is
written down, record by record and name by name, they come in the order of the document. In a tree
that writes have built the names of a record are distinct, so that each leaf is at the end of one
trail, and all leaves with the same keys are below the same member of a record.

* `Node.leaves`, `Node.Tidy.mem_leaves_iff` — the leaves, and where they are;
* `Node.scalarsUnder` — the scalars in the leaves with some keys;
* `Node.scalarsUnder_map`, `Node.scalarsUnder_sequence`, `Node.scalarsUnder_nil` — they are found
  level by level;
* `Record.Built`, `Record.Built.tidy` — trees that writes have built.
-/
import PageExtract.Proofs.Record.Tidy

namespace PageExtract

variable {ν : Type} {good : Scalar ν → Prop}

/-! ### Leaves -/

/-- What is below a step, as it is seen from above it. -/
def Step.above (s : Step) (leaves : List (Trail × Node ν)) : List (Trail × Node ν) :=
  leaves.map fun leaf => (s :: leaf.1, leaf.2)

mutual

/-- The leaves of a node with the trails to them, in the order of the document. -/
def Node.leaves : Node ν → List (Trail × Node ν)
  | .scalar v => [([], .scalar v)]
  | .list vs => [([], .list vs)]
  | .map entries => entryLeaves entries
  | .sequence records => recordLeaves 0 records

/-- The leaves of the nodes of a record. -/
def entryLeaves : List (String × Node ν) → List (Trail × Node ν)
  | [] => []
  | (key, n) :: es => (Step.key key).above n.leaves ++ entryLeaves es

/-- The leaves of records, the first of which has position `i`. -/
def recordLeaves (i : Nat) : List (List (String × Node ν)) → List (Trail × Node ν)
  | [] => []
  | r :: rs => (Step.index i).above (entryLeaves r) ++ recordLeaves (i + 1) rs

end

theorem Step.mem_above {s : Step} {leaves : List (Trail × Node ν)} {a : Trail} {m : Node ν} :
    (a, m) ∈ s.above leaves ↔ ∃ b, a = s :: b ∧ (b, m) ∈ leaves := by
  unfold above
  rw [List.mem_map]
  constructor
  · rintro ⟨⟨b, m⟩, hb, h⟩
    cases h
    exact ⟨b, rfl, hb⟩
  · rintro ⟨b, rfl, hb⟩
    exact ⟨(b, m), hb, rfl⟩

theorem mem_entryLeaves {r : Record ν} {a : Trail} {m : Node ν} :
    (a, m) ∈ entryLeaves r ↔
      ∃ key n b, (key, n) ∈ r ∧ a = .key key :: b ∧ (b, m) ∈ n.leaves := by
  induction r with
  | nil => simp [entryLeaves]
  | cons e r ih =>
    obtain ⟨key, n⟩ := e
    rw [entryLeaves, List.mem_append, Step.mem_above, ih]
    constructor
    · rintro (⟨b, rfl, hb⟩ | ⟨key', n', b, hmem, rfl, hb⟩)
      · exact ⟨key, n, b, List.mem_cons_self, rfl, hb⟩
      · exact ⟨key', n', b, List.mem_cons_of_mem _ hmem, rfl, hb⟩
    · rintro ⟨key', n', b, hmem, rfl, hb⟩
      obtain h | hmem := List.mem_cons.1 hmem
      · cases h
        exact .inl ⟨b, rfl, hb⟩
      · exact .inr ⟨key', n', b, hmem, rfl, hb⟩

theorem mem_recordLeaves {rs : List (Record ν)} {i : Nat} {a : Trail} {m : Node ν} :
    (a, m) ∈ recordLeaves i rs ↔
      ∃ j r b, rs[j]? = some r ∧ a = .index (i + j) :: b ∧ (b, m) ∈ (Node.map r).leaves := by
  -- The records after the first one begin a position later.
  induction rs generalizing i with
  | nil => simp [recordLeaves]
  | cons r rs ih =>
    rw [recordLeaves, List.mem_append, Step.mem_above, ih]
    constructor
    · rintro (⟨b, rfl, hb⟩ | ⟨j, r', b, hj, rfl, hb⟩)
      · exact ⟨0, r, b, rfl, rfl, by rwa [Node.leaves]⟩
      · exact ⟨j + 1, r', b, hj, by rw [Nat.add_right_comm, Nat.add_assoc], hb⟩
    · rintro ⟨j, r', b, hj, rfl, hb⟩
      cases j with
      | zero =>
        cases hj
        exact .inl ⟨b, rfl, by rwa [Node.leaves] at hb⟩
      | succ j => exact .inr ⟨j, r', b, hj, by rw [Nat.add_right_comm, Nat.add_assoc], hb⟩

/-- The leaves of a tidy tree are the scalars and lists at the end of its trails. -/
theorem Node.Tidy.mem_leaves_iff {n : Node ν} (hn : n.Tidy good) {a : Trail} {m : Node ν} :
    (a, m) ∈ n.leaves ↔ n.at? a = some m ∧ m.isLeaf = true := by
  have hleaf : ∀ {leaf : Node ν}, leaf.isLeaf = true → ∀ {a : Trail},
      ((a, m) ∈ [(([] : Trail), leaf)] ↔ leaf.at? a = some m ∧ m.isLeaf = true) := by
    intro leaf hleaf a
    rw [List.mem_singleton, Prod.mk.injEq]
    cases a with
    | nil =>
      rw [at?_nil, Option.some_inj]
      exact ⟨fun h => ⟨h.2.symm, h.2 ▸ hleaf⟩, fun h => ⟨rfl, h.1.symm⟩⟩
    | cons s a =>
      rw [at?_leaf hleaf]
      exact ⟨fun h => (List.cons_ne_nil s a h.1).elim, fun h => (Option.some_ne_none m h.1.symm).elim⟩
  -- Each constructor takes the first step off the trail.
  induction hn generalizing a with
  | scalar _ =>
    rw [leaves]
    exact hleaf rfl
  | list _ =>
    rw [leaves]
    exact hleaf rfl
  | @map r hnodup _ _ ih =>
    rw [leaves, mem_entryLeaves]
    constructor
    · rintro ⟨key, n, b, hmem, rfl, hb⟩
      rw [at?_map_key, Members.get?_of_mem hnodup hmem]
      exact (ih _ hmem).1 hb
    · rintro ⟨h, hm⟩
      obtain ⟨key, b, rfl⟩ := exists_key_of_isLeaf h hm
      rw [at?_map_key] at h
      obtain ⟨n, hn, h⟩ := Option.bind_eq_some_iff.1 h
      have hmem := Members.mem_of_get hn
      exact ⟨key, n, b, hmem, rfl, (ih _ hmem).2 ⟨h, hm⟩⟩
  | @sequence rs _ ih =>
    rw [leaves, mem_recordLeaves]
    simp only [Nat.zero_add]
    constructor
    · rintro ⟨i, r, b, hr, rfl, hb⟩
      rw [at?_sequence_index, hr]
      exact (ih r (List.mem_of_getElem? hr)).1 hb
    · rintro ⟨h, hm⟩
      obtain ⟨i, b, rfl⟩ := exists_index_of_isLeaf h hm
      rw [at?_sequence_index] at h
      obtain ⟨r, hr, h⟩ := Option.bind_eq_some_iff.1 h
      exact ⟨i, r, b, hr, rfl, (ih r (List.mem_of_getElem? hr)).2 ⟨h, hm⟩⟩

/-! ### The scalars with some keys -/

/-- The scalars that a leaf holds. -/
def Node.scalars : Node ν → List (Scalar ν)
  | .scalar v => [v]
  | .list vs => vs
  | .map _ => []
  | .sequence _ => []

/-- The scalars in those of some leaves that have some keys. -/
def scalarsOf (names : List String) (leaves : List (Trail × Node ν)) : List (Scalar ν) :=
  leaves.flatMap fun leaf => if Trail.keys leaf.1 = names then leaf.2.scalars else []

/-- The scalars in the leaves of a node that have some keys, in the order of the document. -/
def Node.scalarsUnder (names : List String) (n : Node ν) : List (Scalar ν) :=
  scalarsOf names n.leaves

section

variable (names : List String) (leaves : List (Trail × Node ν))

theorem scalarsOf_append (more : List (Trail × Node ν)) :
    scalarsOf names (leaves ++ more) = scalarsOf names leaves ++ scalarsOf names more :=
  List.flatMap_append

theorem scalarsOf_index (i : Nat) :
    scalarsOf names ((Step.index i).above leaves) = scalarsOf names leaves :=
  List.flatMap_map _ _ leaves

theorem scalarsOf_key_nil (key : String) :
    scalarsOf [] ((Step.key key).above leaves) = [] := by
  rw [scalarsOf, Step.above, List.flatMap_map]
  exact List.flatMap_eq_nil_iff.2 fun leaf _ => if_neg (List.cons_ne_nil _ _)

theorem scalarsOf_key (key name : String) :
    scalarsOf (name :: names) ((Step.key key).above leaves) =
      if key = name then scalarsOf names leaves else [] := by
  rw [scalarsOf, Step.above, List.flatMap_map]
  simp only [Trail.keys_cons_key, List.cons.injEq]
  split
  · rename_i h
    simp only [h, true_and]
    rfl
  · rename_i h
    simp only [h, false_and, if_false]
    exact List.flatMap_eq_nil_iff.2 fun _ _ => rfl

end

namespace Node

/-- The scalars whose keys begin with a name are below that name. -/
theorem scalarsUnder_map {r : Record ν} (hr : (Members.names r).Nodup) (name : String)
    (names : List String) :
    (Node.map r).scalarsUnder (name :: names) =
      match Members.get? r name with
      | some n => n.scalarsUnder names
      | none => [] := by
  rw [scalarsUnder, leaves]
  induction r with
  | nil => rfl
  | cons e r ih =>
    obtain ⟨key, n⟩ := e
    obtain ⟨hkey, hnodup⟩ := List.nodup_cons.1 hr
    rw [entryLeaves, scalarsOf_append, scalarsOf_key, ih hnodup, Members.get?]
    by_cases h : key = name
    · -- The names are distinct, so that nothing further has this one.
      have habsent : Members.get? r name = none := Members.get?_of_not_mem (h ▸ hkey)
      simp only [h, habsent, if_true, List.append_nil]
      rfl
    · simp only [h, if_false, List.nil_append]

/-- The scalars in a sequence are those in its records. -/
theorem scalarsUnder_sequence (rs : List (Record ν)) (names : List String) :
    (Node.sequence rs).scalarsUnder names = rs.flatMap fun r => (Node.map r).scalarsUnder names := by
  -- Positions are no keys, so that it does not matter where the sequence begins.
  have hfrom : ∀ i, scalarsOf names (recordLeaves i rs) =
      rs.flatMap fun r => (Node.map r).scalarsUnder names := by
    induction rs with
    | nil => exact fun i => rfl
    | cons r rs ih =>
      intro i
      rw [recordLeaves, scalarsOf_append, scalarsOf_index, ih, List.flatMap_cons, scalarsUnder,
        leaves]
  rw [scalarsUnder, leaves]
  exact hfrom 0

/-- Only a leaf itself has no keys. -/
theorem scalarsUnder_nil (n : Node ν) : n.scalarsUnder [] = n.scalars := by
  have hmap : ∀ r : Record ν, (Node.map r).scalarsUnder [] = [] := by
    intro r
    rw [scalarsUnder, leaves]
    induction r with
    | nil => rfl
    | cons e r ih => rw [entryLeaves, scalarsOf_append, scalarsOf_key_nil, ih, List.append_nil]
  cases n with
  | scalar v =>
    rw [scalarsUnder, leaves]
    exact List.flatMap_singleton _ _
  | list vs =>
    rw [scalarsUnder, leaves]
    exact List.flatMap_singleton _ _
  | map r => exact hmap r
  | sequence rs =>
    rw [scalarsUnder_sequence]
    exact List.flatMap_eq_nil_iff.2 fun r _ => hmap r

end Node

/-! ### Trees that writes have built -/

/-- The trees that come from an empty one by writes. -/
inductive Record.Built : Record ν → Prop
  | empty : Built []
  | write {r : Record ν} (hr : Built r) {source : String} {path : Path}
      (hpath : Path.parse source = .ok path) (value : Extracted ν) :
      Built (Record.write r path value).1

theorem Record.Built.tidy {r : Record ν} (h : r.Built) : r.Tidy fun _ => True := by
  induction h with
  | empty => exact tidy_empty
  | write _ hpath value ih =>
    exact tidy_write (Path.isName_of_parse hpath) (fun _ _ => trivial) ih

end PageExtract
