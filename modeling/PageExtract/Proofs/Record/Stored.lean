/-
What a write leaves in the tree.

A leaf belongs to a path if its keys are the names of the path. These are the fields of the records
that the path reaches, so a write that reaches a record stores its value. A list always finds
records, as sequences grow for it. A scalar that is written below a mark finds only those that are
there, and if there are none it is dropped.

* `Record.mem_reached_iff` — the leaves of a path are the fields of the records that it reaches;
* `Record.Stores` — every scalar of a value is in a leaf of a path;
* `Record.Drops` — a scalar finds no record;
* `Record.stores_write` — a write stores a value if and only if it does not drop it.
-/
import PageExtract.Proofs.Record.ReadBack

namespace PageExtract

variable {ν : Type}

theorem Trail.keys_append (a b : Trail) : Trail.keys (a ++ b) = Trail.keys a ++ Trail.keys b := by
  induction a with
  | nil => rfl
  | cons s a ih => cases s <;> simp [ih]

namespace Record

/-! ### The leaves of a path -/

theorem mem_trailsEach {f : Record ν → List Trail} {i : Nat} {rs : List (Record ν)} {a : Trail} :
    a ∈ trailsEach f i rs ↔ ∃ j r b, rs[j]? = some r ∧ b ∈ f r ∧ a = .index (i + j) :: b := by
  induction rs generalizing i with
  | nil => simp [trailsEach]
  | cons r rs ih =>
    rw [trailsEach, List.mem_append, List.mem_map, ih]
    constructor
    · rintro (⟨b, hb, rfl⟩ | ⟨j, r', b, hj, hb, rfl⟩)
      · exact ⟨0, r, b, rfl, hb, rfl⟩
      · exact ⟨j + 1, r', b, hj, hb, by rw [Nat.add_right_comm, Nat.add_assoc]⟩
    · rintro ⟨j, r', b, hj, hb, rfl⟩
      cases j with
      | zero =>
        cases hj
        exact .inl ⟨b, hb, rfl⟩
      | succ j => exact .inr ⟨j, r', b, hj, hb, by rw [Nat.add_right_comm, Nat.add_assoc]⟩

/-- The keys of a trail that a path leads to are the names of the path. -/
theorem keys_of_mem_reached {path : Path} {r : Record ν} {a : Trail} (h : a ∈ reached path r) :
    Trail.keys a = path.names := by
  induction path generalizing r a with
  | nil =>
    rw [List.mem_singleton.1 h]
    rfl
  | cons seg path ih =>
    unfold reached at h
    split at h
    · obtain ⟨b, hb, rfl⟩ := List.mem_map.1 h
      exact congrArg (seg.name :: ·) (ih hb)
    · obtain ⟨b, hb, rfl⟩ := List.mem_map.1 h
      obtain ⟨j, r', b', -, hb', rfl⟩ := mem_trailsEach.1 hb
      have hkeys : Trail.keys b' = Path.names path := ih hb'
      exact congrArg (seg.name :: ·) hkeys
    · cases h

/-- A leaf cannot be reached by positions alone. -/
theorem eq_nil_of_keys {m n : Node ν} {b : Trail} (h : m.at? b = some n) (hleaf : n.isLeaf = true)
    (hkeys : Trail.keys b = []) : b = [] := by
  rcases b with _ | ⟨⟨key⟩ | ⟨i⟩, b⟩
  · rfl
  · cases hkeys
  · cases m with
    | scalar v => cases h
    | list vs => cases h
    | map entries => cases h
    | sequence rs =>
      rw [Node.at?_sequence_index] at h
      obtain ⟨r', -, h⟩ := Option.bind_eq_some_iff.1 h
      obtain ⟨key, c, rfl⟩ := Node.exists_key_of_isLeaf h hleaf
      cases hkeys

/-- A leaf whose keys are the names of a path is a field of a record that the path reaches. -/
theorem exists_mem_reached {path : Path} {leaf : Segment} {r : Record ν} {a : Trail} {n : Node ν}
    (h : (Node.map r).at? a = some n) (hleaf : n.isLeaf = true)
    (hkeys : Trail.keys a = Path.names (path ++ [leaf])) :
    ∃ b ∈ reached path r, fieldAt leaf.name r b = some n := by
  induction path generalizing r a with
  | nil =>
    obtain ⟨key, b, rfl⟩ := Node.exists_key_of_isLeaf h hleaf
    obtain ⟨rfl, hb⟩ := List.cons.inj hkeys
    rw [Node.at?_map_key] at h
    obtain ⟨m, hm, h⟩ := Option.bind_eq_some_iff.1 h
    obtain rfl := eq_nil_of_keys h hleaf hb
    refine ⟨[], List.mem_singleton_self _, ?_⟩
    rw [fieldAt_nil, hm]
    exact h
  | cons seg path ih =>
    obtain ⟨key, b, rfl⟩ := Node.exists_key_of_isLeaf h hleaf
    obtain ⟨rfl, hb⟩ := List.cons.inj hkeys
    rw [Node.at?_map_key] at h
    obtain ⟨m, hm, h⟩ := Option.bind_eq_some_iff.1 h
    have hnames : Path.names (path ++ [leaf]) ≠ [] := by simp [Path.names]
    unfold reached
    rw [hm]
    cases m with
    | scalar v =>
      cases b with
      | nil => exact (hnames hb.symm).elim
      | cons s b => cases h
    | list vs =>
      cases b with
      | nil => exact (hnames hb.symm).elim
      | cons s b => cases h
    | map entries =>
      obtain ⟨c, hc, hfield⟩ := ih h hb
      refine ⟨.key seg.name :: c, List.mem_map_of_mem hc, ?_⟩
      rw [fieldAt_key, hm]
      exact hfield
    | sequence rs =>
      obtain ⟨i, b, rfl⟩ := Node.exists_index_of_isLeaf h hleaf
      rw [Node.at?_sequence_index] at h
      obtain ⟨r', hr', h⟩ := Option.bind_eq_some_iff.1 h
      obtain ⟨c, hc, hfield⟩ := ih h hb
      refine ⟨.key seg.name :: .index i :: c, List.mem_map_of_mem ?_, ?_⟩
      · exact mem_trailsEach.2 ⟨i, r', c, hr', hc, by rw [Nat.zero_add]⟩
      · rw [fieldAt_key, hm, Option.bind_some, List.cons_append, Node.at?_sequence_index, hr']
        exact hfield

/-- The leaves of a path are the fields of the records that it reaches. -/
theorem mem_reached_iff {path : Path} {leaf : Segment} {r : Record ν} {n : Node ν}
    (hleaf : n.isLeaf = true) :
    (∃ a, Trail.keys a = Path.names (path ++ [leaf]) ∧ (Node.map r).at? a = some n) ↔
      ∃ b ∈ reached path r, fieldAt leaf.name r b = some n := by
  constructor
  · rintro ⟨a, hkeys, ha⟩
    exact exists_mem_reached ha hleaf hkeys
  · rintro ⟨b, hb, hfield⟩
    refine ⟨b ++ [Step.key leaf.name], ?_, hfield⟩
    rw [Trail.keys_append, keys_of_mem_reached hb]
    simp [Path.names]

/-! ### Values in leaves -/

/-- Whether every scalar of a value is in a leaf of a path. -/
def Stores (r : Record ν) (path : Path) (value : Extracted ν) : Prop :=
  ∀ v ∈ value.items, ∃ a n, Trail.keys a = path.names ∧ (Node.map r).at? a = some n ∧
    n.isLeaf = true ∧ some v ∈ valuesOf (some n)

/-- Whether a write drops a value: a scalar that is meant for all records of a sequence and finds
none. -/
def Drops (r : Record ν) (path : Path) (value : Extracted ν) : Prop :=
  (∃ v, value = .one v) ∧ spreads path = true ∧ (write r path value).2.targets = 0

/-- Only leaves hold scalars. -/
theorem exists_leaf_of_mem_valuesOf {v : Scalar ν} {n : Option (Node ν)} (h : some v ∈ valuesOf n) :
    ∃ m, n = some m ∧ m.isLeaf = true := by
  unfold valuesOf at h
  split at h
  · exact ⟨_, rfl, rfl⟩
  · exact ⟨_, rfl, rfl⟩
  · cases List.mem_singleton.1 h

section Write

variable {r : Record ν} {path : Path} {leaf : Segment} {value : Extracted ν}

theorem stores_iff :
    Stores r (path ++ [leaf]) value ↔
      ∀ v ∈ value.items, ∃ b ∈ reached path r, some v ∈ valuesOf (fieldAt leaf.name r b) := by
  refine forall₂_congr fun v _ => ?_
  constructor
  · rintro ⟨a, n, hkeys, ha, hleaf, hv⟩
    obtain ⟨b, hb, hfield⟩ := exists_mem_reached ha hleaf hkeys
    exact ⟨b, hb, by rw [hfield]; exact hv⟩
  · rintro ⟨b, hb, hv⟩
    obtain ⟨n, hn, hleaf⟩ := exists_leaf_of_mem_valuesOf hv
    obtain ⟨a, hkeys, ha⟩ := (mem_reached_iff hleaf).2 ⟨b, hb, hn⟩
    exact ⟨a, n, hkeys, ha, hleaf, by rw [← hn]; exact hv⟩

/-- Unless a path has a mark above its last level, a write stores its value. -/
theorem stores_write_of_unmarked (hpath : path.any (·.many) = false) :
    (write r (path ++ [leaf]) value).1.Stores (path ++ [leaf]) value := by
  refine stores_iff.2 fun v hv => ?_
  have hvalues := values_write_of_unmarked r path leaf value hpath
  rw [collect_write_eq] at hvalues
  have hmem : some v ∈ value.items.map some := List.mem_map_of_mem hv
  rw [← hvalues, List.flatMap_map] at hmem
  exact List.mem_flatMap.1 hmem

/-- Below a mark a list is stored item by item. -/
theorem stores_write_many (hpath : path.any (·.many) = true) (vs : List (Scalar ν)) :
    (write r (path ++ [leaf]) (.many vs)).1.Stores (path ++ [leaf]) (.many vs) := by
  refine stores_iff.2 fun v hv => ?_
  obtain ⟨-, -, hfields⟩ := fields_write_many r leaf hpath vs
  have hmem : some (.scalar v) ∈ vs.map fun v => some (Node.scalar v) :=
    List.mem_map_of_mem hv
  obtain ⟨b, hb, hfield⟩ := List.mem_map.1 (hfields ▸ List.mem_append_left _ hmem)
  exact ⟨b, hb, by rw [hfield]; exact List.mem_singleton_self _⟩

/-- Below a mark a scalar is stored if and only if the write finds a record. -/
theorem stores_write_one (hpath : path.any (·.many) = true) (v : Scalar ν) :
    (write r (path ++ [leaf]) (.one v)).1.Stores (path ++ [leaf]) (.one v) ↔
      (write r (path ++ [leaf]) (.one v)).2.targets ≠ 0 := by
  have hfields := fields_write_one r leaf hpath v
  have hlength : (reached path (write r (path ++ [leaf]) (.one v)).1).length =
      (write r (path ++ [leaf]) (.one v)).2.targets := by
    simpa using congrArg List.length hfields
  rw [stores_iff, ← hlength, Ne, List.length_eq_zero_iff]
  constructor
  · intro h hnil
    obtain ⟨b, hb, -⟩ := h v (List.mem_singleton_self v)
    rw [hnil] at hb
    cases hb
  · intro hne w hw
    rw [List.mem_singleton.1 hw]
    obtain ⟨b, hb⟩ := List.exists_mem_of_ne_nil _ hne
    have hmem := List.mem_map_of_mem
      (f := fieldAt leaf.name (write r (path ++ [leaf]) (.one v)).1) hb
    rw [hfields] at hmem
    exact ⟨b, hb, by rw [List.eq_of_mem_replicate hmem]; exact List.mem_singleton_self _⟩

end Write

/-- A write stores a value if and only if it does not drop it. -/
theorem stores_write {r : Record ν} {path : Path} (hne : path ≠ []) (value : Extracted ν) :
    (write r path value).1.Stores path value ↔ ¬ r.Drops path value := by
  obtain ⟨above, leaf, rfl⟩ : ∃ above leaf, path = above ++ [leaf] :=
    ⟨_, _, (List.dropLast_concat_getLast hne).symm⟩
  unfold Drops
  rw [spreads_append]
  cases hpath : above.any (·.many) with
  | false =>
    refine ⟨fun _ h => ?_, fun _ => stores_write_of_unmarked hpath⟩
    cases h.2.1
  | true =>
    cases value with
    | one v =>
      rw [stores_write_one hpath]
      exact ⟨fun h hdrop => h hdrop.2.2, fun h hzero => h ⟨⟨v, rfl⟩, rfl, hzero⟩⟩
    | many vs =>
      refine ⟨fun _ h => ?_, fun _ => stores_write_many hpath vs⟩
      cases h.1.choose_spec

end Record

end PageExtract
