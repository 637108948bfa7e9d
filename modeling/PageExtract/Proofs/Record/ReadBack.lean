/-
Reading back what was written.

A path reaches records: its levels above the last one are followed from the root, and every record
of a sequence on the way is entered. Writing walks the tree record by record, and reading walks it
level by level; both meet the same records, in the order of the document.

* `Record.reached` — the trails of the records that a path reaches;
* `Record.fieldAt` — the node under a name in the record at the end of a trail;
* `Record.serves_writeBelow` — after a write, the records that are reached hold what its supply gave
  out;
* `Record.collectFrom_of_follows` — reading collects the fields of the records that are reached;
* `Record.collect_write` — what was written is read back, and no value of a list is dropped.
-/
import PageExtract.Proofs.Record.Supply

namespace PageExtract

variable {ν : Type}

/-- The scalars of an extracted value. -/
def Extracted.items : Extracted ν → List (Scalar ν)
  | one v => [v]
  | many vs => vs

namespace Record

/-- The trails that a function finds in records, the first of which has position `i`. -/
def trailsEach (f : Record ν → List Trail) (i : Nat) : List (Record ν) → List Trail
  | [] => []
  | r :: rs => (f r).map (.index i :: ·) ++ trailsEach f (i + 1) rs

/-- The trails of the records that a path reaches, in the order of the document. Every record of a
sequence is entered. -/
def reached : Path → Record ν → List Trail
  | [], _ => [[]]
  | seg :: path, r =>
    match Members.get? r seg.name with
    | some (.map entries) => (reached path entries).map (.key seg.name :: ·)
    | some (.sequence records) =>
      (trailsEach (reached path) 0 records).map (.key seg.name :: ·)
    | _ => []

/-- The node under a name in the record at the end of a trail. -/
def fieldAt (name : String) (r : Record ν) (a : Trail) : Option (Node ν) :=
  (Node.map r).at? (a ++ [.key name])

@[simp] theorem fieldAt_nil (name : String) (r : Record ν) :
    fieldAt name r [] = Members.get? r name := by
  simp [fieldAt]

/-- No record in an empty one has a field. -/
theorem fieldAt_empty (name : String) (a : Trail) : fieldAt name ([] : Record ν) a = none := by
  rcases a with _ | ⟨⟨key⟩ | ⟨i⟩, a⟩ <;> rfl

theorem fieldAt_key (name key : String) (r : Record ν) (a : Trail) :
    fieldAt name r (.key key :: a) = (Members.get? r key).bind (·.at? (a ++ [.key name])) := rfl

theorem fieldAt_put_map (name key : String) (r entries : Record ν) (a : Trail) :
    fieldAt name (Members.put r key (.map entries)) (.key key :: a) = fieldAt name entries a :=
  Node.at?_put_self r key (.map entries) (a ++ [Step.key name])

theorem fieldAt_put_sequence (name key : String) (r : Record ν) (rs : List (Record ν)) (i : Nat)
    (a : Trail) :
    fieldAt name (Members.put r key (.sequence rs)) (.key key :: .index i :: a) =
      rs[i]?.bind (fieldAt name · a) := by
  refine (Node.at?_put_self r key (.sequence rs) (.index i :: a ++ [Step.key name])).trans ?_
  exact Node.at?_sequence_index rs i (a ++ [Step.key name])

theorem reached_put_map (seg : Segment) (path : Path) (r entries : Record ν) :
    reached (seg :: path) (Members.put r seg.name (.map entries)) =
      (reached path entries).map (.key seg.name :: ·) := by
  simp only [reached, Members.get?_put, if_true]

theorem reached_put_sequence (seg : Segment) (path : Path) (r : Record ν)
    (rs : List (Record ν)) :
    reached (seg :: path) (Members.put r seg.name (.sequence rs)) =
      (trailsEach (reached path) 0 rs).map (.key seg.name :: ·) := by
  simp only [reached, Members.get?_put, if_true]

/-- A trail that a path leads to begins with a key, if it has a step at all. -/
theorem head_reached {path : Path} {r : Record ν} {a : Trail} (h : a ∈ reached path r) :
    a = [] ∨ ∃ name b, a = .key name :: b := by
  cases path with
  | nil => exact .inl (List.mem_singleton.1 h)
  | cons seg path =>
    unfold reached at h
    split at h
    · obtain ⟨b, -, rfl⟩ := List.mem_map.1 h
      exact .inr ⟨seg.name, b, rfl⟩
    · obtain ⟨b, -, rfl⟩ := List.mem_map.1 h
      exact .inr ⟨seg.name, b, rfl⟩
    · cases h

/-! ### What records had before -/

/-- Before a write, a field below a key is the field of the record that the write finds there. -/
theorem fieldAt_childMap (name key : String) (r : Record ν) {a : Trail}
    (ha : a = [] ∨ ∃ k b, a = .key k :: b) :
    fieldAt name r (.key key :: a) = fieldAt name (childMap r key).1 a := by
  -- the next step is a key, so that it leads nowhere from a node that is no record
  have hstep : ∃ k b, a ++ [.key name] = Step.key k :: b := by
    rcases ha with rfl | ⟨k, b, rfl⟩
    · exact ⟨name, [], rfl⟩
    · exact ⟨k, b ++ [.key name], rfl⟩
  rw [fieldAt_key]
  unfold childMap
  split
  · rename_i entries hget
    rw [hget]
    rfl
  · rename_i node hmap hget
    rw [hget, fieldAt_empty]
    obtain ⟨k, b, hstep⟩ := hstep
    show node.at? (a ++ [.key name]) = none
    rw [hstep]
    cases node with
    | scalar v => rfl
    | list vs => rfl
    | map entries => exact absurd rfl (hmap entries)
    | sequence records => rfl
  · rename_i hget
    rw [hget, fieldAt_empty]
    rfl

theorem bind_fieldAt_replicate (name : String) (n i : Nat) (a : Trail) :
    (List.replicate n ([] : Record ν))[i]?.bind (fieldAt name · a) = none := by
  rw [Option.bind_eq_none_iff]
  intro r hr
  have hempty : r = [] := List.eq_of_mem_replicate (List.mem_of_getElem? hr)
  rw [hempty, fieldAt_empty]

/-- Before a write, a field in a sequence is the field of the record that the write finds there:
records that the sequence grows by have none. -/
theorem fieldAt_childSequence (name key : String) (r : Record ν) (size i : Nat) (a : Trail) :
    fieldAt name r (.key key :: .index i :: a) =
      (childSequence r key size).1[i]?.bind (fieldAt name · a) := by
  rw [fieldAt_key]
  unfold childSequence
  split
  · rename_i records hget
    rw [hget, Option.bind_some, List.cons_append, Node.at?_sequence_index]
    by_cases hi : i < records.length
    · rw [List.getElem?_append_left hi]
      rfl
    · rw [List.getElem?_append_right (by omega), bind_fieldAt_replicate,
        List.getElem?_eq_none (by omega)]
      rfl
  · rename_i node hsequence hget
    rw [hget, bind_fieldAt_replicate]
    cases node with
    | scalar v => rfl
    | list vs => rfl
    | map entries => rfl
    | sequence records => exact absurd rfl (hsequence records)
  · rename_i hget
    rw [hget, bind_fieldAt_replicate]
    rfl

/-! ### What records have afterwards -/

/-- What is known of a write that follows `path` and then writes fields of a name: it reaches the
records that the path leads to afterwards, and they hold what its supply gave out. -/
structure Serves (name : String) (path : Path)
    (f : Supply ν → Record ν → Written ν (Record ν)) : Prop where
  supply : ∀ s r, (f s r).supply = s.skip (f s r).reached
  length : ∀ s r, (reached path (f s r).result).length = (f s r).reached
  fields : ∀ s r, (reached path (f s r).result).map (fieldAt name (f s r).result) =
    s.served ((reached path (f s r).result).map (fieldAt name r))

theorem length_trailsEach {name : String} {path : Path}
    {f : Supply ν → Record ν → Written ν (Record ν)} (hf : Serves name path f) (s : Supply ν)
    (i : Nat) (rs : List (Record ν)) :
    (trailsEach (reached path) i (writeEach f s rs).result).length =
      (writeEach f s rs).reached := by
  induction rs generalizing s i with
  | nil => rfl
  | cons r rs ih =>
    show ((reached path (f s r).result).map _ ++ trailsEach (reached path) (i + 1) _).length = _
    rw [List.length_append, List.length_map, hf.length, ih]
    rfl

/-- The records of a sequence are served one after the other. `before` and `after` read fields of
the sequence whose record at position `i` is the first one. -/
theorem fields_writeEach {name : String} {path : Path}
    {f : Supply ν → Record ν → Written ν (Record ν)} (hf : Serves name path f) (s : Supply ν)
    (i : Nat) (rs : List (Record ν)) (before after : Trail → Option (Node ν))
    (hbefore : ∀ j a, before (.index (i + j) :: a) = rs[j]?.bind (fieldAt name · a))
    (hafter : ∀ j a, after (.index (i + j) :: a) =
      (writeEach f s rs).result[j]?.bind (fieldAt name · a)) :
    (trailsEach (reached path) i (writeEach f s rs).result).map after =
      s.served ((trailsEach (reached path) i (writeEach f s rs).result).map before) := by
  induction rs generalizing s i with
  | nil => rfl
  | cons r rs ih =>
    have hresult : (writeEach f s (r :: rs)).result =
        (f s r).result :: (writeEach f (f s r).supply rs).result := rfl
    have hfirst : (reached path (f s r).result).map (fun a => after (.index i :: a)) =
        s.served ((reached path (f s r).result).map fun a => before (.index i :: a)) := by
      have hafter0 : ∀ a, after (.index i :: a) = fieldAt name (f s r).result a := hafter 0
      have hbefore0 : ∀ a, before (.index i :: a) = fieldAt name r a := hbefore 0
      simp only [hafter0, hbefore0]
      exact hf.fields s r
    have hmore := ih (f s r).supply (i + 1)
      (fun j a => by rw [Nat.add_right_comm]; exact hbefore (j + 1) a)
      (fun j a => by rw [Nat.add_right_comm]; exact hafter (j + 1) a)
    rw [hresult, trailsEach, List.map_append, List.map_append, Supply.served_append, List.map_map,
      List.map_map, List.length_map, hf.length, ← hf.supply]
    congr 1

/-- A leaf holds the next node of the supply, or what it held before if there is none left. -/
theorem serves_writeLeaf (name : String) :
    Serves (ν := ν) name [] (writeLeaf name) := by
  refine ⟨supply_writeLeaf name, fun s r => ?_, fun s r => ?_⟩
  · unfold writeLeaf
    split <;> rfl
  · show [fieldAt name (writeLeaf name s r).result []] = [s.next <|> fieldAt name r []]
    unfold writeLeaf
    rw [fieldAt_nil, fieldAt_nil]
    split
    · rename_i node hnext
      rw [Members.get?_put, if_pos rfl, hnext]
      rfl
    · rename_i hnext
      rw [hnext]
      rfl

/-- After a write, the records that its path reaches hold what its supply gave out. -/
theorem serves_writeBelow (size : Nat) (path : Path) (leaf : Segment) :
    Serves (ν := ν) leaf.name path (writeBelow size (path ++ [leaf])) := by
  -- The last level is kept apart, so that the induction ends at a leaf and never below it.
  induction path with
  | nil => exact serves_writeLeaf leaf.name
  | cons seg path ih =>
    have hne : path ++ [leaf] ≠ [] := by simp
    refine ⟨supply_writeBelow size _, fun s r => ?_, fun s r => ?_⟩
    · rw [List.cons_append, writeBelow_cons size seg hne]
      split
      · rw [reached_put_sequence, List.length_map]
        exact length_trailsEach ih s 0 _
      · rw [reached_put_map, List.length_map]
        exact ih.length s _
    · rw [List.cons_append, writeBelow_cons size seg hne]
      split
      · simp only
        rw [reached_put_sequence, List.map_map, List.map_map]
        refine fields_writeEach ih s 0 (childSequence r seg.name size).1 _ _ (fun j a => ?_)
          (fun j a => ?_)
        · rw [Nat.zero_add]
          exact fieldAt_childSequence leaf.name seg.name r size j a
        · rw [Nat.zero_add]
          exact fieldAt_put_sequence leaf.name seg.name r _ j a
      · simp only
        rw [reached_put_map, List.map_map, List.map_map]
        have hafter : ∀ entries : Record ν, (fieldAt leaf.name
            (Members.put r seg.name (.map entries)) ∘ (Step.key seg.name :: ·)) =
              fieldAt leaf.name entries :=
          fun entries => funext fun a => fieldAt_put_map leaf.name seg.name r entries a
        rw [hafter, ih.fields s (childMap r seg.name).1]
        congr 1
        exact List.map_congr_left fun a ha =>
          (fieldAt_childMap leaf.name seg.name r (head_reached ha)).symm

/-! ### Reading level by level -/

/-- The records directly below a name. -/
def children (r : Record ν) (name : String) : Option (List (Record ν)) :=
  match Members.get? r name with
  | some (.map entries) => some [entries]
  | some (.sequence records) => some records
  | _ => none

theorem children_put_map (r : Record ν) (name : String) (entries : Record ν) :
    children (Members.put r name (.map entries)) name = some [entries] := by
  simp only [children, Members.get?_put, if_true]

theorem children_put_sequence (r : Record ν) (name : String) (rs : List (Record ν)) :
    children (Members.put r name (.sequence rs)) name = some rs := by
  simp only [children, Members.get?_put, if_true]

/-- Whether every level of a path is there, in every record on the way. -/
def Follows : Path → Record ν → Prop
  | [], _ => True
  | seg :: path, r => ∃ rs, children r seg.name = some rs ∧ ∀ r' ∈ rs, Follows path r'

/-- The values that a node counts as when a field is read. -/
def valuesOf : Option (Node ν) → List (Option (Scalar ν))
  | some (.scalar v) => [some v]
  | some (.list vs) => vs.map some
  | _ => [none]

theorem fieldValues_eq (name : String) (r : Record ν) :
    fieldValues name r = valuesOf (Members.get? r name) := by
  unfold fieldValues valuesOf
  split <;> simp_all

/-- The records below a name are collected record by record. -/
theorem recordsBelow_cons (name : String) (r : Record ν) (rs : List (Record ν)) :
    recordsBelow name (r :: rs) =
      (children r name).bind fun rs' => (recordsBelow name rs).map (rs' ++ ·) := by
  rw [recordsBelow, children]
  cases Members.get? r name with
  | none => rfl
  | some n =>
    cases n with
    | scalar v => rfl
    | list vs => rfl
    | map entries => rfl
    | sequence records => rfl

theorem recordsBelow_of_children {name : String} {rs : List (Record ν)}
    (h : ∀ r ∈ rs, ∃ rs', children r name = some rs') :
    recordsBelow name rs = some (rs.flatMap fun r => (children r name).getD []) := by
  induction rs with
  | nil => rfl
  | cons r rs ih =>
    obtain ⟨rs', hr⟩ := h r List.mem_cons_self
    have ih := ih fun r hr => h r (List.mem_cons_of_mem _ hr)
    rw [recordsBelow_cons, List.flatMap_cons, hr, ih]
    rfl

/-- The fields in the records of a sequence, record by record. -/
theorem map_trailsEach (name : String) (path : Path) (i : Nat) (rs : List (Record ν))
    (g : Trail → Option (Node ν))
    (hg : ∀ j a, g (.index (i + j) :: a) = rs[j]?.bind (fieldAt name · a)) :
    (trailsEach (reached path) i rs).map g =
      rs.flatMap fun r => (reached path r).map (fieldAt name r) := by
  induction rs generalizing i with
  | nil => rfl
  | cons r rs ih =>
    have hg0 : ∀ a, g (.index i :: a) = fieldAt name r a := hg 0
    rw [trailsEach, List.map_append, List.map_map, List.flatMap_cons,
      ih (i + 1) fun j a => by rw [Nat.add_right_comm]; exact hg (j + 1) a]
    congr 1
    exact List.map_congr_left fun a _ => hg0 a

/-- The fields that a path reaches are those that the rest of it reaches from the records below its
first name. -/
theorem map_reached_cons (name : String) (seg : Segment) (path : Path) (r : Record ν) :
    (reached (seg :: path) r).map (fieldAt name r) =
      ((children r seg.name).getD []).flatMap fun r' =>
        (reached path r').map (fieldAt name r') := by
  rw [reached]
  unfold children
  split
  · rename_i entries hget
    rw [List.map_map, Option.getD_some, List.flatMap_singleton]
    refine List.map_congr_left fun a _ => ?_
    show fieldAt name r (.key seg.name :: a) = _
    rw [fieldAt_key, hget]
    rfl
  · rename_i records hget
    rw [List.map_map, Option.getD_some]
    refine map_trailsEach name path 0 records _ fun j a => ?_
    show fieldAt name r (.key seg.name :: .index (0 + j) :: a) = _
    rw [fieldAt_key, hget, Nat.zero_add, Option.bind_some]
    exact Node.at?_sequence_index records j (a ++ [Step.key name])
  · rfl

/-- Reading collects the fields of the records that are reached, in the order of the document. -/
theorem collectFrom_of_follows (path : Path) (leaf : Segment) (rs : List (Record ν))
    (h : ∀ r ∈ rs, Follows path r) :
    collectFrom (path ++ [leaf]) rs =
      ⟨(rs.flatMap fun r => (reached path r).map (fieldAt leaf.name r)).flatMap valuesOf,
        none⟩ := by
  induction path generalizing rs with
  | nil =>
    have hfields : ∀ r : Record ν, fieldValues leaf.name r =
        valuesOf (fieldAt leaf.name r []) := fun r => by rw [fieldAt_nil, fieldValues_eq]
    simp only [List.nil_append, collectFrom, reached, List.map_cons, List.map_nil]
    rw [List.flatMap_assoc]
    congr 2
    funext r
    simp [hfields]
  | cons seg path ih =>
    have hbelow : recordsBelow seg.name rs =
        some (rs.flatMap fun r => (children r seg.name).getD []) :=
      recordsBelow_of_children fun r hr => by
        obtain ⟨rs', hrs', -⟩ := h r hr
        exact ⟨rs', hrs'⟩
    have hnext : collectFrom (seg :: (path ++ [leaf])) rs =
        collectFrom (path ++ [leaf]) (rs.flatMap fun r => (children r seg.name).getD []) := by
      cases hpath : path ++ [leaf] with
      | nil => simp at hpath
      | cons next path' => simp only [collectFrom, hbelow]
    rw [List.cons_append, hnext, ih]
    · simp only [map_reached_cons, List.flatMap_assoc]
    · intro r' hr'
      obtain ⟨r, hr, hmem⟩ := List.mem_flatMap.1 hr'
      obtain ⟨rs', hrs', hall⟩ := h r hr
      rw [hrs'] at hmem
      exact hall r' hmem

theorem forall_writeEach {f : Supply ν → Record ν → Written ν (Record ν)} {P : Record ν → Prop}
    (hf : ∀ s r, P (f s r).result) (s : Supply ν) (rs : List (Record ν)) :
    ∀ r ∈ (writeEach f s rs).result, P r := by
  induction rs generalizing s with
  | nil => exact fun r hr => nomatch hr
  | cons r rs ih =>
    intro r' hr'
    rcases List.mem_cons.1 hr' with rfl | hr'
    · exact hf s r
    · exact ih (f s r).supply r' hr'

/-- After a write every level of its path is there. -/
theorem follows_writeBelow (size : Nat) (path : Path) (leaf : Segment) (s : Supply ν)
    (r : Record ν) : Follows path (writeBelow size (path ++ [leaf]) s r).result := by
  induction path generalizing s r with
  | nil => trivial
  | cons seg path ih =>
    rw [List.cons_append, writeBelow_cons size seg (by simp)]
    split
    · exact ⟨_, children_put_sequence r seg.name _, forall_writeEach ih s _⟩
    · refine ⟨_, children_put_map r seg.name _, fun r' hr' => ?_⟩
      rw [List.mem_singleton.1 hr']
      exact ih s _

/-! ### How many records are reached -/

theorem length_le_reached_writeEach {f : Supply ν → Record ν → Written ν (Record ν)}
    (hf : ∀ s r, 0 < (f s r).reached) (s : Supply ν) (rs : List (Record ν)) :
    rs.length ≤ (writeEach f s rs).reached := by
  induction rs generalizing s with
  | nil => exact Nat.zero_le _
  | cons r rs ih =>
    show rs.length + 1 ≤ (f s r).reached + (writeEach f (f s r).supply rs).reached
    have hhead := hf s r
    have htail := ih (f s r).supply
    omega

theorem size_le_length_childSequence (r : Record ν) (name : String) (size : Nat) :
    size ≤ (childSequence r name size).1.length := by
  unfold childSequence
  split
  · rw [List.length_append, List.length_replicate]
    omega
  · exact Nat.le_of_eq List.length_replicate.symm
  · exact Nat.le_of_eq List.length_replicate.symm

/-- If sequences grow at all, some record is reached. -/
theorem reached_pos {size : Nat} (hsize : 0 < size) (path : Path) (leaf : Segment) (s : Supply ν)
    (r : Record ν) : 0 < (writeBelow size (path ++ [leaf]) s r).reached := by
  induction path generalizing s r with
  | nil =>
    show 0 < (writeLeaf leaf.name s r).reached
    unfold writeLeaf
    split <;> exact Nat.zero_lt_one
  | cons seg path ih =>
    rw [List.cons_append, writeBelow_cons size seg (by simp)]
    split
    · exact Nat.lt_of_lt_of_le hsize (Nat.le_trans (size_le_length_childSequence r seg.name size)
        (length_le_reached_writeEach ih s _))
    · exact ih s _

/-- Below a mark there are at least as many records as the sequences grow to. -/
theorem size_le_reached (size : Nat) {path : Path} (hpath : path.any (·.many) = true)
    (leaf : Segment) (s : Supply ν) (r : Record ν) :
    size ≤ (writeBelow size (path ++ [leaf]) s r).reached := by
  rcases Nat.eq_zero_or_pos size with rfl | hsize
  · exact Nat.zero_le _
  induction path generalizing s r with
  | nil => cases hpath
  | cons seg path ih =>
    rw [List.cons_append, writeBelow_cons size seg (by simp)]
    split
    · exact Nat.le_trans (size_le_length_childSequence r seg.name size)
        (length_le_reached_writeEach (reached_pos hsize path leaf) s _)
    · rename_i hmany
      have hrest : path.any (·.many) = true := by simpa [hmany] using hpath
      exact ih hrest s _

/-- Without a mark one record is reached. -/
theorem reached_of_unmarked (size : Nat) {path : Path} (hpath : path.any (·.many) = false)
    (leaf : Segment) (s : Supply ν) (r : Record ν) :
    (writeBelow size (path ++ [leaf]) s r).reached = 1 := by
  induction path generalizing s r with
  | nil =>
    show (writeLeaf leaf.name s r).reached = 1
    unfold writeLeaf
    split <;> rfl
  | cons seg path ih =>
    simp only [List.any_cons, Bool.or_eq_false_iff] at hpath
    rw [List.cons_append, writeBelow_cons size seg (by simp), hpath.1]
    exact ih hpath.2 s _

/-! ### Writing and reading -/

theorem spreads_append (path : Path) (leaf : Segment) :
    spreads (path ++ [leaf]) = path.any (·.many) := by
  simp [spreads]

section Write

variable (r : Record ν) (path : Path) (leaf : Segment) (value : Extracted ν)

/-- The records that a write reaches are those that its path leads to afterwards. -/
theorem length_reached_write :
    (reached path (write r (path ++ [leaf]) value).1).length =
      (writeBelow (sizeFor value) (path ++ [leaf]) (supplyFor (path ++ [leaf]) value) r).reached :=
  (serves_writeBelow (sizeFor value) path leaf).length _ r

/-- These records hold what the supply of the value gives out. -/
theorem fields_write :
    (reached path (write r (path ++ [leaf]) value).1).map
        (fieldAt leaf.name (write r (path ++ [leaf]) value).1) =
      (supplyFor (path ++ [leaf]) value).served
        ((reached path (write r (path ++ [leaf]) value).1).map (fieldAt leaf.name r)) :=
  (serves_writeBelow (sizeFor value) path leaf).fields _ r

theorem targets_write :
    (write r (path ++ [leaf]) value).2.targets =
      (supplyFor (path ++ [leaf]) value).covered
        (reached path (write r (path ++ [leaf]) value).1).length := by
  rw [length_reached_write]
  exact targets_writeBelow _ _ _ r

theorem mismatch_write :
    (write r (path ++ [leaf]) value).2.mismatch =
      mismatchOf (path ++ [leaf]) value
        (reached path (write r (path ++ [leaf]) value).1).length := by
  rw [length_reached_write]
  rfl

theorem collect_write_eq :
    collect (write r (path ++ [leaf]) value).1 (path ++ [leaf]) =
      ⟨((reached path (write r (path ++ [leaf]) value).1).map
        (fieldAt leaf.name (write r (path ++ [leaf]) value).1)).flatMap valuesOf, none⟩ := by
  have hfollows : Follows path (write r (path ++ [leaf]) value).1 :=
    follows_writeBelow (sizeFor value) path leaf _ r
  refine (collectFrom_of_follows path leaf [_] fun r' hr' => ?_).trans ?_
  · rw [List.mem_singleton.1 hr']
    exact hfollows
  · simp

/-- Without a mark above the last level, the values are read back as they were written. -/
theorem values_write_of_unmarked (hpath : path.any (·.many) = false) :
    (collect (write r (path ++ [leaf]) value).1 (path ++ [leaf])).values =
      value.items.map some := by
  have hone : (reached path (write r (path ++ [leaf]) value).1).length = 1 := by
    rw [length_reached_write]
    exact reached_of_unmarked _ hpath leaf _ r
  have hsupply : ∃ node, supplyFor (path ++ [leaf]) value = .same node ∧
      valuesOf (some node) = value.items.map some := by
    cases value with
    | one v =>
      simp only [supplyFor, spreads_append, hpath, Bool.false_eq_true, if_false]
      split
      · exact ⟨_, rfl, rfl⟩
      · exact ⟨_, rfl, rfl⟩
    | many vs =>
      simp only [supplyFor, spreads_append, hpath, Bool.false_eq_true, if_false]
      exact ⟨_, rfl, rfl⟩
  obtain ⟨node, hnode, hvalues⟩ := hsupply
  rw [collect_write_eq, fields_write, hnode, Supply.served_same, List.length_map, hone]
  simpa using hvalues

/-- Below a mark every record that is reached holds a scalar that is written. -/
theorem fields_write_one {path : Path} (hpath : path.any (·.many) = true) (v : Scalar ν) :
    (reached path (write r (path ++ [leaf]) (.one v)).1).map
        (fieldAt leaf.name (write r (path ++ [leaf]) (.one v)).1) =
      List.replicate (write r (path ++ [leaf]) (.one v)).2.targets (some (.scalar v)) := by
  have hsupply : supplyFor (path ++ [leaf]) (.one v) = .same (.scalar v) := by
    simp only [supplyFor, spreads_append, hpath, if_true]
  rw [fields_write, targets_write, hsupply, Supply.served_same, List.length_map]
  rfl

/-- Below a mark there are enough records for a list, the first of which hold its items. -/
theorem fields_write_many {path : Path} (hpath : path.any (·.many) = true)
    (vs : List (Scalar ν)) :
    let trails := reached path (write r (path ++ [leaf]) (.many vs)).1
    vs.length ≤ trails.length ∧ (write r (path ++ [leaf]) (.many vs)).2.targets = vs.length ∧
      trails.map (fieldAt leaf.name (write r (path ++ [leaf]) (.many vs)).1) =
        vs.map (fun v => some (.scalar v)) ++
          (trails.drop vs.length).map (fieldAt leaf.name r) := by
  have hsupply : supplyFor (path ++ [leaf]) (.many vs) = .deal vs := by
    simp only [supplyFor, spreads_append, hpath, if_true]
  have hsize : vs.length ≤ (reached path (write r (path ++ [leaf]) (.many vs)).1).length := by
    rw [length_reached_write]
    exact size_le_reached vs.length hpath leaf _ r
  refine ⟨hsize, ?_, ?_⟩
  · rw [targets_write, hsupply]
    exact Nat.min_eq_right hsize
  · rw [fields_write, hsupply, Supply.served_deal vs _ (by simpa using hsize), List.map_drop]

end Write

/-- **A write is read back, and no value of a list is dropped.** Without a mark above the last
level, reading gives the values that were written. Below a mark, reading gives the fields of the
records that the path reaches, in the order of the document. A scalar is in all of these records.
A list is in the first of them, item by item, while later records keep what they had; there are
enough records for all items, and a mismatch says when there are more. -/
theorem collect_write (r : Record ν) (path : Path) (leaf : Segment) (value : Extracted ν) :
    let p := path ++ [leaf]
    let after := (write r p value).1
    let outcome := (write r p value).2
    let trails := reached path after
    (collect after p).missing = none ∧
    (path.any (·.many) = false → (collect after p).values = value.items.map some) ∧
    (path.any (·.many) = true →
      (collect after p).values = (trails.map (fieldAt leaf.name after)).flatMap valuesOf ∧
      match value with
      | .one v =>
        (∀ a ∈ trails, fieldAt leaf.name after a = some (.scalar v)) ∧
        outcome.targets = trails.length ∧ outcome.mismatch = none
      | .many vs =>
        vs.length ≤ trails.length ∧ outcome.targets = vs.length ∧
        trails.map (fieldAt leaf.name after) =
          vs.map (fun v => some (.scalar v)) ++
            (trails.drop vs.length).map (fieldAt leaf.name r) ∧
        outcome.mismatch =
          if vs.length < trails.length then some ⟨trails.length, vs.length⟩ else none) := by
  refine ⟨by rw [collect_write_eq], values_write_of_unmarked r path leaf value, fun hpath => ?_⟩
  refine ⟨by rw [collect_write_eq], ?_⟩
  cases value with
  | one v =>
    have hfields := fields_write_one r leaf hpath v
    refine ⟨fun a ha => ?_, ?_, rfl⟩
    · have hmem := List.mem_map_of_mem
        (f := fieldAt leaf.name (write r (path ++ [leaf]) (.one v)).1) ha
      rw [hfields] at hmem
      exact List.eq_of_mem_replicate hmem
    · have hlength := congrArg List.length hfields
      rw [List.length_map, List.length_replicate] at hlength
      exact hlength.symm
  | many vs =>
    obtain ⟨hsize, htargets, hfields⟩ := fields_write_many r leaf hpath vs
    refine ⟨hsize, htargets, hfields, ?_⟩
    rw [mismatch_write]
    simp only [mismatchOf, spreads_append, hpath, Bool.true_and, bne_iff_ne, ne_eq]
    split
    · rw [if_pos (by omega)]
    · rw [if_neg (by omega)]

end Record

end PageExtract
