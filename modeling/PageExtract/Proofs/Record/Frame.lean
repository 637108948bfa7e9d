/-
What a write leaves alone.

A write changes the leaves whose keys are the names of its path, and no others, except where a node
of another shape is in the way: what was below such a node is lost, and the write reports it.

* `Reported` — whether a list of reports has one for a level;
* `Frame` — what holds of the leaves at other keys, before and after a write;
* `Frame.below`, `frame_writeEach` — a frame below a member, and in every record of a sequence;
* `frame_writeBelow` — every write has a frame;
* `Record.leaf_kept_or_reported` — the same for `Record.write`, with the paths of its reports.
-/
import PageExtract.Proofs.Record.Spelling
import PageExtract.Proofs.Record.Supply
import PageExtract.Proofs.Record.Trail

namespace PageExtract

variable {ν : Type}

namespace Record

/-! ### Reports -/

/-- Whether there is a report for a level. -/
def Reported (gone : List (Option Shape)) (level : Nat) : Prop :=
  ∃ shape, gone[level]? = some (some shape)

theorem reported_firstReplaced {gone more : List (Option Shape)} {level : Nat} :
    Reported (firstReplaced gone more) level ↔ Reported gone level ∨ Reported more level := by
  induction gone generalizing more level with
  | nil => cases more <;> simp [firstReplaced, Reported]
  | cons a gone ih =>
    cases more with
    | nil => simp [firstReplaced, Reported]
    | cons b more =>
      cases level with
      | zero => cases a <;> cases b <;> simp [firstReplaced, Reported]
      | succ level => simpa [firstReplaced, Reported] using ih

theorem reported_zero {shape : Shape} (gone : List (Option Shape)) :
    Reported (some shape :: gone) 0 := ⟨shape, rfl⟩

theorem reported_succ {first : Option Shape} {gone : List (Option Shape)} {level : Nat} :
    Reported (first :: gone) (level + 1) ↔ Reported gone level := Iff.rfl

end Record

open Record

/-! ### Frames -/

/-- What holds of the leaves whose keys are not `names` when `before` becomes `after`: one that
there was is still where it was, unless a level on the way to it is reported, and none is new. -/
structure Frame (names : List String) (gone : List (Option Shape)) (before after : Node ν) :
    Prop where
  kept : ∀ (a : Trail) (n : Node ν), before.at? a = some n → n.isLeaf = true → a.keys ≠ names →
    after.at? a = some n ∨ ∃ level, Reported gone level ∧ names.take (level + 1) <+: a.keys
  fresh : ∀ (a : Trail) (n : Node ν), after.at? a = some n → n.isLeaf = true → a.keys ≠ names →
    before.at? a = some n

theorem Frame.refl (names : List String) (gone : List (Option Shape)) (n : Node ν) :
    Frame names gone n n :=
  ⟨fun _ _ h _ _ => .inl h, fun _ _ h _ _ => h⟩

/-- More reports keep a frame. -/
theorem Frame.mono {names : List String} {gone more : List (Option Shape)} {before after : Node ν}
    (h : Frame names gone before after)
    (hmore : ∀ level, Reported gone level → Reported more level) :
    Frame names more before after where
  kept a n hn hleaf hkeys := by
    rcases h.kept a n hn hleaf hkeys with hsame | ⟨level, hlevel, hprefix⟩
    · exact .inl hsame
    · exact .inr ⟨level, hmore level hlevel, hprefix⟩
  fresh := h.fresh

/-- How a write finds the node below a key: with all the leaves that were there, unless a shape is
reported, and with no others. -/
structure Opened (found : Option (Node ν)) (gone : Option Shape) (child : Node ν) : Prop where
  kept : ∀ n, found = some n → gone.isSome = true ∨
    ∀ (a : Trail) (x : Node ν), n.at? a = some x → x.isLeaf = true → child.at? a = some x
  fresh : ∀ (a : Trail) (x : Node ν), child.at? a = some x → x.isLeaf = true →
    ∃ n, found = some n ∧ n.at? a = some x

theorem opened_childMap (r : Record ν) (name : String) :
    Opened (Members.get? r name) (childMap r name).2 (.map (childMap r name).1) := by
  unfold childMap
  split
  · rename_i entries hget
    rw [hget]
    constructor
    · rintro n ⟨⟩
      exact .inr fun a x hx _ => hx
    · exact fun a x hx _ => ⟨_, rfl, hx⟩
  · exact ⟨fun n _ => .inl rfl, fun a x hx hleaf => by simp [Node.at?_empty hx] at hleaf⟩
  · rename_i hget
    rw [hget]
    exact ⟨fun n hn => (nomatch hn), fun a x hx hleaf => by simp [Node.at?_empty hx] at hleaf⟩

/-- In a sequence of empty records there is no leaf. -/
theorem at?_replicate_empty {size : Nat} {a : Trail} {x : Node ν}
    (h : (Node.sequence (List.replicate size ([] : Record ν))).at? a = some x) :
    x.isLeaf = false := by
  rcases a with _ | ⟨⟨key⟩ | ⟨i⟩, a⟩
  · cases h
    rfl
  · cases h
  · rw [Node.at?_sequence_index] at h
    obtain ⟨r, hr, hx⟩ := Option.bind_eq_some_iff.1 h
    have hempty : r = [] := List.eq_of_mem_replicate (List.mem_of_getElem? hr)
    rw [hempty] at hx
    exact Node.at?_empty hx

/-- The records that a sequence grows by are empty. -/
theorem at?_grown {rs : List (Record ν)} {n : Nat} {a : Trail} {x : Node ν}
    (h : (Node.sequence (rs ++ List.replicate n [])).at? a = some x) (hleaf : x.isLeaf = true) :
    (Node.sequence rs).at? a = some x := by
  obtain ⟨i, a, rfl⟩ := Node.exists_index_of_isLeaf h hleaf
  by_cases hi : i < rs.length
  · rw [Node.at?_sequence_index] at h ⊢
    rwa [List.getElem?_append_left hi] at h
  · rw [Node.at?_sequence_index, List.getElem?_append_right (by omega),
      ← Node.at?_sequence_index] at h
    rw [at?_replicate_empty h] at hleaf
    cases hleaf

/-- What was in a sequence stays there when it grows. -/
theorem at?_grow {rs : List (Record ν)} {n : Nat} {a : Trail} {x : Node ν}
    (h : (Node.sequence rs).at? a = some x) (hleaf : x.isLeaf = true) :
    (Node.sequence (rs ++ List.replicate n [])).at? a = some x := by
  obtain ⟨i, a, rfl⟩ := Node.exists_index_of_isLeaf h hleaf
  rw [Node.at?_sequence_index] at h ⊢
  obtain ⟨r, hr, hx⟩ := Option.bind_eq_some_iff.1 h
  have hi : i < rs.length := (List.getElem?_eq_some_iff.1 hr).1
  rw [List.getElem?_append_left hi, hr]
  exact hx

theorem opened_childSequence (r : Record ν) (name : String) (size : Nat) :
    Opened (Members.get? r name) (childSequence r name size).2
      (.sequence (childSequence r name size).1) := by
  unfold childSequence
  split
  · rename_i records hget
    rw [hget]
    constructor
    · rintro n ⟨⟩
      exact .inr fun a x hx hleaf => at?_grow hx hleaf
    · exact fun a x hx hleaf => ⟨_, rfl, at?_grown hx hleaf⟩
  · refine ⟨fun n _ => .inl rfl, fun a x hx hleaf => ?_⟩
    rw [at?_replicate_empty hx] at hleaf
    cases hleaf
  · rename_i hget
    rw [hget]
    refine ⟨fun n hn => (nomatch hn), fun a x hx hleaf => ?_⟩
    rw [at?_replicate_empty hx] at hleaf
    cases hleaf

/-- A frame below a key is one for the record. -/
theorem Frame.below {r : Record ν} {name : String} {names : List String} {shape : Option Shape}
    {gone : List (Option Shape)} {child after : Node ν}
    (ho : Opened (Members.get? r name) shape child) (h : Frame names gone child after) :
    Frame (name :: names) (shape :: gone) (.map r) (.map (Members.put r name after)) := by
  constructor
  · intro a n hn hleaf hkeys
    obtain ⟨key, a, rfl⟩ := Node.exists_key_of_isLeaf hn hleaf
    by_cases hkey : name = key
    · subst hkey
      rw [Node.at?_map_key] at hn
      obtain ⟨old, hold, hn⟩ := Option.bind_eq_some_iff.1 hn
      -- a leaf below the key was lost when the key was opened, or else by what was done below
      have hkeys' : Trail.keys a ≠ names := fun he => hkeys (by simp [he])
      rcases ho.kept old hold with hgone | hsame
      · obtain ⟨s, rfl⟩ := Option.isSome_iff_exists.1 hgone
        exact .inr ⟨0, reported_zero gone, by simp⟩
      · rcases h.kept a n (hsame a n hn hleaf) hleaf hkeys' with hafter | ⟨level, hlevel, hpre⟩
        · exact .inl ((Node.at?_put_self r name after a).trans hafter)
        · exact .inr ⟨level + 1, hlevel, by simpa using hpre⟩
    · exact .inl ((Node.at?_put_of_ne r after hkey a).trans hn)
  · intro a n hn hleaf hkeys
    obtain ⟨key, a, rfl⟩ := Node.exists_key_of_isLeaf hn hleaf
    by_cases hkey : name = key
    · subst hkey
      have hkeys' : Trail.keys a ≠ names := fun he => hkeys (by simp [he])
      rw [Node.at?_put_self] at hn
      obtain ⟨old, hold, hx⟩ := ho.fresh a n (h.fresh a n hn hleaf hkeys') hleaf
      rw [Node.at?_map_key, hold]
      exact hx
    · rwa [Node.at?_put_of_ne r after hkey a] at hn

/-- A leaf has a frame: other than at its key nothing changes, and what was below it is reported. -/
theorem frame_writeLeaf (name : String) {s : Supply ν} (hs : s.Leafy) (r : Record ν) :
    Frame [name] (writeLeaf name s r).replaced (.map r) (.map (writeLeaf name s r).result) := by
  unfold writeLeaf
  split
  · rename_i node hnext
    have hnode := hs.isLeaf_next hnext
    constructor
    · intro a n hn hleaf hkeys
      obtain ⟨key, a, rfl⟩ := Node.exists_key_of_isLeaf hn hleaf
      by_cases hkey : name = key
      · subst hkey
        refine .inr ⟨0, ?_, by simp⟩
        rw [Node.at?_map_key] at hn
        obtain ⟨old, hold, hn⟩ := Option.bind_eq_some_iff.1 hn
        -- the keys are more than the name, so that the old node is no leaf
        cases a with
        | nil => exact absurd rfl hkeys
        | cons step a =>
          unfold leafConflict
          rw [hold]
          cases old with
          | scalar v => rw [Node.at?_leaf rfl] at hn; cases hn
          | list vs => rw [Node.at?_leaf rfl] at hn; cases hn
          | map entries => exact ⟨_, rfl⟩
          | sequence records => exact ⟨_, rfl⟩
      · exact .inl ((Node.at?_put_of_ne r node hkey a).trans hn)
    · intro a n hn hleaf hkeys
      obtain ⟨key, a, rfl⟩ := Node.exists_key_of_isLeaf hn hleaf
      by_cases hkey : name = key
      · subst hkey
        rw [Node.at?_put_self] at hn
        cases a with
        | nil => exact absurd rfl hkeys
        | cons step a =>
          rw [Node.at?_leaf hnode] at hn
          cases hn
      · rwa [Node.at?_put_of_ne r node hkey a] at hn
  · exact Frame.refl _ _ _

/-- Frames of the records of a sequence make up a frame of the sequence. -/
theorem frame_writeEach {names : List String} {f : Supply ν → Record ν → Written ν (Record ν)}
    (hsupply : ∀ s r, (f s r).supply = s.skip (f s r).reached)
    (hf : ∀ s r, s.Leafy → Frame names (f s r).replaced (.map r) (.map (f s r).result))
    {s : Supply ν} (hs : s.Leafy) (rs : List (Record ν)) :
    Frame names (writeEach f s rs).replaced (.sequence rs)
      (.sequence (writeEach f s rs).result) := by
  induction rs generalizing s with
  | nil => exact Frame.refl _ _ _
  | cons r rs ih =>
    have hrest : (f s r).supply.Leafy := by
      rw [hsupply]
      exact hs.skip _
    -- The reports of all records are joined, so that each record has a frame with more reports.
    have hhead : Frame names (writeEach f s (r :: rs)).replaced (.map r) (.map (f s r).result) :=
      (hf s r hs).mono fun level h => reported_firstReplaced.2 (.inl h)
    have htail : Frame names (writeEach f s (r :: rs)).replaced (.sequence rs)
        (.sequence (writeEach f (f s r).supply rs).result) :=
      (ih hrest).mono fun level h => reported_firstReplaced.2 (.inr h)
    constructor
    · intro a n hn hleaf hkeys
      obtain ⟨i, a, rfl⟩ := Node.exists_index_of_isLeaf hn hleaf
      cases i with
      | zero => exact hhead.kept a n hn hleaf hkeys
      | succ i => exact htail.kept (.index i :: a) n hn hleaf hkeys
    · intro a n hn hleaf hkeys
      obtain ⟨i, a, rfl⟩ := Node.exists_index_of_isLeaf hn hleaf
      cases i with
      | zero => exact hhead.fresh a n hn hleaf hkeys
      | succ i => exact htail.fresh (.index i :: a) n hn hleaf hkeys

/-- Every write has a frame. -/
theorem frame_writeBelow (size : Nat) (p : Path) {s : Supply ν} (hs : s.Leafy) (r : Record ν) :
    Frame p.names (writeBelow size p s r).replaced (.map r)
      (.map (writeBelow size p s r).result) := by
  induction p generalizing s r with
  | nil => exact Frame.refl _ _ _
  | cons seg path ih =>
    cases path with
    | nil => exact frame_writeLeaf seg.name hs r
    | cons next path =>
      unfold writeBelow
      split
      · exact Frame.below (opened_childSequence r seg.name size)
          (frame_writeEach (supply_writeBelow size (next :: path)) (fun s r hs => ih hs r) hs _)
      · exact Frame.below (opened_childMap r seg.name) (ih hs _)

/-! ### Reports as paths -/

namespace Record

theorem length_firstReplaced (gone more : List (Option Shape)) :
    (firstReplaced gone more).length = max gone.length more.length := by
  induction gone generalizing more with
  | nil => cases more <;> simp [firstReplaced]
  | cons a gone ih =>
    cases more with
    | nil => simp [firstReplaced]
    | cons b more => simp [firstReplaced, ih]

theorem length_replaced_writeEach {f : Supply ν → Record ν → Written ν (Record ν)} {n : Nat}
    (hf : ∀ s r, (f s r).replaced.length ≤ n) (s : Supply ν) (rs : List (Record ν)) :
    (writeEach f s rs).replaced.length ≤ n := by
  induction rs generalizing s with
  | nil => exact Nat.zero_le n
  | cons r rs ih =>
    show (firstReplaced _ _).length ≤ n
    rw [length_firstReplaced]
    exact Nat.max_le.2 ⟨hf s r, ih _⟩

/-- There is at most one report for each level of the path. -/
theorem length_replaced_writeBelow (size : Nat) (p : Path) (s : Supply ν) (r : Record ν) :
    (writeBelow size p s r).replaced.length ≤ p.length := by
  induction p generalizing s r with
  | nil => exact Nat.zero_le _
  | cons seg path ih =>
    cases path with
    | nil =>
      show (writeLeaf seg.name s r).replaced.length ≤ 1
      unfold writeLeaf
      split <;> exact Nat.le_refl 1
    | cons next path =>
      unfold writeBelow
      split
      · exact Nat.succ_le_succ (length_replaced_writeEach ih s _)
      · exact Nat.succ_le_succ (ih s _)

/-- The names that lead to a level are those of the path that its report has. -/
theorem exists_replacedPath {gone : List (Option Shape)} {level : Nat} (h : Reported gone level)
    (above p : Path) (hlevel : level < p.length) :
    ∃ x ∈ replacedPaths above p gone, ∃ q : Path, q ≠ [] ∧ x.path = q.text ∧
      q.names = (above ++ p).names.take (above.length + level + 1) := by
  induction level generalizing above p gone with
  | zero =>
    obtain ⟨shape, hshape⟩ := h
    cases p with
    | nil => cases hlevel
    | cons seg path =>
      cases gone with
      | nil => cases hshape
      | cons first gone =>
        cases hshape
        refine ⟨⟨Path.text (above ++ [⟨seg.name, false⟩]), shape⟩, List.mem_cons_self,
          above ++ [⟨seg.name, false⟩], by simp, rfl, ?_⟩
        have habove : (above.map (·.name)).take (above.length + 1) = above.map (·.name) :=
          List.take_of_length_le (by simp)
        simp [Path.names, List.take_append, habove]
  | succ level ih =>
    cases p with
    | nil => cases hlevel
    | cons seg path =>
      cases gone with
      | nil =>
        obtain ⟨shape, hshape⟩ := h
        cases hshape
      | cons first gone =>
        obtain ⟨x, hx, q, hq, htext, hnames⟩ :=
          ih (reported_succ.1 h) (above ++ [seg]) path (Nat.lt_of_succ_lt_succ hlevel)
        refine ⟨x, ?_, q, hq, htext, ?_⟩
        · unfold replacedPaths
          cases first with
          | none => exact hx
          | some shape => exact List.mem_cons_of_mem _ hx
        · rw [hnames, List.append_assoc, List.length_append]
          congr 1
          simp only [List.length_singleton]
          omega

theorem leafy_supplyFor (p : Path) (value : Extracted ν) : (supplyFor p value).Leafy := by
  cases value with
  | one v =>
    simp only [supplyFor]
    split
    · rfl
    · split <;> rfl
  | many vs =>
    simp only [supplyFor]
    split
    · trivial
    · rfl

/-- **Loss is always reported.** After a write, every leaf of the tree whose keys are not the names
of the path is still where it was with the same content, unless a report names, marks dropped, a
prefix of its keys; and no leaf at other keys is new. -/
theorem leaf_kept_or_reported {path : String} {p : Path} (hp : Path.parse path = .ok p)
    (r : Record ν) (value : Extracted ν) :
    (∀ (a : Trail) (n : Node ν), (Node.map r).at? a = some n → n.isLeaf = true →
      a.keys ≠ p.names →
      (Node.map (write r p value).1).at? a = some n ∨
        ∃ x ∈ (write r p value).2.replaced, ∃ q, Path.parse x.path = .ok q ∧ q.names <+: a.keys) ∧
    ∀ (a : Trail) (n : Node ν), (Node.map (write r p value).1).at? a = some n →
      n.isLeaf = true → a.keys ≠ p.names → (Node.map r).at? a = some n := by
  have hframe := frame_writeBelow (sizeFor value) p (leafy_supplyFor p value) r
  refine ⟨fun a n hn hleaf hkeys => ?_, hframe.fresh⟩
  rcases hframe.kept a n hn hleaf hkeys with hsame | ⟨level, hlevel, hprefix⟩
  · exact .inl hsame
  · right
    have hlt : level < p.length := by
      obtain ⟨shape, hshape⟩ := hlevel
      exact Nat.lt_of_lt_of_le (List.getElem?_eq_some_iff.1 hshape).1
        (length_replaced_writeBelow (sizeFor value) p (supplyFor p value) r)
    obtain ⟨x, hx, q, hq, htext, hnames⟩ := exists_replacedPath hlevel [] p hlt
    have hnames' : q.names = p.names.take (level + 1) := by simpa using hnames
    refine ⟨x, hx, q, ?_, hnames' ▸ hprefix⟩
    rw [htext]
    refine Path.parse_text_of_subset hp hq fun s hs => ?_
    have hmem : s.name ∈ q.names := List.mem_map_of_mem hs
    rw [hnames'] at hmem
    exact List.mem_of_mem_take hmem

/-- Two teams with names, one of them with a score. -/
def twoTeams : Record Rat :=
  [("teams", .sequence [[("name", .scalar (.str "Home")), ("score", .scalar (.num 10))],
    [("name", .scalar (.str "Away"))]])]

/-- The short names of some teams, below the names. -/
def shortNames : Path := [⟨"teams", true⟩, ⟨"name", false⟩, ⟨"short", false⟩]

/-- A record in the place of the names: the second name is lost, and the score is kept. -/
theorem leaf_kept_or_reported_twoTeams :
    Path.parse "teams[].name.short" = .ok shortNames ∧
    ((Node.map (write twoTeams shortNames (.one (.str "H"))).1).at?
        [.key "teams", .index 1, .key "name"] = some (.scalar (.str "Away")) ∨
      ∃ x ∈ (write twoTeams shortNames (.one (.str "H"))).2.replaced,
        ∃ q, Path.parse x.path = .ok q ∧ q.names <+: ["teams", "name"]) ∧
    ((Node.map (write twoTeams shortNames (.one (.str "H"))).1).at?
        [.key "teams", .index 0, .key "score"] = some (.scalar (.num 10)) ∨
      ∃ x ∈ (write twoTeams shortNames (.one (.str "H"))).2.replaced,
        ∃ q, Path.parse x.path = .ok q ∧ q.names <+: ["teams", "score"]) :=
  have hparse : Path.parse "teams[].name.short" = .ok shortNames := by rfl
  have hwrite := leaf_kept_or_reported hparse twoTeams (.one (.str "H"))
  ⟨hparse,
    hwrite.1 [.key "teams", .index 1, .key "name"] (.scalar (.str "Away")) rfl rfl (by decide),
    hwrite.1 [.key "teams", .index 0, .key "score"] (.scalar (.num 10)) rfl rfl (by decide)⟩

end Record

end PageExtract
