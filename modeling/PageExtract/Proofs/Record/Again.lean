/-
Writing a value again.

A write leaves everything on its path as it needs it: records and sequences are where the path goes
through them, sequences are as long as the value, and the leaves hold what was given out. When the
same write is done again, it finds all of this in place.

* `Written.settled` — what a write says that finds everything in place;
* `Settles` — writes that do so the second time;
* `settles_writeLeaf`, `settles_writeEach`, `settles_writeBelow` — a leaf, the records of a
  sequence, and a whole path;
* `Record.write_again` — the same for `Record.write`.
-/
import PageExtract.Proofs.Record.Frame
import PageExtract.Proofs.Record.ReadBack
import PageExtract.Proofs.Record.Rows
import PageExtract.Proofs.Value.Members

namespace PageExtract

variable {ν α : Type}

/-- The same result of a write, with nothing replaced. -/
def Written.settled (w : Written ν α) : Written ν α :=
  { w with replaced := w.replaced.map fun _ => none }

namespace Record

/-- Whether a write into a record finds everything in place when it is done again. -/
structure Settles (f : Supply ν → Record ν → Written ν (Record ν)) : Prop where
  supply : ∀ s r, (f s r).supply = s.skip (f s r).reached
  again : ∀ s r, s.Leafy → f s (f s r).result = (f s r).settled

/-- A leaf that is written again replaces a leaf, which is not reported. -/
theorem settles_writeLeaf (name : String) : Settles (ν := ν) (writeLeaf name) := by
  refine ⟨supply_writeLeaf name, fun s r hs => ?_⟩
  unfold writeLeaf
  cases hnext : s.next with
  | none => rfl
  | some node =>
    have hget : Members.get? (Members.put r name node) name = some node := by
      rw [Members.get?_put, if_pos rfl]
    have hconflict : leafConflict (Members.put r name node) name = none := by
      have hleaf := hs.isLeaf_next hnext
      unfold leafConflict
      rw [hget]
      cases node with
      | scalar v => rfl
      | list vs => rfl
      | map entries => cases hleaf
      | sequence records => cases hleaf
    show Written.mk (Members.put (Members.put r name node) name node) _ _ _
      [leafConflict (Members.put r name node) name] = _
    rw [Members.put_get hget, hconflict]
    rfl

theorem firstReplaced_map_none (gone more : List (Option Shape)) :
    firstReplaced (gone.map fun _ => none) (more.map fun _ => none) =
      (firstReplaced gone more).map fun _ => none := by
  induction gone generalizing more with
  | nil => rfl
  | cons a gone ih =>
    cases more with
    | nil => rfl
    | cons b more => exact congrArg (none :: ·) (ih more)

/-- The records of a sequence are written again one after the other, each with the supply that it
had the first time. -/
theorem settles_writeEach {f : Supply ν → Record ν → Written ν (Record ν)} (hf : Settles f)
    {s : Supply ν} (hs : s.Leafy) (rs : List (Record ν)) :
    writeEach f s (writeEach f s rs).result = (writeEach f s rs).settled := by
  induction rs generalizing s with
  | nil => rfl
  | cons r rs ih =>
    have hrest : (f s r).supply.Leafy := by
      rw [hf.supply]
      exact hs.skip _
    have hfirst : f s (f s r).result = (f s r).settled := hf.again s r hs
    have hmore := ih hrest
    show writeEach f s ((f s r).result :: (writeEach f (f s r).supply rs).result) = _
    simp only [writeEach, hfirst, Written.settled, hmore, firstReplaced_map_none]

/-- The records of a sequence are as many after a write as before. -/
theorem length_writeEach (f : Supply ν → Record ν → Written ν (Record ν)) (s : Supply ν)
    (rs : List (Record ν)) : (writeEach f s rs).result.length = rs.length := by
  induction rs generalizing s with
  | nil => rfl
  | cons r rs ih => exact congrArg (· + 1) (ih (f s r).supply)

/-- A sequence that is long enough is found as it was put. -/
theorem childSequence_put (r : Record ν) (name : String) {rs : List (Record ν)} {size : Nat}
    (h : size ≤ rs.length) :
    childSequence (Members.put r name (.sequence rs)) name size = (rs, none) := by
  unfold childSequence
  rw [Members.get?_put, if_pos rfl]
  simp [Nat.sub_eq_zero_of_le h]

/-- A record is found as it was put. -/
theorem childMap_put (r : Record ν) (name : String) (entries : Record ν) :
    childMap (Members.put r name (.map entries)) name = (entries, none) := by
  unfold childMap
  rw [Members.get?_put, if_pos rfl]

/-- A member that is put where it is already stays there. -/
theorem put_put (r : Record ν) (name : String) (n : Node ν) :
    Members.put (Members.put r name n) name n = Members.put r name n :=
  Members.put_get ((Members.get?_put r name name n).trans (if_pos rfl))

/-- A write at a path finds everything in place when it is done again. -/
theorem settles_writeBelow (size : Nat) (path : Path) :
    Settles (ν := ν) (writeBelow size path) := by
  induction path with
  | nil => exact ⟨supply_writeBelow size [], fun s r _ => rfl⟩
  | cons seg path ih =>
    refine ⟨supply_writeBelow size _, fun s r hs => ?_⟩
    cases path with
    | nil => exact (settles_writeLeaf seg.name).again s r hs
    | cons next path =>
      have hcons := writeBelow_cons (ν := ν) size seg (List.cons_ne_nil next path) s
      cases hmany : seg.many with
      | true =>
        -- The sequence was made long enough, and a write keeps its length.
        have hsize := size_le_length_childSequence r seg.name size
        have hagain := settles_writeEach ih hs (childSequence r seg.name size).1
        rw [← length_writeEach (writeBelow size (next :: path)) s] at hsize
        rw [hcons, hcons, hmany]
        simp only [if_true]
        rw [childSequence_put r seg.name hsize, hagain]
        simp only [Written.settled, put_put, List.map_cons]
      | false =>
        have hagain := ih.again s (childMap r seg.name).1 hs
        rw [hcons, hcons, hmany]
        simp only [Bool.false_eq_true, if_false]
        rw [childMap_put, hagain]
        simp only [Written.settled, put_put, List.map_cons]

/-- **Writing is idempotent.** A value that is written again at the same path leaves the tree
exactly as it was after the first time, with the fields of records in the same order and sequences
of the same length. The second write reaches the same leaves and reports the same lengths, and it
replaces nothing. -/
theorem write_again (r : Record ν) (path : Path) (value : Extracted ν) :
    write (write r path value).1 path value =
      ((write r path value).1, { (write r path value).2 with replaced := [] }) := by
  let w := writeBelow (sizeFor value) path (supplyFor path value) r
  have hagain : writeBelow (sizeFor value) path (supplyFor path value) w.result = w.settled :=
    (settles_writeBelow (sizeFor value) path).again _ r (leafy_supplyFor path value)
  have hnone : replacedPaths [] path w.settled.replaced = [] := by
    refine replacedPaths_eq_nil (fun gone hgone => ?_) [] path
    obtain ⟨-, -, rfl⟩ := List.mem_map.1 hgone
    rfl
  have hwrite : (write r path value).1 = w.result := rfl
  rw [hwrite, write, hagain, hnone]
  rfl

/-- The second time, the record below `name` is there and the second team keeps its place. -/
example :
    let short : Path := [⟨"teams", true⟩, ⟨"name", false⟩, ⟨"short", false⟩]
    let once := write twoTeams short (.many [.str "H", .str "A", .str "N"])
    once.2.replaced = [⟨"teams[].name", .scalar⟩] ∧
      (write once.1 short (.many [.str "H", .str "A", .str "N"])).2 = ⟨3, none, []⟩ := by
  decide +kernel

end Record

end PageExtract
