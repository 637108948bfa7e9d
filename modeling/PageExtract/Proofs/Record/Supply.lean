/-
What a write has to give out.

A write carries its supply from record to record: the leaves are served in the order in which they
are reached, and each takes one node.

* `Supply.skip` — what is left after some leaves;
* `Supply.served` — what some leaves hold afterwards, given what they held before;
* `Supply.covered` — how many of some leaves are served;
* `Record.supply_writeBelow` — a write takes one node for each leaf that it reaches;
* `Record.targets_writeBelow` — it counts the leaves that are served.
-/
import PageExtract.Proofs.Record.Trail

namespace PageExtract

variable {ν : Type}

namespace Supply

/-- What is left after some leaves. -/
def skip : Nat → Supply ν → Supply ν
  | _, same node => same node
  | n, deal vs => deal (vs.drop n)

@[simp] theorem skip_zero (s : Supply ν) : s.skip 0 = s := by
  cases s <;> rfl

@[simp] theorem skip_skip (m n : Nat) (s : Supply ν) : (s.skip m).skip n = s.skip (m + n) := by
  cases s with
  | same node => rfl
  | deal vs => simp [skip, List.drop_drop]

theorem rest_eq_skip (s : Supply ν) : s.rest = s.skip 1 := by
  cases s with
  | same node => rfl
  | deal vs => simp [skip, rest]

/-- Whether a supply consists of leaves. -/
def Leafy : Supply ν → Prop
  | same node => node.isLeaf = true
  | deal _ => True

theorem Leafy.skip {s : Supply ν} (h : s.Leafy) (n : Nat) : (s.skip n).Leafy := by
  cases s with
  | same node => exact h
  | deal vs => trivial

theorem Leafy.isLeaf_next {s : Supply ν} (h : s.Leafy) {n : Node ν} (hn : s.next = some n) :
    n.isLeaf = true := by
  cases s with
  | same node =>
    cases hn
    exact h
  | deal vs =>
    cases vs with
    | nil => cases hn
    | cons v vs =>
      cases hn
      rfl

/-- What some leaves hold after the supply has been given out to them. -/
def served : Supply ν → List (Option (Node ν)) → List (Option (Node ν))
  | _, [] => []
  | s, old :: olds => (s.next <|> old) :: s.rest.served olds

theorem served_append (s : Supply ν) (xs ys : List (Option (Node ν))) :
    s.served (xs ++ ys) = s.served xs ++ (s.skip xs.length).served ys := by
  induction xs generalizing s with
  | nil => simp [served]
  | cons x xs ih =>
    show _ :: s.rest.served (xs ++ ys) = _ :: (s.rest.served xs ++ _)
    rw [ih, rest_eq_skip, skip_skip, List.length_cons, Nat.add_comm]

theorem served_same (node : Node ν) (xs : List (Option (Node ν))) :
    (same node).served xs = List.replicate xs.length (some node) := by
  induction xs with
  | nil => rfl
  | cons x xs ih => exact congrArg (some node :: ·) ih

/-- A list is dealt out from the front, and later leaves keep what they held. -/
theorem served_deal (vs : List (Scalar ν)) (xs : List (Option (Node ν)))
    (h : vs.length ≤ xs.length) :
    (deal vs).served xs = vs.map (fun v => some (.scalar v)) ++ xs.drop vs.length := by
  induction xs generalizing vs with
  | nil =>
    have hnil : vs = [] := List.length_eq_zero_iff.1 (Nat.le_zero.1 h)
    subst hnil
    rfl
  | cons x xs ih =>
    cases vs with
    | nil =>
      show _ :: (deal []).served xs = x :: xs
      rw [ih [] (Nat.zero_le _)]
      simp [next]
    | cons v vs =>
      show _ :: (deal vs).served xs = _
      rw [ih vs (Nat.le_of_succ_le_succ h)]
      rfl

/-- How many of some leaves are served. -/
def covered : Supply ν → Nat → Nat
  | same _, n => n
  | deal vs, n => min n vs.length

@[simp] theorem covered_zero (s : Supply ν) : s.covered 0 = 0 := by
  cases s <;> simp [covered]

theorem covered_add (s : Supply ν) (m n : Nat) :
    s.covered (m + n) = s.covered m + (s.skip m).covered n := by
  cases s with
  | same node => rfl
  | deal vs =>
    simp only [covered, skip, List.length_drop]
    omega

end Supply

namespace Record

/-- A write above the last level goes on in the records, or in the record, below its first
name. -/
theorem writeBelow_cons (size : Nat) (seg : Segment) {path : Path} (h : path ≠ []) (s : Supply ν)
    (r : Record ν) :
    writeBelow size (seg :: path) s r =
      if seg.many then
        let w := writeEach (writeBelow size path) s (childSequence r seg.name size).1
        ⟨Members.put r seg.name (.sequence w.result), w.supply, w.reached, w.targets,
          (childSequence r seg.name size).2 :: w.replaced⟩
      else
        let w := writeBelow size path s (childMap r seg.name).1
        ⟨Members.put r seg.name (.map w.result), w.supply, w.reached, w.targets,
          (childMap r seg.name).2 :: w.replaced⟩ := by
  cases path with
  | nil => exact absurd rfl h
  | cons next path => rfl

theorem supply_writeLeaf (name : String) (s : Supply ν) (r : Record ν) :
    (writeLeaf name s r).supply = s.skip (writeLeaf name s r).reached := by
  unfold writeLeaf
  split <;> exact s.rest_eq_skip

theorem supply_writeEach {f : Supply ν → Record ν → Written ν (Record ν)}
    (hf : ∀ s r, (f s r).supply = s.skip (f s r).reached) (s : Supply ν) (rs : List (Record ν)) :
    (writeEach f s rs).supply = s.skip (writeEach f s rs).reached := by
  induction rs generalizing s with
  | nil => exact s.skip_zero.symm
  | cons r rs ih =>
    show (writeEach f (f s r).supply rs).supply
      = s.skip ((f s r).reached + (writeEach f (f s r).supply rs).reached)
    rw [ih, hf s r, Supply.skip_skip]

/-- A write takes one node of the supply for each leaf that it reaches. -/
theorem supply_writeBelow (size : Nat) (p : Path) (s : Supply ν) (r : Record ν) :
    (writeBelow size p s r).supply = s.skip (writeBelow size p s r).reached := by
  induction p generalizing s r with
  | nil => exact s.skip_zero.symm
  | cons seg path ih =>
    cases path with
    | nil => exact supply_writeLeaf seg.name s r
    | cons next path =>
      unfold writeBelow
      split
      · exact supply_writeEach ih s _
      · exact ih s _

theorem targets_writeLeaf (name : String) (s : Supply ν) (r : Record ν) :
    (writeLeaf name s r).targets = s.covered (writeLeaf name s r).reached := by
  unfold writeLeaf
  split
  · rename_i node hnext
    cases s with
    | same node => rfl
    | deal vs =>
      cases vs with
      | nil => cases hnext
      | cons v vs => simp [Supply.covered]
  · rename_i hnext
    cases s with
    | same node => cases hnext
    | deal vs =>
      cases vs with
      | nil => rfl
      | cons v vs => cases hnext

theorem targets_writeEach {f : Supply ν → Record ν → Written ν (Record ν)}
    (hsupply : ∀ s r, (f s r).supply = s.skip (f s r).reached)
    (hf : ∀ s r, (f s r).targets = s.covered (f s r).reached) (s : Supply ν)
    (rs : List (Record ν)) :
    (writeEach f s rs).targets = s.covered (writeEach f s rs).reached := by
  induction rs generalizing s with
  | nil => exact s.covered_zero.symm
  | cons r rs ih =>
    show (f s r).targets + (writeEach f (f s r).supply rs).targets
      = s.covered ((f s r).reached + (writeEach f (f s r).supply rs).reached)
    rw [ih, hf, hsupply, Supply.covered_add]

/-- A write counts the leaves that it serves. -/
theorem targets_writeBelow (size : Nat) (p : Path) (s : Supply ν) (r : Record ν) :
    (writeBelow size p s r).targets = s.covered (writeBelow size p s r).reached := by
  induction p generalizing s r with
  | nil => exact s.covered_zero.symm
  | cons seg path ih =>
    cases path with
    | nil => exact targets_writeLeaf seg.name s r
    | cons next path =>
      unfold writeBelow
      split
      · exact targets_writeEach (supply_writeBelow size (next :: path)) ih s _
      · exact ih s _

end Record

end PageExtract
