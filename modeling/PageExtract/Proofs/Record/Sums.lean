/-
Sums over paths.

* `Record.Summable` — a path leads to numbers only;
* `Formula.remarks_eval` — a formula is evaluated without a remark if all its sums are over such
  paths;
* `Formula.sumPath_nums` — a sum over numbers.
-/
import PageExtract.Proofs.Expr.Names
import PageExtract.Record.Calculation

namespace PageExtract

/-- Whether every level of a path is there, and every value below counts as a number in a sum. -/
def Record.Summable (tree : Record Float) (path : Path) : Prop :=
  (tree.collect path).missing = none ∧
    ∀ v ∈ (tree.collect path).values, (Formula.summand? v).isSome = true

namespace Formula

theorem skipped_eq_zero_iff (vs : List (Option (Scalar Float))) :
    skipped vs = 0 ↔ ∀ v ∈ vs, (summand? v).isSome = true := by
  unfold skipped
  rw [List.length_eq_zero_iff, List.filter_eq_nil_iff]
  refine forall₂_congr fun v _ => ?_
  rw [Option.isNone_iff_eq_none]
  exact Option.isSome_iff_ne_none.symm

theorem remarks_sumPath (tree : Record Float) (path : Path) :
    (sumPath tree path).2 = [] ↔ tree.Summable path := by
  unfold sumPath Record.Summable
  simp only
  rw [← skipped_eq_zero_iff]
  cases (tree.collect path).missing with
  | some level => simp
  | none => simp

/-- A formula is evaluated without a remark if and only if all its sums are over numbers. -/
theorem remarks_eval (tree : Record Float) (f : Formula) :
    (f.eval tree).2 = [] ↔ ∀ path ∈ f.paths, tree.Summable path := by
  induction f with
  | num value => simp [eval, paths]
  | sum path => simpa [eval, paths] using remarks_sumPath tree path
  | neg operand ih => exact ih
  | bin op left right ihl ihr =>
    rw [paths, List.forall_mem_append, ← ihl, ← ihr]
    exact List.append_eq_nil_iff

/-- Numbers are added up from the left. -/
theorem total_nums (xs : List Float) :
    total ((xs.map Scalar.num).map some) = xs.foldl (fun acc x => acc + x) 0.0 := by
  rw [total, List.map_map, List.foldl_map]
  rfl

/-- A sum over numbers adds them up and has nothing to remark. -/
theorem sumPath_nums {tree : Record Float} {path : Path} {xs : List Float}
    (h : tree.collect path = ⟨(xs.map Scalar.num).map some, none⟩) :
    sumPath tree path = (xs.foldl (fun acc x => acc + x) 0.0, []) := by
  have hskipped : skipped ((xs.map Scalar.num).map some) = 0 := by
    rw [skipped_eq_zero_iff]
    intro v hv
    rw [List.map_map] at hv
    obtain ⟨x, -, rfl⟩ := List.mem_map.1 hv
    rfl
  unfold sumPath
  simp only [h, hskipped, if_true, total_nums]

end Formula

end PageExtract
