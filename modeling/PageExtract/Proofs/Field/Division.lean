/-
Divisions by zero in calculations.

A quotient by zero is infinite or not a number, and so is all that is computed from it, but for one
case: a finite number divided by an infinite one is zero. A calculation looks at the value of its
formula only. So a division by zero is reported, and nothing is written, unless the division is part
of a divisor that is infinite.

* `Formula.zeroDivisions` — the divisions by zero in a formula, and the divisors around each;
* `Formula.exists_isInf` — around a division by zero in a finite formula a divisor is infinite;
* `Calculation.run_of_not_isFinite`, `Calculation.run_of_isFinite` — a calculation whose value is
  not finite, and one whose value is;
* `value_runSteps_append` — some steps, and then the others;
* `runCalculations_zeroDivisions` — what becomes of a calculation that divides by zero;
* `runCalculations_absorbs` — a division by zero that gives a field.
-/
import PageExtract.Proofs.Execution.Stored
import PageExtract.Proofs.Number.Finite

namespace PageExtract

namespace Formula

/-- The divisions by zero in a formula, at any depth. Each is given by the values of the divisors
that it is part of, the outermost first. -/
def zeroDivisions (tree : Record Float) : Formula → List (List Float)
  | num _ => []
  | sum _ => []
  | neg operand => operand.zeroDivisions tree
  | bin op left right =>
    match op with
    | .div =>
      let divisor := (right.eval tree).1
      left.zeroDivisions tree ++ (right.zeroDivisions tree).map (divisor :: ·) ++
        if divisor == 0.0 then [[]] else []
    | _ => left.zeroDivisions tree ++ right.zeroDivisions tree

/-- A formula with a finite value divides by zero in divisors only that are infinite. -/
theorem exists_isInf {tree : Record Float} {f : Formula}
    (hfinite : Numeric.isFinite (f.eval tree).1 = true) {divisors : List Float}
    (h : divisors ∈ f.zeroDivisions tree) : ∃ y ∈ divisors, y.isInf = true := by
  induction f generalizing divisors with
  | num value => cases h
  | sum path => cases h
  | neg operand ih => exact ih (Double.isFinite_neg hfinite) h
  | bin op left right ihl ihr =>
    -- Both operands of a sum, a difference or a product are finite.
    have hboth : Numeric.isFinite (left.eval tree).1 = true ∧
        Numeric.isFinite (right.eval tree).1 = true →
        divisors ∈ left.zeroDivisions tree ++ right.zeroDivisions tree →
        ∃ y ∈ divisors, y.isInf = true :=
      fun hoperands hmem => (List.mem_append.1 hmem).elim (ihl hoperands.1) (ihr hoperands.2)
    cases op with
    | add => exact hboth (Double.isFinite_add hfinite) h
    | sub => exact hboth (Double.isFinite_sub hfinite) h
    | mul => exact hboth (Double.isFinite_mul hfinite) h
    | div =>
      obtain ⟨hleft, hzero, hright⟩ := Double.isFinite_div hfinite
      simp only [zeroDivisions] at h
      rw [hzero, if_neg Bool.false_ne_true, List.append_nil, List.mem_append] at h
      obtain h | h := h
      · exact ihl hleft h
      · obtain ⟨inner, hinner, rfl⟩ := List.mem_map.1 h
        obtain hright | hright := hright
        · obtain ⟨y, hy, hinfinite⟩ := ihr hright hinner
          exact ⟨y, List.mem_cons_of_mem _ hy, hinfinite⟩
        · exact ⟨_, List.mem_cons_self, hright⟩

end Formula

/-! ### Calculations -/

namespace Calculation

variable {tree : Record Float} {c : Calculation} {f : Formula}

/-- A calculation whose value is not finite leaves the tree and says so. -/
theorem run_of_not_isFinite (hformula : Formula.parse c.formula = .ok f)
    (hvalue : Numeric.isFinite (f.eval tree).1 = false) :
    (c.run tree).value = .ok tree ∧
      s!"{c.title} produced a non-finite result" ∈ (c.run tree).trace.warnings := by
  unfold run
  rw [hformula]
  simp only [Trace.value_bind, Trace.warnings_bind]
  rw [hvalue, if_neg Bool.false_ne_true]
  exact ⟨rfl, List.mem_append_right _ List.mem_cons_self⟩

/-- A calculation whose value is finite writes it. -/
theorem run_of_isFinite {path : Path} (hpath : Path.parse c.fieldPath = .ok path)
    (hformula : Formula.parse c.formula = .ok f)
    (hvalue : Numeric.isFinite (f.eval tree).1 = true) :
    (c.run tree).value = .ok (Record.write tree path (.one (.num (f.eval tree).1))).1 := by
  unfold run
  simp only [hformula, hpath, Trace.value_bind]
  rw [if_pos hvalue]
  rfl

end Calculation

/-- Steps go on from the tree that those before them leave. -/
theorem value_runSteps_append {σ : Type}
    {step : Record Float → σ → Traced (Except PathError (Record Float))} {done : List σ}
    {start tree : Record Float} (h : (runSteps step start done).value = .ok tree) (rest : List σ) :
    (runSteps step start (done ++ rest)).value = (runSteps step tree rest).value := by
  induction done generalizing start with
  | nil =>
    cases h
    rfl
  | cons x done ih =>
    rw [runSteps, Trace.value_bind] at h
    rw [List.cons_append, runSteps, Trace.value_bind]
    cases hx : (step start x).value with
    | error error =>
      rw [hx] at h
      cases h
    | ok tree' =>
      rw [hx] at h
      exact ih h

/-- A calculation whose formula divides by zero at any point either leaves the tree as it is and
gives a warning, or its formula has a finite value, which is written. In the latter case the division
is part of a divisor that is infinite. -/
theorem runCalculations_zeroDivisions {start tree : Record Float} {before : List Calculation}
    (hbefore : (runCalculations start before).value = .ok tree) {c : Calculation} {f : Formula}
    (hformula : Formula.parse c.formula = .ok f) {divisors : List Float}
    (hzero : divisors ∈ f.zeroDivisions tree) (after : List Calculation) :
    let run := runCalculations start (before ++ c :: after)
    let x := (f.eval tree).1
    (Numeric.isFinite x = false ∧ run.value = (runCalculations tree after).value ∧
      (c.run tree).trace.warnings <:+: run.trace.warnings ∧
      s!"{c.title} produced a non-finite result" ∈ (c.run tree).trace.warnings) ∨
    (Numeric.isFinite x = true ∧ (∃ y ∈ divisors, y.isInf = true) ∧
      ∀ path, Path.parse c.fieldPath = .ok path →
        run.value = (runCalculations (Record.write tree path (.one (.num x))).1 after).value) := by
  intro run x
  have hrun : run.value = (runCalculations tree (c :: after)).value := by
    simp only [run, runCalculations_eq_runSteps] at hbefore ⊢
    exact value_runSteps_append hbefore _
  rw [value_runCalculations_cons] at hrun
  cases hx : Numeric.isFinite x with
  | false =>
    left
    obtain ⟨hvalue, hwarning⟩ := Calculation.run_of_not_isFinite hformula hx
    rw [hvalue] at hrun
    refine ⟨rfl, hrun, ?_, hwarning⟩
    simp only [run, runCalculations_eq_runSteps] at hbefore ⊢
    exact infix_warnings_runSteps hbefore
  | true =>
    right
    refine ⟨rfl, f.exists_isInf hx hzero, fun path hpath => ?_⟩
    rw [Calculation.run_of_isFinite hpath hformula hx] at hrun
    exact hrun

/-! ### Ratios -/

/-- A calculation of a ratio. -/
def ratioOf (formula : String) : Calculation := ⟨"ratio", formula, none⟩

/-- A ratio to a difference that is zero. -/
def ratioFormula : Formula := .bin .div (.num 4.0) (.bin .sub (.num 2.0) (.num 2.0))

/-- The ratio to a difference that is zero is not written, and there is a warning. -/
theorem runCalculations_zeroDivisions_ratio :
    (runCalculations [] [ratioOf "4 / (2 - 2)"]).value = .ok [] ∧
      ((ratioOf "4 / (2 - 2)").run []).trace.warnings <:+:
        (runCalculations [] [ratioOf "4 / (2 - 2)"]).trace.warnings ∧
      "Calculation 'ratio' produced a non-finite result" ∈
        ((ratioOf "4 / (2 - 2)").run []).trace.warnings := by
  have hformula : Formula.parse (ratioOf "4 / (2 - 2)").formula = .ok ratioFormula := by
    decide +kernel
  have hdivisions : ratioFormula.zeroDivisions [] = [[]] := by decide +kernel
  have hzero : [] ∈ ratioFormula.zeroDivisions [] := hdivisions ▸ List.mem_singleton_self []
  have hbefore : (runCalculations [] []).value = .ok [] := rfl
  obtain ⟨-, hvalue, hinfix, hwarning⟩ | ⟨-, ⟨y, hy, -⟩, -⟩ :=
    runCalculations_zeroDivisions hbefore hformula hzero []
  · exact ⟨hvalue, hinfix, hwarning⟩
  · cases hy

/-- A quotient whose divisor is a quotient by zero. -/
def absorbingFormula : Formula := .bin .div (.num 1.0) (.bin .div (.num 1.0) (.num 0.0))

/-- The quotient by zero is infinite, and one divided by it is zero. This is written, and there is no
warning. -/
theorem runCalculations_absorbs :
    Formula.parse (ratioOf "1 / (1 / 0)").formula = .ok absorbingFormula ∧
      absorbingFormula.zeroDivisions [] = [[1.0 / 0.0]] ∧
      (runCalculations [] [ratioOf "1 / (1 / 0)"]).value = .ok [("ratio", .scalar (.num 0.0))] ∧
      (runCalculations [] [ratioOf "1 / (1 / 0)"]).trace.warnings = [] := by
  have hpath : Path.parse (ratioOf "1 / (1 / 0)").fieldPath = .ok [⟨"ratio", false⟩] := by
    decide +kernel
  have hformula : Formula.parse (ratioOf "1 / (1 / 0)").formula = .ok absorbingFormula := by
    decide +kernel
  have hzero : (absorbingFormula.eval []).1 = 0.0 := by decide +kernel
  have hfinite : Numeric.isFinite (absorbingFormula.eval []).1 = true := by decide +kernel
  refine ⟨hformula, by decide +kernel, ?_, by decide +kernel⟩
  rw [value_runCalculations_cons, Calculation.run_of_isFinite hpath hformula hfinite, hzero]
  rfl

end PageExtract
