/-
What becomes of the values of a run.

A value that is extracted or calculated is written into the tree as it is at that moment. Either a
leaf of the field holds it then, or a warning says what happened, with one exception: a scalar that
is written below a mark while no record is there is dropped, and if nothing else is amiss the run
does not mention it.

* `infix_warnings_runSteps` — what a step says stays among the warnings;
* `Traced.Accounts` — a step stores a value or gives a warning;
* `Extraction.accounts_step`, `Calculation.accounts_run` — when a step does so;
* `execute_stored` — when the steps of a run do so;
* `execute_drops_price` — a run that drops the only value that it extracts.
-/
import PageExtract.Proofs.Execution.Status
import PageExtract.Proofs.Record.Stored

namespace PageExtract

/-! ### Warnings of steps -/

/-- What a step says is among the warnings of all steps. -/
theorem infix_warnings_runSteps {σ : Type}
    {step : Record Float → σ → Traced (Except PathError (Record Float))} {x : σ}
    {done rest : List σ} {start tree : Record Float}
    (h : (runSteps step start done).value = .ok tree) :
    (step tree x).trace.warnings <:+: (runSteps step start (done ++ x :: rest)).trace.warnings := by
  induction done generalizing start with
  | nil =>
    cases h
    exact (List.prefix_append _ _).isInfix
  | cons y done ih =>
    rw [runSteps, Trace.value_bind] at h
    rw [List.cons_append, runSteps, Trace.warnings_bind]
    cases hy : (step start y).value with
    | error error =>
      rw [hy] at h
      cases h
    | ok tree' =>
      rw [hy] at h
      exact (ih h).trans (List.suffix_append _ _).isInfix

section

variable {p : Processor} {l : Layout Float} {s : Settings Float} {found : FoundAnchors Float}

/-- What is said while a tree is filled is among the warnings of the run. -/
theorem Processor.infix_warnings_collect
    (hfound : (findAnchors l s p.anchors).value = .ok found) :
    (p.fill (p.inputFor l s found)).trace.warnings <:+: (p.collect l s).trace.warnings := by
  rw [Processor.warnings_collect hfound]
  exact (List.suffix_append _ _).isInfix.trans (List.suffix_append _ _).isInfix

theorem Processor.infix_warnings_fields (p : Processor) (input : ExtractionInput) :
    (extractFields input [] p.extractions).trace.warnings <:+: (p.fill input).trace.warnings :=
  (List.prefix_append _ _).isInfix

theorem Processor.infix_warnings_calculations {input : ExtractionInput} {filled : Record Float}
    (hfilled : (extractFields input [] p.extractions).value = .ok filled) :
    (runCalculations filled p.calculations).trace.warnings <:+:
      (p.fill input).trace.warnings := by
  rw [Processor.fill, Trace.warnings_bind, hfilled]
  exact (List.suffix_append _ _).isInfix

end

/-! ### Steps that write -/

/-- Whether a step that writes a value accounts for it: the tree that it leaves holds the value, or
the step gives a warning. -/
def Traced.Accounts (x : Traced (Except PathError (Record Float))) (path : Path)
    (value : Extracted Float) : Prop :=
  (∃ tree, x.value = .ok tree ∧ tree.Stores path value) ∨ x.trace.warnings ≠ []

/-- A step that leaves what a write leaves accounts for the value unless the write drops it and
the step is quiet. -/
theorem accounts_iff {x : Traced (Except PathError (Record Float))} {tree : Record Float}
    {path : Path} (hne : path ≠ []) {value : Extracted Float}
    (hx : x.value = .ok (Record.write tree path value).1) :
    x.Accounts path value ↔ ¬ (tree.Drops path value ∧ x.Quiet) := by
  have hstored : (∃ tree', x.value = .ok tree' ∧ tree'.Stores path value) ↔
      ¬ tree.Drops path value := by
    rw [hx, ← Record.stores_write hne value]
    simp
  rw [Traced.Accounts, hstored, Classical.not_and_iff_not_or_not]
  rfl

/-- A field with a value accounts for it, unless the write drops it and all else fits. -/
theorem Extraction.accounts_step {input : ExtractionInput} {tree : Record Float} {e : Extraction}
    {path : Path} (hpath : Path.parse e.fieldPath = .ok path) {value : Extracted Float}
    (hvalue : (e.extract input).value = some value) :
    (e.step input tree).Accounts path value ↔
      ¬ (tree.Drops path value ∧ e.Fits input tree) := by
  have hstep : (e.step input tree).value = .ok (Record.write tree path value).1 := by
    rw [step, Trace.value_bind, e.value_store hpath, hvalue]
  rw [accounts_iff (Path.ne_nil_of_parse hpath) hstep, e.quiet_step hpath]

/-- A calculation with a finite value accounts for it, unless the write drops it and all else
fits. -/
theorem Calculation.accounts_run {tree : Record Float} {c : Calculation} {path : Path}
    (hpath : Path.parse c.fieldPath = .ok path) {f : Formula} (hf : Formula.parse c.formula = .ok f)
    (hfinite : Numeric.isFinite (f.eval tree).1 = true) :
    (c.run tree).Accounts path (.one (.num (f.eval tree).1)) ↔
      ¬ (tree.Drops path (.one (.num (f.eval tree).1)) ∧ c.Fits tree) := by
  have hrun : (c.run tree).value =
      .ok (Record.write tree path (.one (.num (f.eval tree).1))).1 := by
    unfold run
    simp only [hf, hpath, Trace.value_bind]
    rw [if_pos hfinite]
    rfl
  rw [accounts_iff (Path.ne_nil_of_parse hpath) hrun, c.quiet_run hpath]

/-! ### Runs -/

/-- Every field and every calculation of a run on a processor that was read accounts for its value,
unless the value is a scalar that finds no record and nothing else is amiss. What a step says is
among the warnings of the result. -/
theorem execute_stored {now : String} {v : Option (Value Float)} {p : Processor}
    (hp : Processor.ofInput now v = .ok p) {s : Settings Float} {l : Layout Float}
    {result : Execution} (hrun : (execute s l p).value = .ok result) :
    ∃ found filled, (findAnchors l s p.anchors).value = .ok found ∧
      (extractFields (p.inputFor l s found) [] p.extractions).value = .ok filled ∧
      (∀ done e rest, p.extractions = done ++ e :: rest → ∃ tree path,
        (extractFields (p.inputFor l s found) [] done).value = .ok tree ∧
        Path.parse e.fieldPath = .ok path ∧
        (e.step (p.inputFor l s found) tree).trace.warnings <:+: result.warnings ∧
        ∀ value, (e.extract (p.inputFor l s found)).value = some value →
          ((e.step (p.inputFor l s found) tree).Accounts path value ↔
            ¬ (tree.Drops path value ∧ e.Fits (p.inputFor l s found) tree))) ∧
      ∀ done c rest, p.calculations = done ++ c :: rest → ∃ tree path,
        (runCalculations filled done).value = .ok tree ∧
        Path.parse c.fieldPath = .ok path ∧
        (c.run tree).trace.warnings <:+: result.warnings ∧
        ∀ f, Formula.parse c.formula = .ok f → Numeric.isFinite (f.eval tree).1 = true →
          ((c.run tree).Accounts path (.one (.num (f.eval tree).1)) ↔
            ¬ (tree.Drops path (.one (.num (f.eval tree).1)) ∧ c.Fits tree)) := by
  obtain ⟨found, tree, hfound, -, rfl⟩ := exists_of_execute_eq_ok hrun
  have hextractions : ∀ e ∈ p.extractions, ∃ path, Path.parse e.fieldPath = .ok path :=
    fun e he => Processor.exists_path_of_ofInput hp
      (List.mem_append_left _ (List.mem_map_of_mem he))
  have hcalculations : ∀ c ∈ p.calculations, ∃ path, Path.parse c.fieldPath = .ok path :=
    fun c hc => Processor.exists_path_of_ofInput hp
      (List.mem_append_right _ (List.mem_map_of_mem hc))
  obtain ⟨filled, hfilled⟩ := exists_extractFields (p.inputFor l s found) hextractions []
  have hfill := Processor.infix_warnings_collect hfound
  refine ⟨found, filled, hfound, hfilled, fun done e rest hcut => ?_, fun done c rest hcut => ?_⟩
  · obtain ⟨path, hpath⟩ := hextractions e (hcut ▸ List.mem_append_right done List.mem_cons_self)
    obtain ⟨before, hbefore⟩ := exists_extractFields (p.inputFor l s found)
      (fun e' he' => hextractions e' (hcut ▸ List.mem_append_left _ he')) []
    refine ⟨before, path, hbefore, hpath, ?_, fun value hvalue => e.accounts_step hpath hvalue⟩
    have hstep : (e.step (p.inputFor l s found) before).trace.warnings <:+:
        (extractFields (p.inputFor l s found) [] p.extractions).trace.warnings := by
      rw [extractFields_eq_runSteps] at hbefore ⊢
      rw [hcut]
      exact infix_warnings_runSteps hbefore
    exact hstep.trans ((p.infix_warnings_fields _).trans hfill)
  · obtain ⟨path, hpath⟩ := hcalculations c (hcut ▸ List.mem_append_right done List.mem_cons_self)
    obtain ⟨before, hbefore⟩ := exists_runCalculations
      (fun c' hc' => hcalculations c' (hcut ▸ List.mem_append_left _ hc')) filled
    refine ⟨before, path, hbefore, hpath, ?_, fun f hf hfinite => c.accounts_run hpath hf hfinite⟩
    have hstep : (c.run before).trace.warnings <:+:
        (runCalculations filled p.calculations).trace.warnings := by
      rw [runCalculations_eq_runSteps] at hbefore ⊢
      rw [hcut]
      exact infix_warnings_runSteps hbefore
    exact hstep.trans ((Processor.infix_warnings_calculations hfilled).trans hfill)

/-! ### A price that is dropped -/

/-- A page with a total, and a price next to it. -/
def pricedPage : Layout Float := onePage [totalBlock, priceBlock]

/-- The only field of `invoice`, and its path. -/
def priceField : Extraction := ⟨"items[].price", "anchor.total.next", none⟩

def pricePath : Path := [⟨"items", true⟩, ⟨"price", false⟩]

/-- What the field is extracted from if there is a price next to the total. -/
def pricedInput : ExtractionInput :=
  invoice.inputFor pricedPage .standard [("total", totalBlock)]

theorem findAnchors_pricedPage :
    (findAnchors pricedPage .standard invoice.anchors).value = .ok [("total", totalBlock)] := by
  have hfound : (findAnchors pricedPage .standard invoice.anchors).value.toOption =
      some [("total", totalBlock)] := by
    decide +kernel
  cases h : (findAnchors pricedPage .standard invoice.anchors).value with
  | error error =>
    rw [h] at hfound
    cases hfound
  | ok found =>
    rw [h] at hfound
    cases hfound
    rfl

theorem extract_priceField :
    (priceField.extract pricedInput).value = some (.one (.str "12")) := by
  decide +kernel

/-- The field of the invoice does not account for the price: no record takes it, and all else
fits. -/
theorem execute_stored_invoice :
    ∃ result, (execute .standard pricedPage invoice).value = .ok result ∧
      ¬ (priceField.step pricedInput []).Accounts pricePath (.one (.str "12")) := by
  have hread : Processor.ofInput "" (some invoiceSpec) = .ok invoice := by rfl
  have hresult : (execute .standard pricedPage invoice).value.isOk = true := by decide +kernel
  cases hrun : (execute .standard pricedPage invoice).value with
  | error error =>
    rw [hrun] at hresult
    cases hresult
  | ok result =>
    refine ⟨result, rfl, fun haccounts => ?_⟩
    obtain ⟨found, _, hfound, -, hfields, -⟩ := execute_stored hread hrun
    cases findAnchors_pricedPage.symm.trans hfound
    obtain ⟨tree, path, htree, hpath, -, hvalue⟩ := hfields [] priceField [] rfl
    cases htree
    obtain rfl : path = pricePath := (Except.ok.inj hpath).symm
    refine (hvalue _ extract_priceField).1 haccounts ⟨⟨⟨_, rfl⟩, rfl, rfl⟩, rfl, ?_⟩
    exact ⟨_, _, extract_priceField, rfl, rfl, rfl⟩

instance decidableEqNoItems (v : Option (Value Float)) : Decidable (v = some (.list [])) :=
  match v with
  | some (.list []) => .isTrue rfl
  | some (.list (_ :: _)) => .isFalse nofun
  | some .null => .isFalse nofun
  | some (.bool _) => .isFalse nofun
  | some (.num _) => .isFalse nofun
  | some (.str _) => .isFalse nofun
  | some (.map _) => .isFalse nofun
  | none => .isFalse nofun

/-- The price that the field of the invoice extracts is not in the data, and the result is good and
has no warnings. -/
theorem execute_drops_price :
    (priceField.extract pricedInput).value = some (.one (.str "12")) ∧
    ∃ result, (execute .standard pricedPage invoice).value = .ok result ∧
      result.status = .ok ∧ result.warnings = [] ∧
      Members.get? result.data "items" = some (.list []) := by
  have hresult : ((execute .standard pricedPage invoice).value.toOption.any fun result =>
      result.status = .ok ∧ result.warnings = [] ∧
        Members.get? result.data "items" = some (.list [])) = true := by
    decide +kernel
  refine ⟨extract_priceField, ?_⟩
  cases hrun : (execute .standard pricedPage invoice).value with
  | error error =>
    rw [hrun] at hresult
    cases hresult
  | ok result =>
    rw [hrun] at hresult
    exact ⟨result, rfl, of_decide_eq_true hresult⟩

end PageExtract
