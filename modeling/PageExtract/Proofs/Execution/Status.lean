/-
The status of a run.

A result counts as good only if nothing at all went wrong on the way to it. What can go wrong is
listed here without mentioning warnings, and the status of a run is shown to say exactly that.

* `Validation.Holds`, `success_validate` — when a rule holds, and when a report is successful;
* `Processor.Clean` — a run on which nothing went wrong;
* `Processor.quiet_collect` — it is one without warnings;
* `execute_status` — the status of a run.
-/
import PageExtract.Proofs.Execution.Quiet

namespace PageExtract

/-! ### Rules -/

/-- Whether the predicate of a rule is one and its value on some data counts as true. -/
def Validation.Holds (data : Members (Value Float)) (v : Validation) : Prop :=
  ∃ rule, Rule.parse v.predicate = .ok rule ∧ rule.holds data = .ok true

theorem Validation.failure?_eq_none_iff (v : Validation) (data : Members (Value Float)) :
    v.failure? data = none ↔ v.Holds data := by
  unfold Validation.failure? Validation.Holds
  cases Rule.parse v.predicate with
  | error e => simp
  | ok rule =>
    simp only [Except.ok.injEq, exists_eq_left']
    split <;> simp_all

theorem success_add (r : ValidationReport) (severity : Severity) (failure : String) :
    (r.add severity failure).success = true ↔ r.success = true ∧ severity ≠ .error := by
  cases severity <;> simp [ValidationReport.add, ValidationReport.success]

/-- A report is successful if and only if every rule of severity `error` holds. -/
theorem success_validate (data : Members (Value Float)) (vs : List Validation) :
    (validate data vs).value.success = true ↔ ∀ v ∈ vs, v.severity = .error → v.Holds data := by
  have hfrom : ∀ report, (validateFrom data report vs).value.success = true ↔
      report.success = true ∧ ∀ v ∈ vs, v.severity = .error → v.Holds data := by
    induction vs with
    | nil => simp [validateFrom]
    | cons v vs ih =>
      intro report
      rw [validateFrom, List.forall_mem_cons]
      cases hfailure : v.failure? data with
      | none =>
        have hholds := (v.failure?_eq_none_iff data).1 hfailure
        rw [and_iff_right fun _ => hholds]
        exact ih report
      | some failure =>
        have hfails : ¬ v.Holds data := by
          rw [← v.failure?_eq_none_iff, hfailure]
          exact Option.some_ne_none failure
        simp only
        rw [Trace.value_bind, ih, success_add, and_assoc]
        refine and_congr_right fun _ => and_congr_left fun _ => ?_
        exact ⟨fun h he => (h he).elim, fun h he => hfails (h he)⟩
  rw [validate, hfrom]
  exact and_iff_right rfl

/-! ### Runs -/

/-- Whether nothing goes wrong on a run up to the validation: what every anchor, every region, every
field and every calculation has to meet. Fields and calculations meet the tree that those before
them leave. -/
structure Processor.Clean (p : Processor) (l : Layout Float) (s : Settings Float)
    (found : FoundAnchors Float) : Prop where
  anchors : ∀ a ∈ p.anchors, a.resolves l s = true
  regions : ∀ r ∈ p.regions, r.Resolves found
  fields : ∀ done e rest, p.extractions = done ++ e :: rest →
    ∃ tree, (extractFields (p.inputFor l s found) [] done).value = .ok tree ∧
      e.Fits (p.inputFor l s found) tree
  calculations : ∃ filled,
    (extractFields (p.inputFor l s found) [] p.extractions).value = .ok filled ∧
      ∀ done c rest, p.calculations = done ++ c :: rest →
        ∃ tree, (runCalculations filled done).value = .ok tree ∧ c.Fits tree

section

variable {now : String} {v : Option (Value Float)} {p : Processor} {l : Layout Float}
  {s : Settings Float} {found : FoundAnchors Float}

theorem Processor.quiet_fill (hp : Processor.ofInput now v = .ok p) (input : ExtractionInput) :
    (p.fill input).Quiet ↔
      (∀ done e rest, p.extractions = done ++ e :: rest →
        ∃ tree, (extractFields input [] done).value = .ok tree ∧ e.Fits input tree) ∧
      ∃ filled, (extractFields input [] p.extractions).value = .ok filled ∧
        ∀ done c rest, p.calculations = done ++ c :: rest →
          ∃ tree, (runCalculations filled done).value = .ok tree ∧ c.Fits tree := by
  have hextractions : ∀ e ∈ p.extractions, ∃ path, Path.parse e.fieldPath = .ok path :=
    fun e he => Processor.exists_path_of_ofInput hp
      (List.mem_append_left _ (List.mem_map_of_mem he))
  have hcalculations : ∀ c ∈ p.calculations, ∃ path, Path.parse c.fieldPath = .ok path :=
    fun c hc => Processor.exists_path_of_ofInput hp
      (List.mem_append_right _ (List.mem_map_of_mem hc))
  obtain ⟨filled, hfilled⟩ := exists_extractFields input hextractions []
  rw [Processor.fill, quiet_bind, quiet_extractFields input hextractions, hfilled]
  simp only [Except.ok.injEq, exists_eq_left']
  rw [quiet_runCalculations hcalculations]

/-- A run is without warnings if and only if nothing goes wrong. -/
theorem Processor.quiet_collect (hp : Processor.ofInput now v = .ok p)
    (hfound : (findAnchors l s p.anchors).value = .ok found) :
    (p.collect l s).Quiet ↔ p.Clean l s found := by
  have hparts : (p.collect l s).Quiet ↔ (findAnchors l s p.anchors).Quiet ∧
      (findRegions l found p.regions).Quiet ∧ (p.fill (p.inputFor l s found)).Quiet := by
    unfold Traced.Quiet
    rw [Processor.warnings_collect hfound, List.append_eq_nil_iff, List.append_eq_nil_iff]
  rw [hparts, quiet_findAnchors l s (Processor.patternIssues_of_ofInput hp) hfound,
    quiet_findRegions, Processor.quiet_fill hp]
  constructor
  · rintro ⟨hanchors, hregions, hfields, hcalculations⟩
    exact ⟨hanchors, hregions, hfields, hcalculations⟩
  · exact fun h => ⟨h.anchors, h.regions, h.fields, h.calculations⟩

end

theorem ExecutionStatus.of_eq_ok_iff (report : ValidationReport) (warnings : List String) :
    ExecutionStatus.of report warnings = .ok ↔ warnings = [] ∧ report.success = true := by
  unfold ExecutionStatus.of
  rw [and_comm, ← List.isEmpty_iff, ← Bool.and_eq_true]
  split
  · rename_i h
    exact ⟨fun _ => h, fun _ => rfl⟩
  · rename_i h
    refine ⟨fun hok => ?_, fun hok => (h hok).elim⟩
    cases hok

/-- The result of a run on a processor that was read is good if nothing went wrong and every rule
of severity `error` holds of the data, and has to be reviewed in every other case. -/
theorem execute_status {now : String} {v : Option (Value Float)} {p : Processor}
    (hp : Processor.ofInput now v = .ok p) {s : Settings Float} {l : Layout Float}
    {result : Execution} (hrun : (execute s l p).value = .ok result) :
    ∃ found, (findAnchors l s p.anchors).value = .ok found ∧
      (result.status = .ok ↔ p.Clean l s found ∧
        ∀ rule ∈ p.validations, rule.severity = .error → rule.Holds result.data) ∧
      (result.status = .needsReview ↔ ¬ (p.Clean l s found ∧
        ∀ rule ∈ p.validations, rule.severity = .error → rule.Holds result.data)) := by
  obtain ⟨found, tree, hfound, -, rfl⟩ := exists_of_execute_eq_ok hrun
  have hok : (p.resultFor l s found tree).status = .ok ↔ p.Clean l s found ∧
      ∀ rule ∈ p.validations, rule.severity = .error →
        rule.Holds (p.resultFor l s found tree).data := by
    rw [← Processor.quiet_collect hp hfound, ← success_validate]
    exact ExecutionStatus.of_eq_ok_iff _ _
  refine ⟨found, hfound, hok, ?_⟩
  rw [← hok]
  cases (p.resultFor l s found tree).status with
  | ok => simp
  | needsReview => simp

/-- A block to the right of `totalBlock`. -/
def priceBlock : Block Float :=
  ⟨"b2", "12", ⟨0.3, 0.8, 0.4, 0.82, 1.0⟩, 99.0, none, false, .text⟩

/-- With a price next to the total nothing goes wrong, without one the field has no value. -/
theorem execute_status_invoice :
    (∃ result found,
      (execute .standard (onePage [totalBlock, priceBlock]) invoice).value = .ok result ∧
      result.status = .ok ∧ invoice.Clean (onePage [totalBlock, priceBlock]) .standard found) ∧
    ∃ result found, (execute .standard (onePage [totalBlock]) invoice).value = .ok result ∧
      result.status = .needsReview ∧ ¬ invoice.Clean (onePage [totalBlock]) .standard found := by
  have hread : Processor.ofInput "" (some invoiceSpec) = .ok invoice := by rfl
  have hstatus : ∀ l status, (execute .standard l invoice).value.toOption.map (·.status) =
      some status → ∃ result, (execute .standard l invoice).value = .ok result ∧
        result.status = status := by
    intro l status h
    cases hrun : (execute .standard l invoice).value with
    | error error =>
      rw [hrun] at h
      cases h
    | ok result =>
      rw [hrun] at h
      exact ⟨result, rfl, Option.some_inj.1 h⟩
  obtain ⟨good, hgood, hok⟩ := hstatus (onePage [totalBlock, priceBlock]) .ok (by decide +kernel)
  obtain ⟨bad, hbad, hreview⟩ := hstatus (onePage [totalBlock]) .needsReview (by decide +kernel)
  obtain ⟨found, -, hclean, -⟩ := execute_status hread hgood
  obtain ⟨found', -, -, hnot⟩ := execute_status hread hbad
  refine ⟨⟨good, found, hgood, hok, (hclean.1 hok).1⟩, bad, found', hbad, hreview, fun h => ?_⟩
  -- The invoice has no rules, so that only what happened before the validation can be amiss.
  exact hnot.1 hreview ⟨h, fun rule hrule => (List.not_mem_nil hrule).elim⟩

end PageExtract
