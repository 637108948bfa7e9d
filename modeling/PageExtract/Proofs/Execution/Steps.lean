/-
The steps of a run.

A run is taken apart here into the search for anchors, the fields and the calculations, so that
what is proved of each part can be put together for the whole.

* `Extraction.value_store`, `Calculation.value_run` — what one field or calculation leaves;
* `value_extractFields_cons`, `value_runCalculations_cons` — one step, and then the others;
* `Processor.inputFor` — what the fields of a run are extracted from;
* `value_execute` — the outcome of a run in terms of its parts.
-/
import PageExtract.Execution

namespace PageExtract

variable {input : ExtractionInput} {tree : Record Float}

/-! ### Fields -/

/-- A field whose path is one is written there if it has a value. -/
theorem Extraction.value_store {e : Extraction} {path : Path}
    (hpath : Path.parse e.fieldPath = .ok path) (value : Option (Extracted Float)) :
    (e.store tree value).value =
      .ok (match value with
        | some v => (Record.write tree path v).1
        | none => tree) := by
  cases value with
  | none => rfl
  | some v =>
    unfold Extraction.store
    simp only [hpath]
    rfl

theorem Extraction.warnings_store {e : Extraction} {path : Path}
    (hpath : Path.parse e.fieldPath = .ok path) (value : Extracted Float) :
    (e.store tree (some value)).trace.warnings =
      (e.reportMismatch (Record.write tree path value).2.mismatch).trace.warnings ++
        (reportReplaced e.title (Record.write tree path value).2.replaced).trace.warnings := by
  unfold Extraction.store
  simp only [hpath, Trace.warnings_bind, Trace.warnings_pure, List.append_nil]

theorem value_extractFields_cons (e : Extraction) (es : List Extraction) :
    (extractFields input tree (e :: es)).value =
      match (e.store tree (e.extract input).value).value with
      | .ok tree' => (extractFields input tree' es).value
      | .error error => .error error := by
  rw [extractFields, Trace.value_bind, Trace.value_bind]
  cases (e.store tree (e.extract input).value).value with
  | ok tree' => rfl
  | error error => rfl

theorem warnings_extractFields_cons {e : Extraction} {tree' : Record Float}
    (hstore : (e.store tree (e.extract input).value).value = .ok tree') (es : List Extraction) :
    (extractFields input tree (e :: es)).trace.warnings =
      (e.extract input).trace.warnings ++
        ((e.store tree (e.extract input).value).trace.warnings ++
          (extractFields input tree' es).trace.warnings) := by
  rw [extractFields, Trace.warnings_bind, Trace.warnings_bind, hstore]

/-! ### Calculations -/

/-- A calculation whose path is one leaves the tree as it is or writes a number there. -/
theorem Calculation.value_run (tree : Record Float) {c : Calculation} {path : Path}
    (hpath : Path.parse c.fieldPath = .ok path) :
    (c.run tree).value = .ok tree ∨
      ∃ x : Float, (c.run tree).value = .ok (Record.write tree path (.one (.num x))).1 := by
  unfold Calculation.run
  split
  · exact .inl rfl
  · rename_i formula hformula
    simp only [Trace.value_bind]
    split
    · simp only [hpath]
      exact .inr ⟨_, rfl⟩
    · exact .inl rfl

theorem value_runCalculations_cons (c : Calculation) (cs : List Calculation) :
    (runCalculations tree (c :: cs)).value =
      match (c.run tree).value with
      | .ok tree' => (runCalculations tree' cs).value
      | .error error => .error error := by
  rw [runCalculations, Trace.value_bind]
  cases (c.run tree).value with
  | ok tree' => rfl
  | error error => rfl

theorem Processor.value_fill (p : Processor) :
    (p.fill input).value =
      match (extractFields input [] p.extractions).value with
      | .ok tree => (runCalculations tree p.calculations).value
      | .error error => .error error := by
  rw [Processor.fill, Trace.value_bind]
  cases (extractFields input [] p.extractions).value with
  | ok tree => rfl
  | error error => rfl

/-! ### Runs -/

/-- What the fields of a run are extracted from, once its anchors are found. -/
def Processor.inputFor (p : Processor) (l : Layout Float) (s : Settings Float)
    (anchors : FoundAnchors Float) : ExtractionInput :=
  ⟨l, p, anchors, (findRegions l anchors p.regions).value, s⟩

theorem Processor.value_gather (p : Processor) (l : Layout Float) (s : Settings Float)
    (anchors : FoundAnchors Float) :
    (p.gather l s anchors).value =
      match (p.fill (p.inputFor l s anchors)).value with
      | .ok tree => .ok ((p.inputFor l s anchors).regions, tree.toMembers)
      | .error error => .error error := by
  rw [Processor.gather, Trace.value_bind, Trace.value_bind]
  -- The regions that are found here are those of `inputFor`.
  show (match (p.fill (p.inputFor l s anchors)).value with
    | .ok tree => _
    | .error error => _ : Traced _).value = _
  cases (p.fill (p.inputFor l s anchors)).value with
  | ok tree => rfl
  | error error => rfl

/-- The result of a run that found anchors and filled a tree. -/
def Processor.resultFor (p : Processor) (l : Layout Float) (s : Settings Float)
    (anchors : FoundAnchors Float) (tree : Record Float) : Execution :=
  let report := (validate tree.toMembers p.validations).value
  let warnings := (p.collect l s).trace.warnings
  ⟨p.id, tree.toMembers, report, anchors.map fun m => (m.1, m.2.id),
    (p.inputFor l s anchors).regions.map fun m => (m.1, m.2.length), warnings,
    .of report warnings⟩

theorem Processor.value_collect (p : Processor) (l : Layout Float) (s : Settings Float) :
    (p.collect l s).value =
      match (findAnchors l s p.anchors).value with
      | .error error => .error (.missingAnchor error)
      | .ok anchors =>
        match (p.fill (p.inputFor l s anchors)).value with
        | .error error => .error (.invalidPath error)
        | .ok tree => .ok (anchors, (p.inputFor l s anchors).regions, tree.toMembers) := by
  rw [Processor.collect, Trace.value_bind, Trace.value_bind]
  cases (findAnchors l s p.anchors).value with
  | error error => rfl
  | ok anchors =>
    simp only [Trace.value_bind, Processor.value_gather]
    cases (p.fill (p.inputFor l s anchors)).value with
    | error error => rfl
    | ok tree => rfl

/-- The warnings of a run that finds its anchors are those of its parts, in order. -/
theorem Processor.warnings_collect {p : Processor} {l : Layout Float} {s : Settings Float}
    {anchors : FoundAnchors Float} (hanchors : (findAnchors l s p.anchors).value = .ok anchors) :
    (p.collect l s).trace.warnings =
      (findAnchors l s p.anchors).trace.warnings ++
        ((findRegions l anchors p.regions).trace.warnings ++
          (p.fill (p.inputFor l s anchors)).trace.warnings) := by
  have hgather : (p.gather l s anchors).trace.warnings =
      (findRegions l anchors p.regions).trace.warnings ++
        (p.fill (p.inputFor l s anchors)).trace.warnings := by
    rw [Processor.gather, Trace.warnings_bind, Trace.warnings_bind]
    refine congrArg ((findRegions l anchors p.regions).trace.warnings ++ ·) ?_
    split
    · exact List.append_nil _
    · exact List.append_nil _
  rw [Processor.collect, Trace.warnings_bind, Trace.warnings_bind, hanchors, ← hgather]
  refine congrArg ((findAnchors l s p.anchors).trace.warnings ++ ·) ?_
  simp only [Trace.warnings_bind]
  split
  · exact List.append_nil _
  · exact List.append_nil _

/-- The outcome of a run is that of its parts. -/
theorem value_execute (s : Settings Float) (l : Layout Float) (p : Processor) :
    (execute s l p).value =
      match (findAnchors l s p.anchors).value with
      | .error error => .error (.missingAnchor error)
      | .ok anchors =>
        match (p.fill (p.inputFor l s anchors)).value with
        | .error error => .error (.invalidPath error)
        | .ok tree => .ok (p.resultFor l s anchors tree) := by
  rw [execute, Trace.value_bind, Processor.value_collect]
  cases (findAnchors l s p.anchors).value with
  | error error => rfl
  | ok anchors =>
    simp only
    cases (p.fill (p.inputFor l s anchors)).value with
    | error error => rfl
    | ok tree => rfl

/-- A run with a result found its anchors and filled the tree of its data. -/
theorem exists_of_execute_eq_ok {s : Settings Float} {l : Layout Float} {p : Processor}
    {result : Execution} (h : (execute s l p).value = .ok result) :
    ∃ anchors tree, (findAnchors l s p.anchors).value = .ok anchors ∧
      (p.fill (p.inputFor l s anchors)).value = .ok tree ∧
      result = p.resultFor l s anchors tree := by
  rw [value_execute] at h
  cases hanchors : (findAnchors l s p.anchors).value with
  | error error =>
    rw [hanchors] at h
    cases h
  | ok anchors =>
    cases htree : (p.fill (p.inputFor l s anchors)).value with
    | error error =>
      rw [hanchors] at h
      simp only [htree] at h
      cases h
    | ok tree =>
      rw [hanchors] at h
      simp only [htree] at h
      cases h
      exact ⟨anchors, tree, rfl, htree, rfl⟩

end PageExtract
