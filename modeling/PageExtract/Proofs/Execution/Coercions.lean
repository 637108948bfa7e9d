/-
Texts that are no numbers.

A field with a transform to a number writes zero where its source has a text that spells no number
of the kind. Nothing is said of it: what a run says up to its calculations does not depend on the
transforms at all, because a write reports names, shapes and lengths, and a transform changes the
scalars only. So the runs of a processor with any two choices of transforms can be followed side by
side, on trees of the same shape:

* `Transform.Misreads`, `Extraction.Misreads` — a text that a transform to a number cannot read;
* `Processor.withTransforms` — the same processor with other transforms;
* `InStep` — two steps that leave trees of the same shape and say the same;
* `Extraction.inStep_step`, `inStep_runSteps` — fields with other transforms, one and all of them;
* `Processor.filter_warnings_withTransforms` — the warnings of a run with other transforms;
* `execute_coerced` — what a run makes of a text that is no number;
* `execute_coerces_total` — a total that is zero, in a result that is good.
-/
import PageExtract.Proofs.Execution.Json
import PageExtract.Proofs.Execution.Warnings
import PageExtract.Proofs.Record.Shapes

namespace PageExtract

/-! ### Texts and transforms -/

/-- Whether a transform asks for a number, and a text spells none of its kind. -/
def Transform.Misreads (t : Transform) (text : String) : Prop :=
  (t = .toInt ∨ t = .toFloat) ∧ t.reads? text = none

instance (t : Transform) (text : String) : Decidable (t.Misreads text) :=
  inferInstanceAs (Decidable (_ ∧ _))

/-- Such a text becomes zero. -/
theorem Transform.Misreads.scalar_eq {t : Transform} {text : String} (h : t.Misreads text) :
    t.scalar (.str text) = .num 0.0 := by
  obtain ⟨rfl | rfl, hreads⟩ := h
  · have hform : ¬ Numeral.isSignedInteger (Text.trimChars text.toList) = true := by
      intro hform
      simp [reads?, hform] at hreads
    show Scalar.num (intOf text) = _
    rw [intOf, if_neg hform]
  · have hnone : numberOf? text = none := hreads
    show Scalar.num ((numberOf? text).getD 0.0) = _
    rw [hnone]
    rfl

theorem Extracted.sameShape_apply (t : Transform) (value : Extracted Float) :
    (t.apply value).SameShape value := by
  cases value with
  | one v => rfl
  | many vs => exact congrArg Extracted.many List.map_map

theorem Extraction.sameShape_transformed (e : Extraction) (value : Extracted Float) :
    (e.transformed value).SameShape value := by
  unfold transformed
  split
  · exact Extracted.sameShape_apply _ value
  · rfl

/-- Whether a field finds a text at a position, counted from 0, that its transform to a number cannot
read. -/
def Extraction.Misreads (e : Extraction) (input : ExtractionInput) (i : Nat) (text : String) : Prop :=
  ∃ t value, e.transform = some t ∧ (e.raw input).value = some value ∧
    value.items[i]? = some (.str text) ∧ t.Misreads text

/-- Then it extracts zero for the text. -/
theorem Extraction.Misreads.exists_zero {e : Extraction} {input : ExtractionInput} {i : Nat}
    {text : String} (h : e.Misreads input i text) :
    ∃ value, (e.extract input).value = some value ∧ value.items[i]? = some (.num 0.0) := by
  obtain ⟨t, value, ht, hraw, htext, hmisreads⟩ := h
  have hextract : (e.extract input).value = some (t.apply value) := by
    show (e.raw input).value.map e.transformed = _
    rw [hraw, Option.map_some, transformed, ht]
  refine ⟨t.apply value, hextract, ?_⟩
  rw [items_apply, List.getElem?_map, htext, Option.map_some, hmisreads.scalar_eq]

/-! ### Other transforms -/

/-- The same field with another transform, or with none. -/
def Extraction.withTransform (e : Extraction) (t : Option Transform) : Extraction :=
  { e with transform := t }

/-- The same processor with other transforms. -/
def Processor.withTransforms (p : Processor) (f : Extraction → Option Transform) : Processor :=
  { p with extractions := p.extractions.map fun e => e.withTransform (f e) }

theorem Processor.fieldPaths_withTransforms (p : Processor) (f : Extraction → Option Transform) :
    (p.withTransforms f).fieldPaths = p.fieldPaths := by
  have hpaths : (p.withTransforms f).extractions.map (·.fieldPath) =
      p.extractions.map (·.fieldPath) := List.map_map
  rw [fieldPaths, hpaths]
  rfl

/-- Two steps that end in trees of the same shape, and leave the same trace. -/
def InStep (x x' : Traced (Except PathError (Record Float))) : Prop :=
  ∃ tree tree', x.value = .ok tree ∧ x'.value = .ok tree' ∧ tree.SameShape tree' ∧
    x.trace = x'.trace

/-- What comes before two steps may differ in its value, as long as it leaves the same trace. -/
theorem InStep.bind {α β : Type} {x : Traced α} {x' : Traced β}
    {g : α → Traced (Except PathError (Record Float))}
    {g' : β → Traced (Except PathError (Record Float))} (htrace : x.trace = x'.trace)
    (h : InStep (g x.value) (g' x'.value)) : InStep (x >>= g) (x' >>= g') := by
  obtain ⟨tree, tree', hvalue, hvalue', hshape, hsame⟩ := h
  refine ⟨tree, tree', hvalue, hvalue', hshape, ?_⟩
  show x.trace ++ (g x.value).trace = x'.trace ++ (g' x'.value).trace
  rw [htrace, hsame]

namespace Extraction

variable {e : Extraction} {p : Processor} {l : Layout Float} {s : Settings Float}
  {found : FoundAnchors Float} {f : Extraction → Option Transform}

/-- What a field finds before its transform depends on no transform. -/
theorem raw_withTransform (e : Extraction) (p : Processor) (l : Layout Float) (s : Settings Float)
    (found : FoundAnchors Float) (f : Extraction → Option Transform) (t : Option Transform) :
    (e.withTransform t).raw ((p.withTransforms f).inputFor l s found) =
      e.raw (p.inputFor l s found) := by
  have hsource : ∀ source,
      (e.withTransform t).ofSource ((p.withTransforms f).inputFor l s found) source =
        e.ofSource (p.inputFor l s found) source := by
    intro source
    cases source <;> rfl
  have hsame : (e.withTransform t).source = e.source := rfl
  rw [raw, raw, hsame]
  cases Source.parse? e.source with
  | some source => exact hsource source
  | none => rfl

/-- Fields write values of the same shape at the same path in step. -/
theorem inStep_store {tree tree' : Record Float} (htree : tree.SameShape tree') {path : Path}
    (hpath : Path.parse e.fieldPath = .ok path) (t : Option Transform) {value value' : Extracted Float}
    (hvalue : value.SameShape value') :
    InStep (e.store tree (some value)) ((e.withTransform t).store tree' (some value')) := by
  obtain ⟨hshape, houtcome⟩ := Record.sameShape_write htree hvalue path
  refine ⟨_, _, e.value_store hpath _, (e.withTransform t).value_store hpath _, hshape, ?_⟩
  have hpath' : Path.parse (e.withTransform t).fieldPath = .ok path := hpath
  simp only [store, hpath, hpath', houtcome]
  rfl

/-- A field with another transform, on a tree of the same shape. -/
theorem inStep_step {tree tree' : Record Float} (htree : tree.SameShape tree') {path : Path}
    (hpath : Path.parse e.fieldPath = .ok path) (t : Option Transform) :
    InStep (e.step (p.inputFor l s found) tree)
      ((e.withTransform t).step ((p.withTransforms f).inputFor l s found) tree') := by
  have hraw := e.raw_withTransform p l s found f t
  have htrace : (e.extract (p.inputFor l s found)).trace =
      ((e.withTransform t).extract ((p.withTransforms f).inputFor l s found)).trace := by
    rw [extract, extract, hraw]
    rfl
  refine InStep.bind htrace ?_
  show InStep (e.store tree ((e.raw _).value.map e.transformed))
    ((e.withTransform t).store tree'
      (((e.withTransform t).raw _).value.map (e.withTransform t).transformed))
  rw [hraw]
  cases (e.raw (p.inputFor l s found)).value with
  | none => exact ⟨tree, tree', rfl, rfl, htree, rfl⟩
  | some value =>
    refine inStep_store htree hpath t ?_
    exact (e.sameShape_transformed value).trans ((e.withTransform t).sameShape_transformed value).symm

end Extraction

/-- Steps that are in step on trees of the same shape stay so, one after the other. -/
theorem inStep_runSteps {σ : Type}
    {step step' : Record Float → σ → Traced (Except PathError (Record Float))} {xs : List σ}
    (hstep : ∀ x ∈ xs, ∀ tree tree', tree.SameShape tree' → InStep (step tree x) (step' tree' x))
    {start start' : Record Float} (hstart : start.SameShape start') :
    InStep (runSteps step start xs) (runSteps step' start' xs) := by
  induction xs generalizing start start' with
  | nil => exact ⟨start, start', rfl, rfl, hstart, rfl⟩
  | cons x xs ih =>
    obtain ⟨tree, tree', hvalue, hvalue', hshape, htrace⟩ :=
      hstep x List.mem_cons_self start start' hstart
    refine InStep.bind htrace ?_
    rw [hvalue, hvalue']
    exact ih (fun y hy => hstep y (List.mem_cons_of_mem x hy)) hshape

theorem runSteps_map {σ τ : Type}
    (step : Record Float → σ → Traced (Except PathError (Record Float))) (g : τ → σ)
    (start : Record Float) (xs : List τ) :
    runSteps step start (xs.map g) = runSteps (fun tree x => step tree (g x)) start xs := by
  induction xs generalizing start with
  | nil => rfl
  | cons x xs ih =>
    rw [List.map_cons, runSteps, runSteps]
    refine congrArg (_ >>= ·) (funext fun outcome => ?_)
    cases outcome with
    | ok tree => exact ih tree
    | error error => rfl

/-! ### Runs with other transforms -/

instance (c : Char) (w : String) : Decidable (Begins c w) :=
  inferInstanceAs (Decidable (_ = _))

section

variable {now : String} {v : Option (Value Float)} {p : Processor} {l : Layout Float}
  {s : Settings Float} {found : FoundAnchors Float}

theorem Processor.exists_path_of_mem_extractions (hp : Processor.ofInput now v = .ok p) :
    ∀ e ∈ p.extractions, ∃ path, Path.parse e.fieldPath = .ok path := by
  intro e he
  exact Processor.exists_path_of_ofInput hp (List.mem_append_left _ (List.mem_map_of_mem he))

/-- The fields of a processor that was read are extracted in step with those of the same processor
with other transforms. -/
theorem Processor.inStep_extractFields (hp : Processor.ofInput now v = .ok p) (l : Layout Float)
    (s : Settings Float) (found : FoundAnchors Float) (f : Extraction → Option Transform) :
    InStep (extractFields (p.inputFor l s found) [] p.extractions)
      (extractFields ((p.withTransforms f).inputFor l s found) []
        (p.withTransforms f).extractions) := by
  rw [extractFields_eq_runSteps, extractFields_eq_runSteps]
  show InStep _ (runSteps _ [] (p.extractions.map fun e => e.withTransform (f e)))
  rw [runSteps_map]
  refine inStep_runSteps (fun e he tree tree' htree => ?_) rfl
  obtain ⟨path, hpath⟩ := Processor.exists_path_of_mem_extractions hp e he
  exact e.inStep_step htree hpath (f e)

/-- The warnings of a filled tree that are not about calculations are those of its fields. -/
theorem Processor.filter_warnings_fill {input : ExtractionInput} {tree : Record Float}
    (hfields : (extractFields input [] p.extractions).value = .ok tree) :
    (p.fill input).trace.warnings.filter (fun w => ¬ Begins 'C' w) =
      (extractFields input [] p.extractions).trace.warnings.filter (fun w => ¬ Begins 'C' w) := by
  have hcalculations : (runCalculations tree p.calculations).trace.warnings.filter
      (fun w => ¬ Begins 'C' w) = [] := by
    refine List.filter_eq_nil_iff.2 fun w hw => ?_
    simpa using warns_runCalculations tree p.calculations w hw
  rw [Processor.fill, Trace.warnings_bind, hfields, List.filter_append, hcalculations,
    List.append_nil]

/-- Other transforms change no warnings of a run but those about calculations. -/
theorem Processor.filter_warnings_withTransforms (hp : Processor.ofInput now v = .ok p)
    (hfound : (findAnchors l s p.anchors).value = .ok found) (f : Extraction → Option Transform) :
    ((p.withTransforms f).collect l s).trace.warnings.filter (fun w => ¬ Begins 'C' w) =
      (p.collect l s).trace.warnings.filter (fun w => ¬ Begins 'C' w) := by
  have hfound' : (findAnchors l s (p.withTransforms f).anchors).value = .ok found := hfound
  obtain ⟨tree, tree', hvalue, hvalue', -, htrace⟩ :=
    Processor.inStep_extractFields hp l s found f
  rw [Processor.warnings_collect hfound, Processor.warnings_collect hfound']
  simp only [List.filter_append, Processor.filter_warnings_fill hvalue,
    Processor.filter_warnings_fill hvalue', htrace]
  rfl

/-- What a field says, on the tree that the fields before it leave, is among the warnings of the
run. -/
theorem Processor.infix_warnings_step (hp : Processor.ofInput now v = .ok p)
    (hfound : (findAnchors l s p.anchors).value = .ok found) {done rest : List Extraction}
    {e : Extraction} (hcut : p.extractions = done ++ e :: rest) :
    ∃ tree path, (extractFields (p.inputFor l s found) [] done).value = .ok tree ∧
      Path.parse e.fieldPath = .ok path ∧
      (e.step (p.inputFor l s found) tree).trace.warnings <:+: (p.collect l s).trace.warnings := by
  have hpaths := Processor.exists_path_of_mem_extractions hp
  obtain ⟨path, hpath⟩ := hpaths e (hcut ▸ List.mem_append_right done List.mem_cons_self)
  obtain ⟨tree, htree⟩ := exists_extractFields (p.inputFor l s found)
    (fun e' he' => hpaths e' (hcut ▸ List.mem_append_left _ he')) []
  refine ⟨tree, path, htree, hpath, ?_⟩
  have hstep : (e.step (p.inputFor l s found) tree).trace.warnings <:+:
      (extractFields (p.inputFor l s found) [] p.extractions).trace.warnings := by
    rw [extractFields_eq_runSteps] at htree ⊢
    rw [hcut]
    exact infix_warnings_runSteps htree
  exact hstep.trans ((p.infix_warnings_fields _).trans (Processor.infix_warnings_collect hfound))

/-- In a run with a result on a processor that was read, a text that the transform of a field to a
number cannot read is extracted as zero, and the field gives a warning only if the write does not
fit the tree that the fields before it leave. With any other transforms, or with none, the run has a
result too, and its warnings are the same but for those about calculations. -/
theorem execute_coerced (hp : Processor.ofInput now v = .ok p) {result : Execution}
    (hrun : (execute s l p).value = .ok result) :
    ∃ found, (findAnchors l s p.anchors).value = .ok found ∧
      (∀ done e rest i text, p.extractions = done ++ e :: rest →
        e.Misreads (p.inputFor l s found) i text → ∃ tree path value,
          (extractFields (p.inputFor l s found) [] done).value = .ok tree ∧
          Path.parse e.fieldPath = .ok path ∧
          (e.extract (p.inputFor l s found)).value = some value ∧
          value.items[i]? = some (.num 0.0) ∧
          (e.step (p.inputFor l s found) tree).trace.warnings <:+: result.warnings ∧
          ((e.step (p.inputFor l s found) tree).trace.warnings ≠ [] ↔
            ¬ (Record.write tree path value).2.Fits)) ∧
      ∀ f, ∃ result', (execute s l (p.withTransforms f)).value = .ok result' ∧
        result'.warnings.filter (fun w => ¬ Begins 'C' w) =
          result.warnings.filter (fun w => ¬ Begins 'C' w) := by
  obtain ⟨found, tree, hfound, -, rfl⟩ := exists_of_execute_eq_ok hrun
  refine ⟨found, hfound, fun done e rest i text hcut hmisreads => ?_, fun f => ?_⟩
  · obtain ⟨before, path, hbefore, hpath, hinfix⟩ := Processor.infix_warnings_step hp hfound hcut
    obtain ⟨value, hvalue, hzero⟩ := hmisreads.exists_zero
    refine ⟨before, path, value, hbefore, hpath, hvalue, hzero, hinfix, not_congr ?_⟩
    have hextract : (e.extract (p.inputFor l s found)).Quiet := (e.quiet_extract hvalue).1
    have hstep : (e.step (p.inputFor l s found) before).Quiet ↔
        (e.store before (some value)).Quiet := by
      rw [Extraction.step, quiet_bind_of_quiet hextract, hvalue]
    exact hstep.trans (e.quiet_store hpath value)
  · have hfound' : (findAnchors l s (p.withTransforms f).anchors).value = .ok found := hfound
    obtain ⟨tree', htree'⟩ := (p.withTransforms f).exists_fill
      ((p.withTransforms f).inputFor l s found) fun path hpath =>
        Processor.exists_path_of_ofInput hp (p.fieldPaths_withTransforms f ▸ hpath)
    refine ⟨(p.withTransforms f).resultFor l s found tree', ?_,
      Processor.filter_warnings_withTransforms hp hfound f⟩
    rw [value_execute, hfound']
    simp only [htree']

end

/-- A page with a total that is no number. -/
def unreadPage : Layout Float :=
  onePage [totalBlock, ⟨"b2", "n/a", ⟨0.3, 0.8, 0.4, 0.82, 1.0⟩, 99.0, none, false, .text⟩]

/-- The only field of `numeric`. -/
def totalField : Extraction := ⟨"total", "anchor.total.next", some .toFloat⟩

/-- What the field is extracted from on that page. -/
def unreadInput : ExtractionInput :=
  numeric.inputFor unreadPage .standard [("total", totalBlock)]

theorem findAnchors_unreadPage :
    (findAnchors unreadPage .standard numeric.anchors).value = .ok [("total", totalBlock)] := by
  have hfound : (findAnchors unreadPage .standard numeric.anchors).value.toOption =
      some [("total", totalBlock)] := by
    decide +kernel
  cases h : (findAnchors unreadPage .standard numeric.anchors).value with
  | error error =>
    rw [h] at hfound
    cases hfound
  | ok found =>
    rw [h] at hfound
    cases hfound
    rfl

theorem misreads_totalField : totalField.Misreads unreadInput 0 "n/a" := by
  have hraw : (totalField.raw unreadInput).value = some (.one (.str "n/a")) := by decide +kernel
  exact ⟨.toFloat, _, rfl, hraw, rfl, by decide⟩

/-- On that page the total is zero, and no other transform of the field would give other warnings. -/
theorem execute_coerced_unread :
    ∃ result, (execute .standard unreadPage numeric).value = .ok result ∧
      (∃ value, (totalField.extract unreadInput).value = some value ∧
        value.items[0]? = some (.num 0.0)) ∧
      ∃ result', (execute .standard unreadPage (numeric.withTransforms fun _ => none)).value =
          .ok result' ∧
        result'.warnings.filter (fun w => ¬ Begins 'C' w) =
          result.warnings.filter (fun w => ¬ Begins 'C' w) := by
  have hread : Processor.ofInput "" (some numericSpec) = .ok numeric := by rfl
  have hresult : (execute .standard unreadPage numeric).value.isOk = true := by decide +kernel
  cases hrun : (execute .standard unreadPage numeric).value with
  | error error =>
    rw [hrun] at hresult
    cases hresult
  | ok result =>
    obtain ⟨found, hfound, hfields, hother⟩ := execute_coerced hread hrun
    cases findAnchors_unreadPage.symm.trans hfound
    obtain ⟨-, -, value, -, -, hvalue, hzero, -⟩ :=
      hfields [] totalField [] 0 "n/a" rfl misreads_totalField
    exact ⟨result, rfl, ⟨value, hvalue, hzero⟩, hother fun _ => none⟩

/-- The text of the total on that page is no number, and the result is good, has no warnings and has
zero for the total. -/
theorem execute_coerces_total :
    Processor.ofInput "" (some numericSpec) = .ok numeric ∧
    totalField ∈ numeric.extractions ∧ totalField.Misreads unreadInput 0 "n/a" ∧
    ∃ result, (execute .standard unreadPage numeric).value = .ok result ∧
      result.status = .ok ∧ result.warnings = [] ∧ (Value.map result.data).numbers = [0.0] := by
  have hresult : ((execute .standard unreadPage numeric).value.toOption.any fun result =>
      result.status = .ok ∧ result.warnings = [] ∧
        (Value.map result.data).numbers = [0.0]) = true := by
    decide +kernel
  refine ⟨rfl, List.mem_singleton_self _, misreads_totalField, ?_⟩
  cases hrun : (execute .standard unreadPage numeric).value with
  | error error =>
    rw [hrun] at hresult
    cases hresult
  | ok result =>
    rw [hrun] at hresult
    exact ⟨result, rfl, of_decide_eq_true hresult⟩

end PageExtract
