/-
What JSON makes of the data of a run.

A calculation writes its number only if it is finite, but a field writes whatever its transform
reads from a text, and a text can spell a number beyond the range of doubles. So the data of a run
is read from its JSON text, except that such numbers are null there, and no warning says so:

* `Transform.reads?`, `Extraction.Reads` — the numbers that a field reads from texts;
* `Extraction.items_raw`, `Extraction.reads_of_mem_items` — there are no others in what it extracts;
* `runSteps_induct` — what each step of a run keeps;
* `Processor.tidy_fill` — the tree of a run, and the numbers in it;
* `execute_json` — what is read from the text of its data;
* `execute_loses_total` — a total that is null in JSON, in a result that is good.
-/
import PageExtract.Proofs.Execution.Stored
import PageExtract.Proofs.Record.Tidy

namespace PageExtract

/-! ### Numbers that are read from texts -/

/-- The number that a transform reads from a text, if the text spells one for it. -/
def Transform.reads? : Transform → String → Option Float
  | toInt, s =>
    let cs := Text.trimChars s.toList
    if Numeral.isSignedInteger cs then some (Numeral.toFloat cs) else none
  | toFloat, s => numberOf? s
  | _, _ => none

/-- What is a number after a transform was zero or was read from the text. -/
theorem Transform.eq_zero_or_reads {t : Transform} {s : String} {x : Float}
    (h : t.scalar (.str s) = .num x) : x = 0.0 ∨ t.reads? s = some x := by
  cases t with
  | toInt =>
    have hx : intOf s = x := Scalar.num.inj h
    unfold intOf at hx
    unfold reads?
    simp only at hx ⊢
    split at hx
    · exact .inr (by rw [if_pos ‹_›, hx])
    · exact .inl hx.symm
  | toFloat =>
    have hx : (numberOf? s).getD 0.0 = x := Scalar.num.inj h
    show x = 0.0 ∨ numberOf? s = some x
    cases hs : numberOf? s with
    | none =>
      rw [hs] at hx
      exact .inl hx.symm
    | some y =>
      rw [hs] at hx
      exact .inr (congrArg some hx)
  | strip => cases h
  | upper => cases h
  | lower => cases h
  | lastNameOnly =>
    unfold scalar at h
    simp only at h
    split at h
    · cases h
    · cases h

namespace Extraction

variable {e : Extraction} {input : ExtractionInput} {value : Extracted Float}

/-- A number that the transform of a field reads from a text which the field finds. -/
def Reads (e : Extraction) (input : ExtractionInput) (x : Float) : Prop :=
  ∃ t value s, e.transform = some t ∧ (e.raw input).value = some value ∧
    .str s ∈ value.items ∧ t.reads? s = some x

theorem items_rowsOrFirst {fieldPath : String} {texts : List String}
    (h : rowsOrFirst fieldPath texts = some value) :
    ∃ ss : List String, value.items = ss.map .str := by
  unfold rowsOrFirst at h
  split at h
  · cases h
    exact ⟨texts, rfl⟩
  · obtain ⟨s, -, rfl⟩ := Option.map_eq_some_iff.1 h
    exact ⟨[s], rfl⟩

theorem items_fromAnchor {anchor : String} {take : Block Float → Option String}
    (h : fromAnchor input anchor take = some value) :
    ∃ ss : List String, value.items = ss.map .str := by
  obtain ⟨s, -, rfl⟩ := Option.map_eq_some_iff.1 h
  exact ⟨[s], rfl⟩

theorem items_column {region : String} {blocks : List (Block Float)} {declared : Nat}
    (h : (e.column input region blocks declared).value = some value) :
    ∃ ss : List String, value.items = ss.map .str := by
  unfold column at h
  simp only [Trace.value_bind] at h
  split at h
  · exact items_rowsOrFirst h
  · cases h

theorem items_ofSource {source : Source} (h : (e.ofSource input source).value = some value) :
    ∃ ss : List String, value.items = ss.map .str := by
  unfold ofSource at h
  split at h
  · cases h
    exact ⟨[_], rfl⟩
  · exact items_fromAnchor h
  · exact items_fromAnchor h
  · exact items_fromAnchor h
  · split at h
    · cases h
    · cases h
      exact ⟨[_], rfl⟩
  · split at h
    · cases h
    · exact items_rowsOrFirst h
  · split at h
    · cases h
    · exact items_column h

/-- What a field finds before its transform is text. -/
theorem items_raw (h : (e.raw input).value = some value) :
    ∃ ss : List String, value.items = ss.map .str := by
  unfold raw at h
  split at h
  · exact items_ofSource h
  · cases h

theorem items_apply (t : Transform) (value : Extracted Float) :
    (t.apply value).items = value.items.map t.scalar := by
  cases value <;> rfl

/-- A number in what a field extracts is zero or was read from a text. -/
theorem reads_of_mem_items (h : (e.extract input).value = some value) {x : Float}
    (hx : .num x ∈ value.items) : x = 0.0 ∨ e.Reads input x := by
  obtain ⟨found, hfound, rfl⟩ := Option.map_eq_some_iff.1 h
  obtain ⟨ss, hss⟩ := items_raw hfound
  unfold transformed at hx
  cases ht : e.transform with
  | none =>
    rw [ht, hss] at hx
    obtain ⟨s, -, hs⟩ := List.mem_map.1 hx
    cases hs
  | some t =>
    simp only [ht, items_apply, hss, List.map_map] at hx
    obtain ⟨s, hs, hnum⟩ := List.mem_map.1 hx
    have hmem : .str s ∈ found.items := hss ▸ List.mem_map_of_mem hs
    exact (Transform.eq_zero_or_reads hnum).imp_right fun hread =>
      ⟨t, found, s, ht, hfound, hmem, hread⟩

end Extraction

/-! ### The tree of a run -/

/-- What holds of a tree and is kept by every step holds of the tree that the steps leave. -/
theorem runSteps_induct {σ : Type}
    {step : Record Float → σ → Traced (Except PathError (Record Float))} {P : Record Float → Prop}
    {xs : List σ}
    (hstep : ∀ x ∈ xs, ∀ tree tree', P tree → (step tree x).value = .ok tree' → P tree')
    {start tree : Record Float} (hstart : P start)
    (h : (runSteps step start xs).value = .ok tree) : P tree := by
  induction xs generalizing start with
  | nil =>
    cases h
    exact hstart
  | cons x xs ih =>
    rw [runSteps, Trace.value_bind] at h
    cases hx : (step start x).value with
    | error error =>
      rw [hx] at h
      cases h
    | ok next =>
      rw [hx] at h
      exact ih (fun y hy => hstep y (List.mem_cons_of_mem x hy))
        (hstep x List.mem_cons_self start next hstart hx) h

/-- Whether a scalar, if it is a number, is finite or was read by one of some fields. -/
def FiniteOrRead (input : ExtractionInput) (es : List Extraction) (v : Scalar Float) : Prop :=
  ∀ x, v = .num x → Numeric.isFinite x = false → ∃ e ∈ es, e.Reads input x

section

variable {input : ExtractionInput} {es : List Extraction} {tree tree' : Record Float}

theorem tidy_step {e : Extraction} (he : e ∈ es) (htree : tree.Tidy (FiniteOrRead input es))
    (h : (e.step input tree).value = .ok tree') : tree'.Tidy (FiniteOrRead input es) := by
  rw [Extraction.step, Trace.value_bind] at h
  cases hvalue : (e.extract input).value with
  | none =>
    rw [hvalue] at h
    cases h
    exact htree
  | some value =>
    rw [hvalue, Extraction.store] at h
    cases hpath : Path.parse e.fieldPath with
    | error error =>
      rw [hpath] at h
      cases h
    | ok path =>
      rw [hpath] at h
      cases h
      refine Record.tidy_write (Path.isName_of_parse hpath) (fun v hv x hx hinfinite => ?_) htree
      obtain rfl | hread := Extraction.reads_of_mem_items hvalue (hx ▸ hv)
      · cases hinfinite
      · exact ⟨e, he, hread⟩

theorem tidy_run {c : Calculation} (htree : tree.Tidy (FiniteOrRead input es))
    (h : (c.run tree).value = .ok tree') : tree'.Tidy (FiniteOrRead input es) := by
  unfold Calculation.run at h
  split at h
  · cases h
    exact htree
  · simp only [Trace.value_bind] at h
    split at h
    · rename_i hfinite
      split at h
      · cases h
        refine Record.tidy_write (Path.isName_of_parse ‹_›) (fun v hv x hx hinfinite => ?_) htree
        obtain rfl := List.mem_singleton.1 hv
        obtain rfl := Scalar.num.inj hx
        rw [hfinite] at hinfinite
        cases hinfinite
      · cases h
    · cases h
      exact htree

/-- The records of a run have distinct names, and only numbers that fields read may be infinite. -/
theorem Processor.tidy_fill {p : Processor} (h : (p.fill input).value = .ok tree) :
    tree.Tidy (FiniteOrRead input p.extractions) := by
  rw [value_fill, extractFields_eq_runSteps] at h
  cases hfilled : (runSteps (fun tree e => e.step input tree) [] p.extractions).value with
  | error error =>
    rw [hfilled] at h
    cases h
  | ok filled =>
    simp only [hfilled, runCalculations_eq_runSteps] at h
    have hfields := runSteps_induct (fun e he _ _ => tidy_step he) Record.tidy_empty hfilled
    exact runSteps_induct (fun _ _ _ _ => tidy_run) hfields h

end

/-! ### The data of a run -/

/-- What JSON makes of the data of a run is a value that data can have. -/
theorem isPlain_reread_data {s : Settings Float} {l : Layout Float} {p : Processor}
    {result : Execution} (hrun : (execute s l p).value = .ok result) :
    (Value.map result.data).reread.IsPlain := by
  obtain ⟨found, tree, -, hfill, rfl⟩ := exists_of_execute_eq_ok hrun
  exact (Processor.tidy_fill hfill).isPlain_reread

/-- The data of a run is read from its JSON text with null for each number that is not finite, so it
is read unchanged exactly if all its numbers are finite. A number that is not finite was read by a
field from a text. -/
theorem execute_json {s : Settings Float} {l : Layout Float} {p : Processor} {result : Execution}
    (hrun : (execute s l p).value = .ok result) :
    Value.parse? (Value.map result.data).compact = some (Value.map result.data).reread ∧
    (Value.parse? (Value.map result.data).compact = some (Value.map result.data).settled ↔
      ∀ x ∈ (Value.map result.data).numbers, Numeric.isFinite x = true) ∧
    ∃ found, (findAnchors l s p.anchors).value = .ok found ∧
      ∀ x ∈ (Value.map result.data).numbers, Numeric.isFinite x = false →
        ∃ e ∈ p.extractions, e.Reads (p.inputFor l s found) x := by
  have hplain := isPlain_reread_data hrun
  refine ⟨Value.parse_compact_eq_reread hplain, Value.parse_compact_eq_settled_iff hplain, ?_⟩
  obtain ⟨found, tree, hfound, hfill, rfl⟩ := exists_of_execute_eq_ok hrun
  exact ⟨found, hfound, fun x hx => (Processor.tidy_fill hfill).good_of_mem_numbers hx x rfl⟩

/-- A processor for invoices that reads their total as a number. -/
def numericSpec : Value Float :=
  .map [("id", .str "invoice"), ("name", .str "Invoice"),
    ("anchors", .list [.map [("name", .str "total"), ("patterns", .list [.str "Total"])]]),
    ("extraction_ops", .list [.map [("field_path", .str "total"),
      ("source", .str "anchor.total.next"), ("transform", .str "to_float")]])]

/-- The processor that `numericSpec` holds. -/
def numeric : Processor :=
  { invoice with
    extractions := [⟨"total", "anchor.total.next", some .toFloat⟩]
    calculations := [] }

/-- A page with a total beyond the range of doubles. -/
def hugePage : Layout Float :=
  onePage [totalBlock, ⟨"b2", "1e999", ⟨0.3, 0.8, 0.4, 0.82, 1.0⟩, 99.0, none, false, .text⟩]

/-- On that page the field reads the number from the text of the block. -/
theorem execute_json_hugePage :
    ∃ result found x, (execute .standard hugePage numeric).value = .ok result ∧
      (findAnchors hugePage .standard numeric.anchors).value = .ok found ∧
      x ∈ (Value.map result.data).numbers ∧ Numeric.isFinite x = false ∧
      ∃ e ∈ numeric.extractions, e.Reads (numeric.inputFor hugePage .standard found) x := by
  have hresult : ((execute .standard hugePage numeric).value.toOption.any fun result =>
      ∃ x ∈ (Value.map result.data).numbers, Numeric.isFinite x = false) = true := by
    decide +kernel
  cases hrun : (execute .standard hugePage numeric).value with
  | error error =>
    rw [hrun] at hresult
    cases hresult
  | ok result =>
    rw [hrun] at hresult
    obtain ⟨x, hx, hinfinite⟩ := of_decide_eq_true hresult
    obtain ⟨-, -, found, hfound, hreads⟩ := execute_json hrun
    exact ⟨result, found, x, rfl, hfound, hx, hinfinite, hreads x hx hinfinite⟩

/-- The data of that page is not what is read from its JSON text, and the result is good and has no
warnings. -/
theorem execute_loses_total :
    Processor.ofInput "" (some numericSpec) = .ok numeric ∧
    ∃ result, (execute .standard hugePage numeric).value = .ok result ∧
      result.status = .ok ∧ result.warnings = [] ∧
      (∃ x ∈ (Value.map result.data).numbers, Numeric.isFinite x = false) ∧
      Value.parse? (Value.map result.data).compact ≠ some (Value.map result.data).settled := by
  have hresult : ((execute .standard hugePage numeric).value.toOption.any fun result =>
      result.status = .ok ∧ result.warnings = [] ∧
        ∃ x ∈ (Value.map result.data).numbers, Numeric.isFinite x = false) = true := by
    decide +kernel
  refine ⟨rfl, ?_⟩
  cases hrun : (execute .standard hugePage numeric).value with
  | error error =>
    rw [hrun] at hresult
    cases hresult
  | ok result =>
    rw [hrun] at hresult
    obtain ⟨hstatus, hwarnings, hinfinite⟩ := of_decide_eq_true hresult
    refine ⟨result, rfl, hstatus, hwarnings, hinfinite, fun hsame => ?_⟩
    obtain ⟨x, hx, hinfinite⟩ := hinfinite
    have hfinite := (Value.parse_compact_eq_settled_iff (isPlain_reread_data hrun)).1 hsame x hx
    rw [hinfinite] at hfinite
    cases hfinite

end PageExtract
