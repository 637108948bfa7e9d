/-
The outcomes of a run.

A run on a checked processor has a result if every required anchor resolves, and else names the
first one that does not. Everything else that could go wrong was refused when the processor was
read, or ends in a warning or in the report:

* `Anchor.resolves`, `value_findAnchors` — which anchors resolve, and what the search for them says;
* `resolves_of_findAnchors` — a search that ends well misses no required anchor;
* `Processor.ofValue_eq_ok_iff` — which plain values hold a processor;
* `Processor.exists_path_of_ofInput` — the field paths of a processor that was read are paths;
* `Processor.nodup_anchors`, `Processor.nodup_regions` — its names are not repeated;
* `Processor.declared_start`, `Processor.declared_end` — its regions refer to declared anchors;
* `Processor.exists_fill` — fields and calculations with paths always end in a tree;
* `execute_outcome` — the outcomes of a run.
-/
import PageExtract.Processor.Reader
import PageExtract.Proofs.Execution.Steps
import PageExtract.Proofs.Expr.Names
import PageExtract.Proofs.Processor.Consistency

namespace PageExtract

/-! ### Anchors -/

section

variable (l : Layout Float) (s : Settings Float)

/-- Whether some pattern of an anchor leads to a block of a layout. -/
def Anchor.resolves (a : Anchor) : Bool :=
  a.patterns.any fun pattern => !(a.choose (a.candidates l s pattern).value).isEmpty

/-- The first of some anchors that is required and does not resolve. -/
def firstMissing (anchors : List Anchor) : Option Anchor :=
  anchors.find? fun a => a.required && !a.resolves l s

theorem Anchor.isSome_findBy? (a : Anchor) (patterns : List String) :
    (a.findBy? l s patterns).value.isSome =
      patterns.any fun pattern => !(a.choose (a.candidates l s pattern).value).isEmpty := by
  induction patterns with
  | nil => rfl
  | cons pattern patterns ih =>
    rw [Anchor.findBy?, Trace.value_bind, List.any_cons]
    cases a.choose (a.candidates l s pattern).value with
    | nil => exact ih
    | cons b bs => rfl

theorem Anchor.isSome_find? (a : Anchor) : (a.find? l s).value.isSome = a.resolves l s :=
  a.isSome_findBy? l s a.patterns

/-- One more anchor is missing if it is required and does not resolve, and only the first counts. -/
theorem AnchorSearch.missing_add (search : AnchorSearch) (a : Anchor) :
    (search.add a (a.find? l s).value).missing =
      (search.missing <|> if a.required && !a.resolves l s then some a.name else none) := by
  have hresolves := a.isSome_find? l s
  cases hfind : (a.find? l s).value with
  | some b =>
    rw [hfind] at hresolves
    simp [AnchorSearch.add, ← hresolves]
  | none =>
    rw [hfind] at hresolves
    cases hrequired : a.required with
    | true => simp [AnchorSearch.add, hrequired, ← hresolves]
    | false => simp [AnchorSearch.add, hrequired]

theorem missing_searchAnchors (search : AnchorSearch) (anchors : List Anchor) :
    (searchAnchors l s search anchors).value.missing =
      (search.missing <|> (firstMissing l s anchors).map (·.name)) := by
  induction anchors generalizing search with
  | nil => simp [searchAnchors, firstMissing]
  | cons a anchors ih =>
    have hstep : (searchAnchors l s search (a :: anchors)).value =
        (searchAnchors l s (search.add a (a.find? l s).value) anchors).value := rfl
    rw [hstep, ih, AnchorSearch.missing_add]
    unfold firstMissing
    rw [List.find?_cons]
    -- Once an anchor is missing, those after it do not matter.
    cases search.missing with
    | some name => rfl
    | none =>
      cases a.required && !a.resolves l s with
      | true => rfl
      | false => rfl

/-- The search for anchors ends with an error only for a required anchor that does not resolve, and
names the first one. -/
theorem value_findAnchors (anchors : List Anchor) :
    (findAnchors l s anchors).value =
      match firstMissing l s anchors with
      | some a => .error ⟨a.name⟩
      | none => .ok (searchAnchors l s ⟨[], none⟩ anchors).value.found := by
  have hmissing := missing_searchAnchors l s ⟨[], none⟩ anchors
  rw [findAnchors, Trace.value_bind, Trace.value_bind, hmissing]
  cases firstMissing l s anchors with
  | some a => rfl
  | none => rfl

section

variable {anchors : List Anchor} {found : FoundAnchors Float}
  (hfound : (findAnchors l s anchors).value = .ok found)

include hfound

/-- A search that ends well misses no required anchor. -/
theorem firstMissing_of_findAnchors : firstMissing l s anchors = none := by
  rw [value_findAnchors] at hfound
  cases hmissing : firstMissing l s anchors with
  | some a =>
    rw [hmissing] at hfound
    cases hfound
  | none => rfl

/-- After a search that ends well every required anchor resolves. -/
theorem resolves_of_findAnchors {a : Anchor} (ha : a ∈ anchors) (hrequired : a.required = true) :
    a.resolves l s = true := by
  have hnot := List.find?_eq_none.1 (firstMissing_of_findAnchors l s hfound) a ha
  rw [hrequired, Bool.true_and, Bool.not_eq_true', Bool.not_eq_false] at hnot
  exact hnot

end

end

/-! ### Field paths -/

/-- A plain value holds a processor if it reads as one whose parts fit together. -/
theorem Processor.ofValue_eq_ok_iff {now : String} {v : Option (Value Float)} {p : Processor} :
    Processor.ofValue now v = .ok p ↔
      (Processor.reader now v).toExcept = .ok p ∧ p.specIssues = [] := by
  unfold Processor.ofValue
  constructor
  · intro h
    split at h
    · rename_i q hq
      unfold Processor.checked at h
      split at h
      · rename_i hempty
        cases h
        exact ⟨hq, List.isEmpty_iff.1 hempty⟩
      · cases h
    · cases h
  · rintro ⟨hread, hissues⟩
    simp only [hread, Processor.checked, hissues]
    rfl

/-- A processor is read from the plain value itself or from what a text holds. -/
theorem Processor.exists_ofValue_of_ofInput {now : String} {v : Option (Value Float)}
    {p : Processor} (hp : Processor.ofInput now v = .ok p) :
    ∃ w, Processor.ofValue now w = .ok p ∧ (w = v ∨ ∃ s, w = Value.parse? s) := by
  unfold Processor.ofInput at hp
  split at hp
  · split at hp
    · rename_i w hw
      exact ⟨some w, hp, .inr ⟨_, hw.symm⟩⟩
    · cases hp
  · exact ⟨v, hp, .inl rfl⟩

/-- A processor that was read has no issues. -/
theorem Processor.specIssues_of_ofInput {now : String} {v : Option (Value Float)} {p : Processor}
    (hp : Processor.ofInput now v = .ok p) : p.specIssues = [] := by
  obtain ⟨w, hw, -⟩ := Processor.exists_ofValue_of_ofInput hp
  exact (Processor.ofValue_eq_ok_iff.1 hw).2

/-- The parts of a processor that was read fit together. -/
theorem Processor.isConsistent_of_ofInput {now : String} {v : Option (Value Float)} {p : Processor}
    (hp : Processor.ofInput now v = .ok p) : p.IsConsistent :=
  p.specIssues_eq_nil_iff.1 (Processor.specIssues_of_ofInput hp)

/-- The field paths of a processor that was read are paths. -/
theorem Processor.exists_path_of_ofInput {now : String} {v : Option (Value Float)}
    {p : Processor} (hp : Processor.ofInput now v = .ok p) {path : String}
    (hpath : path ∈ p.fieldPaths) : ∃ q, Path.parse path = .ok q :=
  (Processor.isConsistent_of_ofInput hp).paths path hpath

/-! ### Names that refer to each other -/

namespace Processor

section

variable {now : String} {v : Option (Value Float)} {p : Processor}
  (hp : Processor.ofInput now v = .ok p)

include hp

theorem nodup_anchors : (p.anchors.map (·.name)).Nodup :=
  (isConsistent_of_ofInput hp).anchorsDistinct

theorem nodup_regions : (p.regions.map (·.name)).Nodup :=
  (isConsistent_of_ofInput hp).regionsDistinct

/-- A region begins at a declared anchor. -/
theorem declared_start {r : Region} (hr : r ∈ p.regions) :
    ∃ a ∈ p.anchors, a.name = r.startAnchor :=
  List.mem_map.1 ((isConsistent_of_ofInput hp).starts r hr)

/-- A region ends at a declared anchor, unless it goes on to the end of its page. -/
theorem declared_end {r : Region} (hr : r ∈ p.regions) (hopen : r.isOpen = false) :
    ∃ a ∈ p.anchors, a.name = r.endAnchor := by
  have hend := (isConsistent_of_ofInput hp).ends r hr
  rw [Region.isOpen, beq_eq_false_iff_ne] at hopen
  exact List.mem_map.1 (hend.resolve_left hopen)

end

end Processor

/-! ### Fields and calculations -/

theorem exists_extractFields (input : ExtractionInput) {es : List Extraction}
    (hes : ∀ e ∈ es, ∃ q, Path.parse e.fieldPath = .ok q) (tree : Record Float) :
    ∃ tree', (extractFields input tree es).value = .ok tree' := by
  induction es generalizing tree with
  | nil => exact ⟨tree, rfl⟩
  | cons e es ih =>
    obtain ⟨q, hq⟩ := hes e List.mem_cons_self
    rw [value_extractFields_cons, Extraction.value_store hq]
    exact ih (fun e' he' => hes e' (List.mem_cons_of_mem e he')) _

theorem exists_runCalculations {cs : List Calculation}
    (hcs : ∀ c ∈ cs, ∃ q, Path.parse c.fieldPath = .ok q) (tree : Record Float) :
    ∃ tree', (runCalculations tree cs).value = .ok tree' := by
  induction cs generalizing tree with
  | nil => exact ⟨tree, rfl⟩
  | cons c cs ih =>
    obtain ⟨q, hq⟩ := hcs c List.mem_cons_self
    have htail := ih fun c' hc' => hcs c' (List.mem_cons_of_mem c hc')
    rw [value_runCalculations_cons]
    obtain hrun | ⟨x, hrun⟩ := Calculation.value_run tree hq
    · rw [hrun]
      exact htail tree
    · rw [hrun]
      exact htail _

/-- Fields and calculations whose paths are paths always end in a tree. -/
theorem Processor.exists_fill {p : Processor} (input : ExtractionInput)
    (hp : ∀ path ∈ p.fieldPaths, ∃ q, Path.parse path = .ok q) :
    ∃ tree, (p.fill input).value = .ok tree := by
  have hextractions : ∀ e ∈ p.extractions, ∃ q, Path.parse e.fieldPath = .ok q :=
    fun e he => hp _ (List.mem_append_left _ (List.mem_map_of_mem he))
  have hcalculations : ∀ c ∈ p.calculations, ∃ q, Path.parse c.fieldPath = .ok q :=
    fun c hc => hp _ (List.mem_append_right _ (List.mem_map_of_mem hc))
  obtain ⟨tree, htree⟩ := exists_extractFields input hextractions []
  rw [Processor.value_fill, htree]
  exact exists_runCalculations hcalculations tree

/-! ### Runs -/

/-- A run on a processor that was read has a result if every required anchor resolves, and else
ends with the first one that does not. No formula that it evaluates sums over a text that is no
path. -/
theorem execute_outcome {now : String} {v : Option (Value Float)} {p : Processor}
    (hp : Processor.ofInput now v = .ok p) (s : Settings Float) (l : Layout Float) :
    (match firstMissing l s p.anchors with
      | none => ∃ result, (execute s l p).value = .ok result
      | some a => (execute s l p).value = .error (.missingAnchor ⟨a.name⟩)) ∧
    ∀ c ∈ p.calculations, ∀ f, Formula.parse c.formula = .ok f →
      ∀ q ∈ f.paths, Path.parse q.text = .ok q := by
  constructor
  · rw [value_execute, value_findAnchors]
    cases firstMissing l s p.anchors with
    | some a => rfl
    | none =>
      obtain ⟨tree, htree⟩ := p.exists_fill
        (p.inputFor l s (searchAnchors l s ⟨[], none⟩ p.anchors).value.found)
        fun path hpath => Processor.exists_path_of_ofInput hp hpath
      simp only [htree]
      exact ⟨_, rfl⟩
  · intro c _ f hf q hq
    exact (Formula.named_of_parse hf q hq).parse_text

/-- A processor for invoices as a plain value: it needs the anchor `total`, and sums prices. -/
def invoiceSpec : Value Float :=
  .map [("id", .str "invoice"), ("name", .str "Invoice"),
    ("anchors", .list [.map [("name", .str "total"), ("patterns", .list [.str "Total"])]]),
    ("extraction_ops", .list [.map [("field_path", .str "items[].price"),
      ("source", .str "anchor.total.next")]]),
    ("calculations", .list [.map [("field_path", .str "sum"),
      ("formula", .str "sum(items[].price)")]])]

/-- The processor that `invoiceSpec` holds. -/
def invoice : Processor where
  id := "invoice"
  name := "Invoice"
  documentType := "generic"
  version := 1.0
  createdAt := ""
  updatedAt := ""
  fingerprint := none
  textPatterns := []
  anchors := [⟨"total", ["Total"], .contains, none, true, none⟩]
  regions := []
  extractions := [⟨"items[].price", "anchor.total.next", none⟩]
  calculations := [⟨"sum", "sum(items[].price)", none⟩]
  validations := []
  fieldColumns := none

/-- A document of one page with some blocks. -/
def onePage (blocks : List (Block Float)) : Layout Float :=
  ⟨none, 1.0, [(612.0, 792.0)], blocks, "", none⟩

/-- A block that says "Total". -/
def totalBlock : Block Float :=
  ⟨"b1", "Total", ⟨0.1, 0.8, 0.2, 0.82, 1.0⟩, 99.0, none, false, .text⟩

/-- Without a total the run ends with the anchor that is missing, with one it has a result. -/
theorem execute_outcome_invoice :
    Processor.ofInput "" (some invoiceSpec) = .ok invoice ∧
    (execute .standard (onePage []) invoice).value = .error (.missingAnchor ⟨"total"⟩) ∧
    ∃ result, (execute .standard (onePage [totalBlock]) invoice).value = .ok result := by
  have hread : Processor.ofInput "" (some invoiceSpec) = .ok invoice := by rfl
  have hempty : firstMissing (onePage []) .standard invoice.anchors =
      some ⟨"total", ["Total"], .contains, none, true, none⟩ := by
    decide +kernel
  have htotal : firstMissing (onePage [totalBlock]) .standard invoice.anchors = none := by
    decide +kernel
  have hmissing := execute_outcome hread .standard (onePage [])
  have hresult := execute_outcome hread .standard (onePage [totalBlock])
  rw [hempty] at hmissing
  rw [htotal] at hresult
  exact ⟨hread, hmissing.1, hresult.1⟩

end PageExtract
