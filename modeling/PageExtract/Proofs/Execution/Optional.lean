/-
Optional anchors that are not found.

An optional anchor that does not resolve leaves one warning and nothing else. Whatever refers to it
(a bound of a region, a header of a table, a source) meets a name under which nothing was found, and
so it would if the anchor were not declared.

* `Traced.Extra` — a computation that is another one with one warning more;
* `extra_findAnchors` — the search for anchors;
* `inferTable_insert`, `Extraction.extract_withoutAnchor` — tables and fields;
* `Processor.fill_withoutAnchor` — the tree of a run;
* `execute_withoutAnchor` — a run with the anchor and a run without it.
-/
import PageExtract.Proofs.Execution.Anchors
import PageExtract.Proofs.Execution.Status

namespace PageExtract

/-! ### One warning more -/

/-- Whether a computation has the value of another one and its warnings with one more among
them. -/
def Traced.Extra {α : Type} (w : String) (x y : Traced α) : Prop :=
  x.value = y.value ∧ ∃ earlier later, y.trace.warnings = earlier ++ later ∧
    x.trace.warnings = earlier ++ w :: later

namespace Traced.Extra

variable {α β : Type} {w : String} {x y : Traced α}

/-- What follows in the same way keeps the difference as it is. -/
theorem bind (h : x.Extra w y) {f g : α → Traced β} (hfg : f x.value = g x.value) :
    (x >>= f).Extra w (y >>= g) := by
  obtain ⟨hvalue, earlier, later, hy, hx⟩ := h
  have hnext : g y.value = f x.value := by rw [hfg, hvalue]
  refine ⟨?_, earlier, later ++ (f x.value).trace.warnings, ?_, ?_⟩
  · rw [Trace.value_bind, Trace.value_bind, hnext]
  · rw [Trace.warnings_bind, hy, hnext, List.append_assoc]
  · rw [Trace.warnings_bind, hx, List.append_assoc, List.cons_append]

/-- What comes before does not matter. -/
theorem after (z : Traced β) {f g : β → Traced α} (h : (f z.value).Extra w (g z.value)) :
    (z >>= f).Extra w (z >>= g) := by
  obtain ⟨hvalue, earlier, later, hy, hx⟩ := h
  refine ⟨hvalue, z.trace.warnings ++ earlier, later, ?_, ?_⟩
  · rw [Trace.warnings_bind, hy, List.append_assoc]
  · rw [Trace.warnings_bind, hx, List.append_assoc]

end Traced.Extra

/-! ### The search for anchors -/

section

variable {l : Layout Float} {s : Settings Float} {a : Anchor}

/-- The words for an optional anchor that is not found. -/
def Anchor.missingText (a : Anchor) : String := s!"Optional anchor '{a.name}' not found"

/-- An optional anchor that is not found is reported, and that is all. -/
theorem extra_searchAnchors_cons (hquiet : (a.find? l s).Quiet) (hoptional : a.required = false)
    (hmissing : (a.find? l s).value = none) (search : AnchorSearch) (anchors : List Anchor) :
    (searchAnchors l s search (a :: anchors)).Extra a.missingText
      (searchAnchors l s search anchors) := by
  have hreport : (a.report none).trace.warnings = [a.missingText] := by
    unfold Anchor.report
    rw [hoptional]
    rfl
  have hsame : search.add a none = search := by
    unfold AnchorSearch.add
    rw [hoptional]
    rfl
  rw [searchAnchors]
  refine ⟨?_, [], (searchAnchors l s search anchors).trace.warnings, rfl, ?_⟩
  · rw [Trace.value_bind, Trace.value_bind, hmissing, hsame]
  · rw [Trace.warnings_bind, Trace.warnings_bind, hquiet, hmissing, hreport, hsame]
    rfl

theorem extra_searchAnchors (hquiet : (a.find? l s).Quiet) (hoptional : a.required = false)
    (hmissing : (a.find? l s).value = none) (search : AnchorSearch) (before after : List Anchor) :
    (searchAnchors l s search (before ++ a :: after)).Extra a.missingText
      (searchAnchors l s search (before ++ after)) := by
  induction before generalizing search with
  | nil => exact extra_searchAnchors_cons hquiet hoptional hmissing search after
  | cons a' before ih =>
    rw [List.cons_append, List.cons_append, searchAnchors, searchAnchors]
    exact .after _ (.after _ (ih _))

/-- The search for anchors finds the same without an optional anchor that is not there. -/
theorem extra_findAnchors (hquiet : (a.find? l s).Quiet) (hoptional : a.required = false)
    (hmissing : (a.find? l s).value = none) (before after : List Anchor) :
    (findAnchors l s (before ++ a :: after)).Extra a.missingText
      (findAnchors l s (before ++ after)) := by
  obtain ⟨hvalue, hwarnings⟩ :=
    extra_searchAnchors hquiet hoptional hmissing ⟨[], none⟩ before after
  refine ⟨?_, ?_⟩
  · -- The number of declared anchors is noted as an event and does not come back.
    rw [findAnchors, findAnchors, Trace.value_bind, Trace.value_bind, hvalue]
    rfl
  · rwa [warnings_findAnchors, warnings_findAnchors]

end

/-! ### Tables -/

section

variable {found : FoundAnchors Float} {name : String}

/-- A name under which nothing was found heads no column. -/
theorem headerCandidates_insert (hname : Members.get? found name = none) (page : Float)
    (seen : List (Block Float)) (before after : List String) :
    headerCandidates found page seen (before ++ name :: after) =
      headerCandidates found page seen (before ++ after) := by
  induction before generalizing seen with
  | nil => rw [List.nil_append, headerCandidates, hname, List.nil_append]
  | cons n before ih =>
    rw [List.cons_append, List.cons_append, headerCandidates, headerCandidates]
    simp only [ih]

/-- A table is the same without a declared anchor at which nothing was found. -/
theorem inferTable_insert {a : Anchor} (ha : Members.get? found a.name = none) (l : Layout Float)
    (blocks : List (Block Float)) (region : Option Region) (before after : List Anchor)
    (tolerance : Float) :
    inferTable l blocks region (before ++ a :: after) found tolerance =
      inferTable l blocks region (before ++ after) found tolerance := by
  have hcandidates : ∀ page, headerCandidates found page []
      (headerNames region (before ++ a :: after)) =
        headerCandidates found page [] (headerNames region (before ++ after)) := by
    intro page
    unfold headerNames
    cases region.bind (·.headerAnchors) with
    | some names => rfl
    | none =>
      simp only [List.filter_append, List.map_append, List.filter_cons]
      cases a.role.isSome with
      | true => exact headerCandidates_insert ha page [] _ _
      | false => rfl
  unfold inferTable
  simp only [hcandidates]

end

/-! ### Fields and regions -/

/-- A processor without one of its anchors; whatever refers to the anchor stays. -/
def Processor.withoutAnchor (p : Processor) (a : Anchor) : Processor :=
  { p with anchors := p.anchors.erase a }

section

variable {p : Processor} {a : Anchor} {found : FoundAnchors Float}
  (ha : a ∈ p.anchors) (hfound : Members.get? found a.name = none)
  (l : Layout Float) (s : Settings Float) (regions : FoundRegions Float)

include ha hfound

theorem Extraction.tableOf_withoutAnchor (region : String) (blocks : List (Block Float)) :
    tableOf ⟨l, p, found, regions, s⟩ region blocks =
      tableOf ⟨l, p.withoutAnchor a, found, regions, s⟩ region blocks := by
  obtain ⟨before, after, -, hwith, hwithout⟩ := List.exists_erase_eq ha
  simp only [tableOf, Processor.withoutAnchor]
  rw [hwithout, hwith, inferTable_insert hfound]

/-- A field is the same without a declared anchor at which nothing was found. -/
theorem Extraction.extract_withoutAnchor (e : Extraction) :
    e.extract ⟨l, p, found, regions, s⟩ =
      e.extract ⟨l, p.withoutAnchor a, found, regions, s⟩ := by
  have hcolumn : ∀ region blocks declared,
      e.column ⟨l, p, found, regions, s⟩ region blocks declared =
        e.column ⟨l, p.withoutAnchor a, found, regions, s⟩ region blocks declared := by
    intro region blocks declared
    unfold column
    rw [tableOf_withoutAnchor ha hfound]
    rfl
  have hsource : ∀ source, e.ofSource ⟨l, p, found, regions, s⟩ source =
      e.ofSource ⟨l, p.withoutAnchor a, found, regions, s⟩ source := by
    intro source
    cases source with
    | regionColumn region declared =>
      simp only [ofSource, hcolumn]
      rfl
    | _ => rfl
  unfold extract raw
  simp only [hsource]

theorem extractFields_withoutAnchor (tree : Record Float) (es : List Extraction) :
    extractFields ⟨l, p, found, regions, s⟩ tree es =
      extractFields ⟨l, p.withoutAnchor a, found, regions, s⟩ tree es := by
  induction es generalizing tree with
  | nil => rfl
  | cons e es ih =>
    rw [extractFields, extractFields, e.extract_withoutAnchor ha hfound]
    simp only [ih]

/-- The tree of a run is the same. -/
theorem Processor.fill_withoutAnchor :
    p.fill ⟨l, p, found, regions, s⟩ =
      (p.withoutAnchor a).fill ⟨l, p.withoutAnchor a, found, regions, s⟩ := by
  unfold Processor.fill
  rw [extractFields_withoutAnchor ha hfound]
  rfl

end

/-! ### Runs -/

section

variable {now : String} {v : Option (Value Float)} {p : Processor}
  (hp : Processor.ofInput now v = .ok p) {l : Layout Float} {s : Settings Float} {a : Anchor}
  (ha : a ∈ p.anchors) (hoptional : a.required = false) (hmissing : (a.find? l s).value = none)

include hp ha hoptional hmissing

theorem Processor.extra_findAnchors : (findAnchors l s p.anchors).Extra a.missingText
    (findAnchors l s (p.withoutAnchor a).anchors) := by
  obtain ⟨before, after, -, hwith, hwithout⟩ := List.exists_erase_eq ha
  have hquiet := a.quiet_find? l s (Processor.patternIssues_of_ofInput hp a ha)
  have hextra := PageExtract.extra_findAnchors hquiet hoptional hmissing before after
  rwa [← hwith, ← hwithout] at hextra

omit hoptional in
/-- Nothing is found at the anchor, so the tree of a run is the same. -/
theorem Processor.fill_of_findAnchors {found : FoundAnchors Float}
    (hfound : (findAnchors l s p.anchors).value = .ok found) (regions : FoundRegions Float) :
    p.fill ⟨l, p, found, regions, s⟩ =
      (p.withoutAnchor a).fill ⟨l, p.withoutAnchor a, found, regions, s⟩ := by
  have hnothing : Members.get? found a.name = none := by
    rw [get?_findAnchors hfound (Processor.nodup_anchors hp) ha, hmissing]
  exact fill_withoutAnchor ha hnothing l s regions

/-- All warnings but one are the same. -/
theorem Processor.extra_collect :
    (p.collect l s).Extra a.missingText ((p.withoutAnchor a).collect l s) := by
  unfold Processor.collect
  refine .after _ ((Processor.extra_findAnchors hp ha hoptional hmissing).bind ?_)
  cases hfound : (findAnchors l s p.anchors).value with
  | error error => rfl
  | ok found =>
    unfold Processor.gather
    simp only [Processor.fill_of_findAnchors hp ha hmissing hfound]
    rfl

end

/-- A result with warnings has to be reviewed. -/
theorem ExecutionStatus.of_cons (report : ValidationReport) (earlier later : List String)
    (w : String) : ExecutionStatus.of report (earlier ++ w :: later) = .needsReview := by
  unfold ExecutionStatus.of
  simp

/-- A run without an optional anchor that is not found ends with the same error, or has the same
result but for the warning about the anchor and the review that it asks for. -/
theorem execute_withoutAnchor {now : String} {v : Option (Value Float)} {p : Processor}
    (hp : Processor.ofInput now v = .ok p) {s : Settings Float} {l : Layout Float} {a : Anchor}
    (ha : a ∈ p.anchors) (hoptional : a.required = false)
    (hmissing : (a.find? l s).value = none) :
    (∃ error, (execute s l p).value = .error (.missingAnchor error) ∧
      (execute s l (p.withoutAnchor a)).value = .error (.missingAnchor error)) ∨
    ∃ result earlier later,
      (execute s l (p.withoutAnchor a)).value = .ok result ∧
      result.warnings = earlier ++ later ∧
      (execute s l p).value = .ok { result with
        warnings := earlier ++ s!"Optional anchor '{a.name}' not found" :: later
        status := .needsReview } := by
  have hanchors := (Processor.extra_findAnchors hp ha hoptional hmissing).1
  obtain ⟨-, earlier, later, hwithout, hwith⟩ :=
    Processor.extra_collect hp ha hoptional hmissing
  rw [value_execute, value_execute, ← hanchors]
  cases hfound : (findAnchors l s p.anchors).value with
  | error error => exact .inl ⟨error, rfl, rfl⟩
  | ok found =>
    right
    have hfill : p.fill (p.inputFor l s found) =
        (p.withoutAnchor a).fill ((p.withoutAnchor a).inputFor l s found) :=
      Processor.fill_of_findAnchors hp ha hmissing hfound _
    obtain ⟨tree, htree⟩ := p.exists_fill (p.inputFor l s found)
      fun path hpath => Processor.exists_path_of_ofInput hp hpath
    have hresult : p.resultFor l s found tree =
        { (p.withoutAnchor a).resultFor l s found tree with
          warnings := earlier ++ a.missingText :: later
          status := .needsReview } := by
      unfold Processor.resultFor
      simp only [hwith, ExecutionStatus.of_cons]
      rfl
    simp only [← hfill, htree, hresult]
    exact ⟨_, earlier, later, rfl, hwithout, rfl⟩

/-- An anchor that heads a column and that not every invoice has. -/
def discountAnchor : Anchor :=
  ⟨"discount", ["Discount"], .contains, none, false, some .columnHeader⟩

/-- A processor as a plain value that refers to `discountAnchor` as the bound of a region, as a
header, and as a source. -/
def discountSpec : Value Float :=
  .map [("id", .str "discounts"), ("name", .str "Discounts"),
    ("anchors", .list [
      .map [("name", .str "discount"), ("patterns", .list [.str "Discount"]),
        ("required", .bool false), ("role", .str "column_header")],
      .map [("name", .str "total"), ("patterns", .list [.str "Total"])]]),
    ("regions", .list [
      .map [("name", .str "rest"), ("start_anchor", .str "total"),
        ("end_anchor", .str "end_of_document"), ("header_anchors", .list [.str "discount"])],
      .map [("name", .str "discounts"), ("start_anchor", .str "discount"),
        ("end_anchor", .str "total")]]),
    ("extraction_ops", .list [
      .map [("field_path", .str "price"), ("source", .str "anchor.total.next")],
      .map [("field_path", .str "discount"), ("source", .str "anchor.discount.next")]])]

/-- The processor that `discountSpec` holds. -/
def discounted : Processor where
  id := "discounts"
  name := "Discounts"
  documentType := "generic"
  version := 1.0
  createdAt := ""
  updatedAt := ""
  fingerprint := none
  textPatterns := []
  anchors := [discountAnchor, ⟨"total", ["Total"], .contains, none, true, none⟩]
  regions := [⟨"rest", "total", "end_of_document", .table, some ["discount"]⟩,
    ⟨"discounts", "discount", "total", .table, none⟩]
  extractions := [⟨"price", "anchor.total.next", none⟩, ⟨"discount", "anchor.discount.next", none⟩]
  calculations := []
  validations := []
  fieldColumns := none

/-- On a page without a discount, the anchor for it only adds its warning. -/
theorem execute_withoutAnchor_discount : ∃ result earlier later,
    (execute .standard (onePage [totalBlock, priceBlock])
      (discounted.withoutAnchor discountAnchor)).value = .ok result ∧
    result.warnings = earlier ++ later ∧
    (execute .standard (onePage [totalBlock, priceBlock]) discounted).value = .ok { result with
      warnings := earlier ++ "Optional anchor 'discount' not found" :: later
      status := .needsReview } := by
  have hread : Processor.ofInput "" (some discountSpec) = .ok discounted := by rfl
  have hmissing : (discountAnchor.find? (onePage [totalBlock, priceBlock]) .standard).value =
      none := by
    decide +kernel
  have hresult : (execute .standard (onePage [totalBlock, priceBlock]) discounted).value.isOk =
      true := by
    decide +kernel
  rcases execute_withoutAnchor hread List.mem_cons_self rfl hmissing with ⟨_, herror, -⟩ | hsame
  · rw [herror] at hresult
    cases hresult
  · exact hsame

end PageExtract
