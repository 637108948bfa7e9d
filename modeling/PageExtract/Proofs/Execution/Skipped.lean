/-
Why a run skips a region.

All anchors that a region of a processor refers to are declared, and a run that has a result has
found the required ones. So only an optional anchor can be missing from a region, and if no anchor
is optional then only a region whose anchors are on different pages is skipped.

* `Processor.mem_warnings_collect` — the warnings of a run that are about regions;
* `Processor.optional_of_missesAnchor` — the anchor that a region misses;
* `execute_skipped` — which regions a run skips.
-/
import PageExtract.Proofs.Execution.Optional
import PageExtract.Proofs.Execution.Regions
import PageExtract.Proofs.Execution.Warnings

namespace PageExtract

theorem Region.begins_missingText (r : Region) : Begins 'R' r.missingText := by
  simp [Begins, missingText, toString]

theorem Region.begins_crossingText (r : Region) : Begins 'R' r.crossingText := by
  simp [Begins, crossingText, toString]

/-- The words about the filling of a tree are not about regions. -/
theorem Processor.not_begins_fill (p : Processor) (input : ExtractionInput) :
    (p.fill input).Warns (¬ Begins 'R' ·) := by
  have hfields : (extractFields input [] p.extractions).Warns (¬ Begins 'R' ·) := by
    refine (warns_extractFields input [] p.extractions).mono fun w hw hregion => ?_
    exact absurd (Begins.unique hw hregion) (by decide)
  refine hfields.bind fun filled => ?_
  cases filled with
  | ok tree =>
    refine (warns_runCalculations tree p.calculations).mono fun w hw hregion => ?_
    exact absurd (hw.unique hregion) (by decide)
  | error error => exact warns_pure _

section

variable {p : Processor} {l : Layout Float} {s : Settings Float} {found : FoundAnchors Float}
  (hfound : (findAnchors l s p.anchors).value = .ok found)

include hfound

/-- The warnings of a run that are about regions come from the search for regions. -/
theorem Processor.mem_warnings_collect {w : String} (hw : Begins 'R' w) :
    w ∈ (p.collect l s).trace.warnings ↔ w ∈ (findRegions l found p.regions).trace.warnings := by
  rw [Processor.warnings_collect hfound, List.mem_append, List.mem_append]
  constructor
  · rintro (hanchor | hregion | hfill)
    · rcases warns_findAnchors l s p.anchors w hanchor with hletter | hletter
      · exact absurd (hw.unique hletter) (by decide)
      · exact absurd (hw.unique hletter) (by decide)
    · exact hregion
    · exact (p.not_begins_fill _ w hfill hw).elim
  · exact fun hregion => .inr (.inl hregion)

variable {now : String} {v : Option (Value Float)} (hp : Processor.ofInput now v = .ok p)

include hp

/-- An anchor that a region misses is declared, is optional, and does not resolve. -/
theorem Processor.optional_of_missesAnchor {r : Region} (hr : r ∈ p.regions)
    (hmisses : r.MissesAnchor found) :
    ∃ a ∈ p.anchors, (a.name = r.startAnchor ∨ (r.isOpen = false ∧ a.name = r.endAnchor)) ∧
      a.required = false ∧ (a.find? l s).value = none := by
  have hoptional : ∀ a ∈ p.anchors, Members.get? found a.name = none →
      a.required = false ∧ (a.find? l s).value = none := by
    intro a ha hnone
    rw [get?_findAnchors hfound (Processor.nodup_anchors hp) ha] at hnone
    refine ⟨?_, hnone⟩
    -- A required anchor has been found, or there would be no result.
    cases hrequired : a.required with
    | false => rfl
    | true =>
      have hresolves := resolves_of_findAnchors l s hfound ha hrequired
      rw [← a.isSome_find?, hnone] at hresolves
      cases hresolves
  rcases hmisses with hstart | ⟨hopen, hend⟩
  · obtain ⟨a, ha, hname⟩ := Processor.declared_start hp hr
    exact ⟨a, ha, .inl hname, hoptional a ha (hname ▸ hstart)⟩
  · obtain ⟨a, ha, hname⟩ := Processor.declared_end hp hr hopen
    exact ⟨a, ha, .inr ⟨hopen, hname⟩, hoptional a ha (hname ▸ hend)⟩

/-- The blocks of two anchors on different pages are those of declared anchors. -/
theorem Processor.anchors_of_crosses {r : Region} (hr : r ∈ p.regions)
    (hcrosses : r.Crosses found) :
    ∃ a ∈ p.anchors, ∃ b ∈ p.anchors, a.name = r.startAnchor ∧ b.name = r.endAnchor ∧
      ∃ start stop, (a.find? l s).value = some start ∧ (b.find? l s).value = some stop ∧
        (stop.box.page == start.box.page) = false := by
  obtain ⟨hopen, start, stop, hstart, hstop, hpage⟩ := hcrosses
  obtain ⟨a, ha, haname⟩ := Processor.declared_start hp hr
  obtain ⟨b, hb, hbname⟩ := Processor.declared_end hp hr hopen
  rw [← haname, get?_findAnchors hfound (Processor.nodup_anchors hp) ha] at hstart
  rw [← hbname, get?_findAnchors hfound (Processor.nodup_anchors hp) hb] at hstop
  exact ⟨a, ha, b, hb, haname, hbname, start, stop, hstart, hstop, hpage⟩

end

/-- A region is said to be skipped for a missing anchor only if one of its anchors is optional and
does not resolve. If all anchors are required, a region is found and nothing is said of it, or it is
skipped because its two anchors were found on different pages. -/
theorem execute_skipped {now : String} {v : Option (Value Float)} {p : Processor}
    (hp : Processor.ofInput now v = .ok p) {s : Settings Float} {l : Layout Float}
    {result : Execution} (hrun : (execute s l p).value = .ok result) {r : Region}
    (hr : r ∈ p.regions) :
    (s!"Region '{r.name}' skipped: anchor not found" ∈ result.warnings →
      ∃ a ∈ p.anchors, (a.name = r.startAnchor ∨ (r.isOpen = false ∧ a.name = r.endAnchor)) ∧
        a.required = false ∧ (a.find? l s).value = none) ∧
    ((∀ a ∈ p.anchors, a.required = true) →
      s!"Region '{r.name}' skipped: anchor not found" ∉ result.warnings ∧
      ((Members.has result.regions r.name = true ∧
        s!"Region '{r.name}' skipped: anchors are on different pages" ∉ result.warnings) ∨
      (Members.has result.regions r.name = false ∧
        s!"Region '{r.name}' skipped: anchors are on different pages" ∈ result.warnings ∧
        ∃ a ∈ p.anchors, ∃ b ∈ p.anchors, a.name = r.startAnchor ∧ b.name = r.endAnchor ∧
          ∃ start stop, (a.find? l s).value = some start ∧ (b.find? l s).value = some stop ∧
            (stop.box.page == start.box.page) = false))) := by
  obtain ⟨found, tree, hfound, -, rfl⟩ := exists_of_execute_eq_ok hrun
  have hnames := Processor.nodup_regions hp
  have hmissing : r.missingText ∈ (p.resultFor l s found tree).warnings ↔ r.MissesAnchor found :=
    (Processor.mem_warnings_collect hfound r.begins_missingText).trans
      (missingText_mem_iff hnames hr)
  have hcrossing : r.crossingText ∈ (p.resultFor l s found tree).warnings ↔ r.Crosses found :=
    (Processor.mem_warnings_collect hfound r.begins_crossingText).trans
      (crossingText_mem_iff hnames hr)
  have hregion : Members.has (p.resultFor l s found tree).regions r.name = true ↔
      r.Resolves found := by
    rw [← has_findRegions_name (l := l) hnames hr]
    exact Bool.eq_iff_iff.1 (Members.has_map _ _ _)
  have hoptional := Processor.optional_of_missesAnchor hfound hp hr
  refine ⟨fun hw => hoptional (hmissing.1 hw), fun hrequired => ?_⟩
  have hcomplete : ¬ r.MissesAnchor found := by
    intro hmisses
    obtain ⟨a, ha, -, hnot, -⟩ := hoptional hmisses
    exact Bool.false_ne_true (hnot.symm.trans (hrequired a ha))
  refine ⟨fun hw => hcomplete (hmissing.1 hw), ?_⟩
  rcases r.resolves_or found with hresolves | hmisses | hcrosses
  · exact .inl ⟨hregion.2 hresolves, fun hw => (hcrossing.1 hw).not_resolves hresolves⟩
  · exact (hcomplete hmisses).elim
  · refine .inr ⟨?_, hcrossing.2 hcrosses, Processor.anchors_of_crosses hfound hp hr hcrosses⟩
    exact Bool.eq_false_iff.2 fun hhas => hcrosses.not_resolves (hregion.1 hhas)

/-- A processor as a plain value with a region between two anchors that have to be there. -/
def termsSpec : Value Float :=
  .map [("id", .str "terms"), ("name", .str "Terms"),
    ("anchors", .list [
      .map [("name", .str "total"), ("patterns", .list [.str "Total"])],
      .map [("name", .str "terms"), ("patterns", .list [.str "Terms"])]]),
    ("regions", .list [
      .map [("name", .str "notes"), ("start_anchor", .str "total"),
        ("end_anchor", .str "terms")]])]

/-- The region of `termsSpec`. -/
def notesRegion : Region := ⟨"notes", "total", "terms", .table, none⟩

/-- The processor that `termsSpec` holds. -/
def termed : Processor where
  id := "terms"
  name := "Terms"
  documentType := "generic"
  version := 1.0
  createdAt := ""
  updatedAt := ""
  fingerprint := none
  textPatterns := []
  anchors := [⟨"total", ["Total"], .contains, none, true, none⟩,
    ⟨"terms", ["Terms"], .contains, none, true, none⟩]
  regions := [notesRegion]
  extractions := []
  calculations := []
  validations := []
  fieldColumns := none

/-- A block on the second page that says "Terms". -/
def termsBlock : Block Float :=
  ⟨"b3", "Terms", ⟨0.1, 0.1, 0.2, 0.12, 2.0⟩, 99.0, none, false, .text⟩

/-- A page with a total and a price but without a discount, and pages with a total and terms. -/
def undiscountedPage : Layout Float := onePage [totalBlock, priceBlock]

def termsPages : Layout Float := onePage [totalBlock, termsBlock]

/-- A region misses the discount, which is optional, and a region from the total to the terms on the
next page is skipped for its pages. -/
theorem execute_skipped_discounts :
    (∃ result, (execute .standard undiscountedPage discounted).value = .ok result ∧
      "Region 'discounts' skipped: anchor not found" ∈ result.warnings ∧
      ∃ a ∈ discounted.anchors, a.required = false ∧
        (a.find? undiscountedPage .standard).value = none) ∧
    ∃ result, (execute .standard termsPages termed).value = .ok result ∧
      Members.has result.regions "notes" = false ∧
      "Region 'notes' skipped: anchor not found" ∉ result.warnings ∧
      "Region 'notes' skipped: anchors are on different pages" ∈ result.warnings := by
  have hdiscounts : Processor.ofInput "" (some discountSpec) = .ok discounted := by rfl
  have hterms : Processor.ofInput "" (some termsSpec) = .ok termed := by rfl
  have hwarned : ((execute .standard undiscountedPage discounted).value.toOption.map
      fun result => decide ("Region 'discounts' skipped: anchor not found" ∈ result.warnings)) =
        some true := by
    decide +kernel
  have hskipped : ((execute .standard termsPages termed).value.toOption.map
      fun result => Members.has result.regions "notes") = some false := by
    decide +kernel
  constructor
  · cases hrun : (execute .standard undiscountedPage discounted).value with
    | error error =>
      rw [hrun] at hwarned
      cases hwarned
    | ok result =>
      rw [hrun] at hwarned
      have hw : "Region 'discounts' skipped: anchor not found" ∈ result.warnings :=
        of_decide_eq_true (Option.some_inj.1 hwarned)
      have hr : ⟨"discounts", "discount", "total", .table, none⟩ ∈ discounted.regions :=
        List.mem_cons_of_mem _ List.mem_cons_self
      obtain ⟨a, ha, -, hoptional, hmissing⟩ := (execute_skipped hdiscounts hrun hr).1 hw
      exact ⟨result, rfl, hw, a, ha, hoptional, hmissing⟩
  · cases hrun : (execute .standard termsPages termed).value with
    | error error =>
      rw [hrun] at hskipped
      cases hskipped
    | ok result =>
      rw [hrun] at hskipped
      have hnot : Members.has result.regions "notes" = false := Option.some_inj.1 hskipped
      obtain ⟨hfound, ⟨hhas, -⟩ | ⟨-, hcrossing, -⟩⟩ :=
        (execute_skipped hterms hrun (r := notesRegion) List.mem_cons_self).2 (by decide)
      · cases hnot.symm.trans hhas
      · exact ⟨result, rfl, hnot, hfound, hcrossing⟩

end PageExtract
