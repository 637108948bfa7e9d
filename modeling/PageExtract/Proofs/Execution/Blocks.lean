/-
A run sees only the blocks of a document.

Nothing that is looked for in a document depends on its name, its pages or its fingerprint. The
searches go over lists, so that for each of them there is an induction; what they ask of the
document is asked of its blocks.

* `Anchor.find?_congr`, `findAnchors_congr` — anchors;
* `findRegions_congr`, `extractFields_congr` — regions and fields;
* `execute_congr` — a run on two documents with the same blocks.
-/
import PageExtract.Execution

namespace PageExtract

variable {l l' : Layout Float} (h : l.blocks = l'.blocks) (s : Settings Float)

include h

/-- What is computed from the blocks of a document alone is the same for two documents with the same
blocks. -/
theorem Layout.congr {α : Type} (f : Layout Float → α)
    (hf : ∀ m : Layout Float, f m = f ⟨none, 0, [], m.blocks, "", none⟩) : f l = f l' := by
  rw [hf l, hf l', h]

theorem Anchor.candidates_congr (a : Anchor) (pattern : String) :
    a.candidates l s pattern = a.candidates l' s pattern := by
  have hdirect : a.directMatches l pattern = a.directMatches l' pattern := by
    unfold directMatches Layout.findTextExact Layout.findText Layout.findPattern
    rw [h]
  have hholding : l.holding = l'.holding := by
    funext word
    rw [Layout.holding, Layout.holding, h]
  rw [candidates, candidates, hdirect, proximityMatches, proximityMatches, hholding]

theorem Anchor.find?_congr (a : Anchor) : a.find? l s = a.find? l' s := by
  unfold find?
  induction a.patterns with
  | nil => rfl
  | cons pattern patterns ih =>
    rw [findBy?, findBy?, a.candidates_congr h s, ih]

theorem findAnchors_congr (anchors : List Anchor) :
    findAnchors l s anchors = findAnchors l' s anchors := by
  have hsearch : ∀ search,
      searchAnchors l s search anchors = searchAnchors l' s search anchors := by
    induction anchors with
    | nil => exact fun search => rfl
    | cons a anchors ih =>
      intro search
      rw [searchAnchors, searchAnchors, a.find?_congr h s]
      simp only [ih]
  rw [findAnchors, findAnchors, hsearch]

omit s in
theorem findRegions_congr (found : FoundAnchors Float) (rs : List Region) :
    findRegions l found rs = findRegions l' found rs := by
  suffices hfrom : ∀ so, findRegionsFrom l found so rs = findRegionsFrom l' found so rs from
    hfrom []
  induction rs with
  | nil => exact fun so => rfl
  | cons r rs ih =>
    intro so
    have hregion : r.find? l found = r.find? l' found :=
      Layout.congr h (fun m => r.find? m found) fun _ => rfl
    rw [findRegionsFrom, findRegionsFrom, hregion]
    simp only [ih]

theorem Extraction.extract_congr (p : Processor) (found : FoundAnchors Float)
    (regions : FoundRegions Float) (e : Extraction) :
    e.extract ⟨l, p, found, regions, s⟩ = e.extract ⟨l', p, found, regions, s⟩ := by
  have hsource : ∀ source, e.ofSource ⟨l, p, found, regions, s⟩ source =
      e.ofSource ⟨l', p, found, regions, s⟩ source := fun source =>
    Layout.congr h (fun m => e.ofSource ⟨m, p, found, regions, s⟩ source) fun m => by
      cases source with
      | _ => rfl
  unfold extract raw
  simp only [hsource]

theorem extractFields_congr (p : Processor) (found : FoundAnchors Float)
    (regions : FoundRegions Float) (tree : Record Float) (es : List Extraction) :
    extractFields ⟨l, p, found, regions, s⟩ tree es =
      extractFields ⟨l', p, found, regions, s⟩ tree es := by
  induction es generalizing tree with
  | nil => rfl
  | cons e es ih =>
    rw [extractFields, extractFields, e.extract_congr h s]
    simp only [ih]

/-- A run sees only the blocks of a document. -/
theorem execute_congr (p : Processor) : execute s l p = execute s l' p := by
  have hgather : ∀ found, p.gather l s found = p.gather l' s found := by
    intro found
    unfold Processor.gather Processor.fill
    rw [findRegions_congr h]
    simp only [extractFields_congr h s]
  have hcollect : p.collect l s = p.collect l' s := by
    unfold Processor.collect
    rw [findAnchors_congr h s, h]
    simp only [hgather]
  unfold execute
  rw [hcollect]

end PageExtract
