/-
Fields are read from one page.

A field whose source names an anchor that was found on a page, or a region whose start anchor was,
is read from the blocks of that page alone: two documents that have the same blocks there give the
same value and the same warnings, whatever is on their other pages and wherever other anchors were
found.

* `Layout.AgreeOn` — two documents with the same blocks on a page;
* `AgreeOn.blocksInRow`, `AgreeOn.blocksBetween`, `AgreeOn.inferTable` — rows, regions and tables
  are local;
* `get?_findRegions`, `warnings_findRegions` — what a search for regions says of one of them;
* `Region.StartsOn`, `Source.OnPage` — regions that start on a page, and sources that name something
  there;
* `extract_local` — the value and the warnings of a field.
-/
import Mathlib.Data.List.Nodup
import PageExtract.Proofs.Execution.Outcome
import PageExtract.Proofs.Execution.Regions
import PageExtract.Proofs.Execution.Rows
import PageExtract.Proofs.Number.Packing

namespace PageExtract

/-- Whether two layouts have the same blocks on a page, in the same order. -/
def Layout.AgreeOn (l l' : Layout Float) (page : Float) : Prop :=
  l.blocksOnPage page = l'.blocksOnPage page

/-! ### Blocks of a page -/

/-- The blocks of a row are found among those of the page. -/
theorem Layout.blocksInRow_eq (l : Layout Float) (ref : Block Float) (tolerance : Float) :
    l.blocksInRow ref tolerance = sortBy leftOf ((l.blocksOnPage ref.box.page).filter fun b =>
      b.id != ref.id && Numeric.abs (b.box.centerY - ref.box.centerY) ≤ tolerance) := by
  rw [blocksInRow, blocksOnPage, List.filter_filter]
  refine congrArg (sortBy leftOf) (List.filter_congr fun b _ => ?_)
  rw [Bool.and_assoc, Bool.and_assoc, Bool.and_comm (b.box.page == ref.box.page)]

namespace Layout.AgreeOn

variable {l l' : Layout Float} {page : Float} (h : l.AgreeOn l' page)

include h

/-- Agreement does not depend on how the number of a page is written. -/
theorem congr {page' : Float} (hpage : (page' == page) = true) : l.AgreeOn l' page' := by
  have hsame : ∀ m : Layout Float, m.blocksOnPage page' = m.blocksOnPage page :=
    fun m => List.filter_congr fun b _ => Double.beq_congr hpage b.box.page
  rw [AgreeOn, hsame, hsame]
  exact h

variable {start : Block Float} (hstart : (start.box.page == page) = true)

include hstart

theorem blocksInRow (tolerance : Float) :
    l.blocksInRow start tolerance = l'.blocksInRow start tolerance := by
  rw [blocksInRow_eq, blocksInRow_eq, h.congr hstart]

theorem blocksBetween (finish : Option (Block Float)) :
    l.blocksBetween start finish = l'.blocksBetween start finish := by
  rw [Layout.blocksBetween, Layout.blocksBetween, h.congr hstart]

theorem startRow (tolerance : Float) :
    PageExtract.startRow l tolerance start = PageExtract.startRow l' tolerance start := by
  rw [PageExtract.startRow, PageExtract.startRow, h.blocksInRow hstart]

omit hstart

/-- A table whose headers are no anchors is read from the page of its start anchor. -/
theorem withoutAnchors {first : Option (Block Float)}
    (hfirst : ∀ b ∈ first, (b.box.page == page) = true) (tolerance : Float)
    (data : List (Block Float)) :
    Table.withoutAnchors l tolerance first data = Table.withoutAnchors l' tolerance first data := by
  have hrow : first.map (PageExtract.startRow l tolerance) =
      first.map (PageExtract.startRow l' tolerance) :=
    Option.map_congr fun b hb => h.startRow (hfirst b hb) tolerance
  rw [Table.withoutAnchors, Table.withoutAnchors, hrow]

/-- A table in a region that starts on a page is read from that page. -/
theorem inferTable {region : Option Region} {found : FoundAnchors Float}
    (hregion : ∀ r ∈ region, ∀ b, Members.get? found r.startAnchor = some b →
      (b.box.page == page) = true)
    (blocks : List (Block Float)) (anchors : List Anchor) (tolerance : Float) :
    PageExtract.inferTable l blocks region anchors found tolerance =
      PageExtract.inferTable l' blocks region anchors found tolerance := by
  -- Whichever page the first block of the region is on, the start anchor counts only if it is there.
  have hfirst : ∀ page', ∀ b ∈ startOf found page' region, (b.box.page == page) = true := by
    intro page' b hb
    unfold startOf at hb
    split at hb
    · rename_i r
      exact hregion r rfl b (Option.filter_eq_some_iff.1 hb).1
    · cases hb
  have hwithout : ∀ page' data, Table.withoutAnchors l tolerance (startOf found page' region) data =
      Table.withoutAnchors l' tolerance (startOf found page' region) data :=
    fun page' data => h.withoutAnchors (hfirst page') tolerance data
  unfold PageExtract.inferTable
  simp only [hwithout]

end Layout.AgreeOn

/-! ### Regions -/

/-- Whether the start anchor of a region was found on a page. -/
def Region.StartsOn (found : FoundAnchors Float) (page : Float) (r : Region) : Prop :=
  ∃ b, Members.get? found r.startAnchor = some b ∧ (b.box.page == page) = true

theorem Region.StartsOn.page {found : FoundAnchors Float} {page : Float} {r : Region}
    (hr : r.StartsOn found page) {b : Block Float}
    (hb : Members.get? found r.startAnchor = some b) : (b.box.page == page) = true := by
  obtain ⟨b', hb', hpage⟩ := hr
  cases hb.symm.trans hb'
  exact hpage

section

variable {l l' : Layout Float} {page : Float} {found : FoundAnchors Float}

/-- A region that starts on a page holds the same blocks in both documents. -/
theorem Region.value_find (h : l.AgreeOn l' page) {r : Region} (hr : r.StartsOn found page) :
    (r.find? l found).value = (r.find? l' found).value := by
  unfold Region.find?
  cases hget : Members.get? found r.startAnchor with
  | none => rfl
  | some start =>
    simp only
    split
    · unfold Region.between
      split
      · rfl
      · exact congrArg some (h.blocksBetween (hr.page hget) _)
    · rfl

/-- What is wrong with a region is a matter of anchors only. -/
theorem Region.warnings_find (l l' : Layout Float) (r : Region) :
    (r.find? l found).trace.warnings = (r.find? l' found).trace.warnings := by
  unfold Region.find?
  cases Members.get? found r.startAnchor with
  | none => rfl
  | some start =>
    simp only
    split
    · unfold Region.between
      split
      · rfl
      · rfl
    · rfl

/-- What is wrong with regions is a matter of anchors only. -/
theorem warnings_findRegions (l l' : Layout Float) (rs : List Region) :
    (findRegions l found rs).trace.warnings = (findRegions l' found rs).trace.warnings := by
  suffices h : ∀ so so', (findRegionsFrom l found so rs).trace.warnings =
      (findRegionsFrom l' found so' rs).trace.warnings from h [] []
  induction rs with
  | nil => exact fun so so' => rfl
  | cons r rs ih =>
    intro so so'
    rw [findRegionsFrom_cons, findRegionsFrom_cons, Trace.warnings_bind, Trace.warnings_bind,
      r.warnings_find l l', ih]

/-- A name of regions that all start on a page stands for the same blocks in both documents. -/
theorem get?_findRegions (h : l.AgreeOn l' page) {name : String} {rs : List Region}
    (hrs : ∀ r ∈ rs, r.name = name → r.StartsOn found page) :
    Members.get? (findRegions l found rs).value name =
      Members.get? (findRegions l' found rs).value name := by
  suffices hso : ∀ so so' : FoundRegions Float, Members.get? so name = Members.get? so' name →
      Members.get? (findRegionsFrom l found so rs).value name =
        Members.get? (findRegionsFrom l' found so' rs).value name from hso [] [] rfl
  induction rs with
  | nil => exact fun so so' hsame => hsame
  | cons r rs ih =>
    intro so so' hsame
    rw [findRegionsFrom_cons, findRegionsFrom_cons, Trace.value_bind, Trace.value_bind]
    refine ih (fun r' hr' => hrs r' (List.mem_cons_of_mem r hr')) _ _ ?_
    rw [FoundRegions.get?_add, FoundRegions.get?_add, hsame]
    -- A region of another name may hold different blocks, but is not asked for.
    by_cases hname : r.name = name
    · rw [if_pos hname, if_pos hname, Region.value_find h (hrs r List.mem_cons_self hname)]
    · rw [if_neg hname, if_neg hname]

end

/-! ### Fields -/

/-- No two regions of a processor that was read have one name, so that where one of them starts is
where all regions of its name start. -/
theorem Region.StartsOn.of_name {now : String} {v : Option (Value Float)} {p : Processor}
    (hp : Processor.ofInput now v = .ok p) {found : FoundAnchors Float} {page : Float} {r : Region}
    (hr : r ∈ p.regions) (hstart : r.StartsOn found page) :
    ∀ r' ∈ p.regions, r'.name = r.name → r'.StartsOn found page := by
  intro r' hr' hname
  have hsame : r' = r := List.inj_on_of_nodup_map (Processor.nodup_regions hp) hr' hr hname
  exact hsame ▸ hstart

/-- Whether a source names an anchor that was found on a page, or a region whose start anchor was.
A literal names nothing, and counts as being on every page. -/
def Source.OnPage (found : FoundAnchors Float) (regions : List Region) (page : Float) :
    Source → Prop
  | .anchorText anchor | .anchorRight anchor _ | .anchorNext anchor =>
    ∃ b, Members.get? found anchor = some b ∧ (b.box.page == page) = true
  | .regionText region | .regionColumn region _ | .regionRows region =>
    ∀ r ∈ regions, r.name = region → r.StartsOn found page
  | .literal _ => True

namespace Extraction

section

variable {l l' : Layout Float} {page : Float} {p : Processor} {found : FoundAnchors Float}
  {regions regions' : FoundRegions Float} {s : Settings Float}

theorem rightOf_local (h : l.AgreeOn l' page) {anchor : Block Float}
    (hanchor : (anchor.box.page == page) = true) :
    rightOf ⟨l, p, found, regions, s⟩ anchor = rightOf ⟨l', p, found, regions', s⟩ anchor := by
  rw [rightOf, rightOf, h.blocksInRow hanchor]

theorem tableOf_local (h : l.AgreeOn l' page) {name : String}
    (hname : ∀ r ∈ p.regions, r.name = name → r.StartsOn found page)
    (blocks : List (Block Float)) :
    tableOf ⟨l, p, found, regions, s⟩ name blocks =
      tableOf ⟨l', p, found, regions', s⟩ name blocks := by
  refine h.inferTable (fun r hr b hb => ?_) blocks p.anchors s.rowTolerance
  have hfind : p.regions.find? (fun r => r.name == name) = some r := hr
  have hsame : r.name = name := by simpa using List.find?_some hfind
  exact (hname r (List.mem_of_find?_eq_some hfind) hsame).page hb

theorem column_local (e : Extraction) (h : l.AgreeOn l' page) {name : String}
    (hname : ∀ r ∈ p.regions, r.name = name → r.StartsOn found page)
    (blocks : List (Block Float)) (declared : Nat) :
    e.column ⟨l, p, found, regions, s⟩ name blocks declared =
      e.column ⟨l', p, found, regions', s⟩ name blocks declared := by
  unfold column
  rw [tableOf_local h hname]

/-- A source on a page says the same of two documents that have the same blocks there. -/
theorem ofSource_local (e : Extraction) (h : l.AgreeOn l' page) {source : Source}
    (hsource : source.OnPage found p.regions page)
    (hregions : ∀ name, (∀ r ∈ p.regions, r.name = name → r.StartsOn found page) →
      Members.get? regions name = Members.get? regions' name) :
    e.ofSource ⟨l, p, found, regions, s⟩ source =
      e.ofSource ⟨l', p, found, regions', s⟩ source := by
  cases source with
  | literal value => rfl
  | anchorText anchor => rfl
  | anchorNext anchor =>
    obtain ⟨b, hb, hpage⟩ := hsource
    have hright : rightOf ⟨l, p, found, regions, s⟩ b = rightOf ⟨l', p, found, regions', s⟩ b :=
      rightOf_local h hpage
    simp only [ofSource, fromAnchor, hb, Option.bind_some, hright]
  | anchorRight anchor index =>
    obtain ⟨b, hb, hpage⟩ := hsource
    have hright : rightOf ⟨l, p, found, regions, s⟩ b = rightOf ⟨l', p, found, regions', s⟩ b :=
      rightOf_local h hpage
    simp only [ofSource, fromAnchor, hb, Option.bind_some, hright]
  | regionText region => simp only [ofSource, regionBlocks, hregions region hsource]
  | regionRows region => simp only [ofSource, regionBlocks, hregions region hsource]
  | regionColumn region declared =>
    have hcolumn : ∀ blocks, e.column ⟨l, p, found, regions, s⟩ region blocks declared =
        e.column ⟨l', p, found, regions', s⟩ region blocks declared :=
      fun blocks => e.column_local h hsource blocks declared
    simp only [ofSource, regionBlocks, hregions region hsource, hcolumn]

end

/-- What a field of a document is read as, with what is reported on the way, once anchors are found:
the regions are found first. -/
def readFrom (e : Extraction) (l : Layout Float) (p : Processor) (s : Settings Float)
    (found : FoundAnchors Float) : Traced (Option (Extracted Float)) := do
  let regions ← findRegions l found p.regions
  e.extract ⟨l, p, found, regions, s⟩

end Extraction

/-- Two documents with the same blocks on a page give the same value and the same warnings for a
field whose source is on that page, whatever else is in them. -/
theorem extract_local {l l' : Layout Float} {page : Float}
    (h : l.blocksOnPage page = l'.blocksOnPage page) (p : Processor) (s : Settings Float)
    (found : FoundAnchors Float) (e : Extraction)
    (he : ∀ source, Source.parse? e.source = some source → source.OnPage found p.regions page) :
    (e.readFrom l p s found).value = (e.readFrom l' p s found).value ∧
      (e.readFrom l p s found).trace.warnings = (e.readFrom l' p s found).trace.warnings := by
  have hregions : ∀ name, (∀ r ∈ p.regions, r.name = name → r.StartsOn found page) →
      Members.get? (findRegions l found p.regions).value name =
        Members.get? (findRegions l' found p.regions).value name :=
    fun name hname => get?_findRegions h hname
  have hraw : e.raw ⟨l, p, found, (findRegions l found p.regions).value, s⟩ =
      e.raw ⟨l', p, found, (findRegions l' found p.regions).value, s⟩ := by
    unfold Extraction.raw
    cases hsource : Source.parse? e.source with
    | some source => exact e.ofSource_local h (he source hsource) hregions
    | none => rfl
  have hextract : e.extract ⟨l, p, found, (findRegions l found p.regions).value, s⟩ =
      e.extract ⟨l', p, found, (findRegions l' found p.regions).value, s⟩ := by
    rw [Extraction.extract, Extraction.extract, hraw]
  constructor
  · rw [Extraction.readFrom, Extraction.readFrom, Trace.value_bind, Trace.value_bind, hextract]
  · rw [Extraction.readFrom, Extraction.readFrom, Trace.warnings_bind, Trace.warnings_bind,
      hextract, warnings_findRegions l l' p.regions]

/-- The score sheet with another table at the same height on another page. -/
def scoreBook : Layout Float :=
  let other (id text : String) (x y : Float) : Block Float :=
    ⟨id, text, ⟨x, y, x + 0.125, y + 0.0625, 0.0⟩, 99.0, none, false, .text⟩
  { scoreSheet with
    pageCount := 2.0
    blocks := [other "f" "Rank" 0.5 0.125, other "g" "3" 0.5 0.25] ++ scoreSheet.blocks ++
      [other "h" "4" 0.5 0.5] }

/-- The scores of the sheet are those of the book. -/
theorem extract_local_scoreBook :
    let score : Extraction := ⟨"players[].score", "region.table.column[1]", some .toInt⟩
    scoreSheet.blocksOnPage 1.0 = scoreBook.blocksOnPage 1.0 ∧
      scoreBook.blocks.length = scoreSheet.blocks.length + 3 ∧
      (score.readFrom scoreBook scoreProcessor .standard scoreAnchors).value =
        some (.many [.num 0.0, .num 7.0]) ∧
      (score.readFrom scoreBook scoreProcessor .standard scoreAnchors).trace.warnings = [] := by
  intro score
  have hread : Processor.ofInput "" (some scoreSpec) = .ok scoreProcessor := by rfl
  have hagree : scoreSheet.blocksOnPage 1.0 = scoreBook.blocksOnPage 1.0 := by decide +kernel
  have hstarts : Region.StartsOn scoreAnchors 1.0
      ⟨"table", "name", "end_of_document", .table, none⟩ :=
    ⟨sheetBlock "a" "Name" 0.125 0.125, by decide +kernel, by decide +kernel⟩
  have hsource : Source.parse? score.source = some (.regionColumn "table" 1) := by decide +kernel
  have hlocal := extract_local hagree scoreProcessor .standard scoreAnchors score
    fun source hparse => by
      cases hsource.symm.trans hparse
      exact Region.StartsOn.of_name hread List.mem_cons_self hstarts
  refine ⟨hagree, rfl, ?_, ?_⟩
  · rw [← hlocal.1]
    decide +kernel
  · rw [← hlocal.2]
    decide +kernel

end PageExtract
