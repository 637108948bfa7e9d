/-
Layouts of PDF documents that can be read.

If the pages of a document have a size and their text items have no negative one, then the layout
of the document is one that readers of layouts accept:

* `contentFrom_ok` — what pages give that can all be read;
* `nodup_blocksFrom` — blocks of one document have different ids;
* `PdfDocument.layout_readBack` — the layout of the document, and that it reads back.
-/
import PageExtract.Proofs.Pdf.Blocks

namespace PageExtract

/-- The blocks of some pages, the first of which is page `index`. -/
def blocksFrom (index : Nat) (pages : List (PdfPage Rat)) : List (Block Rat) :=
  (pages.zipIdx index).flatMap fun p => p.1.blocks p.2

/-- Pages that can be read give their blocks and their sizes, page by page. -/
theorem contentFrom_ok (index : Nat) (pages : List (PdfPage Rat)) :
    ∃ warnings, contentFrom index (pages.map .ok) =
      .ok ⟨blocksFrom index pages, pages.map fun p => (p.width, p.height), warnings⟩ := by
  induction pages generalizing index with
  | nil => exact ⟨[], rfl⟩
  | cons p pages ih =>
    obtain ⟨warnings, hrest⟩ := ih (index + 1)
    rw [List.map_cons, contentFrom, hrest]
    exact ⟨_, rfl⟩

/-- Blocks of one document have different ids, since an id tells the page and the number of its
block there. -/
theorem nodup_blocksFrom (index : Nat) (pages : List (PdfPage Rat)) :
    ((blocksFrom index pages).map (·.id)).Nodup := by
  induction pages generalizing index with
  | nil => exact List.nodup_nil
  | cons p pages ih =>
    have hstep : blocksFrom index (p :: pages) = p.blocks index ++ blocksFrom (index + 1) pages :=
      rfl
    rw [hstep, List.map_append]
    refine (nodup_blocks p index).append (ih (index + 1)) fun id hhere hlater => ?_
    obtain ⟨b, hb, rfl⟩ := List.mem_map.1 hhere
    obtain ⟨b', hb', heq⟩ := List.mem_map.1 hlater
    obtain ⟨⟨p', index'⟩, hp', hb'⟩ := List.mem_flatMap.1 hb'
    obtain ⟨n, hn⟩ := exists_of_mem_blocks hb
    obtain ⟨n', hn'⟩ := exists_of_mem_blocks hb'
    rw [hn, hn'] at heq
    have hlater := (List.mem_zipIdx hp').1
    exact absurd (pdfBlockId_inj heq).1 (by omega)

/-- The layout of a document with pages holds their blocks, each of which is sound and has an id
of its own, and it reads back. -/
theorem PdfDocument.layout_readBack {pages : List (PdfPage Rat)} (hpages : pages ≠ [])
    (hsound : ∀ p ∈ pages, p.IsSound) (filename : Option String) (limit : Int) :
    (∀ p ∈ pages, ∀ index, ∀ b ∈ p.blocks index, b.IsSound index) ∧
      ∃ l, PdfDocument.layout ⟨pages.map .ok⟩ filename limit = .ok l ∧
        l.blocks = pages.zipIdx.flatMap (fun p => p.1.blocks p.2) ∧
        (l.blocks.map (·.id)).Nodup ∧
        ∀ limit', Layout.ofValue limit' (some l.toValue) = .ok l := by
  have hblocks : ∀ p ∈ pages, ∀ index, ∀ b ∈ p.blocks index, b.IsSound index :=
    fun p hp _ _ hb => (hsound p hp).blocks hb
  obtain ⟨warnings, hcontent⟩ := contentFrom_ok 0 pages
  refine ⟨hblocks, ⟨filename, pages.length, pages.map fun p => (p.width, p.height),
    blocksFrom 0 pages, fingerprint (blocksFrom 0 pages) limit,
    if warnings.isEmpty then none else some warnings⟩, ?_, rfl, nodup_blocksFrom 0 pages, ?_⟩
  · unfold PdfDocument.layout
    rw [hcontent, List.length_map]
    rfl
  · refine Layout.IsSound.ofValue_toValue (n := pages.length)
      ⟨List.length_pos_of_ne_nil hpages, rfl, by simpa using hpages, fun b hb => ?_,
        nodup_blocksFrom 0 pages⟩
    obtain ⟨⟨p, index⟩, hp, hb⟩ := List.mem_flatMap.1 hb
    obtain ⟨-, hindex, hget⟩ := List.mem_zipIdx hp
    have hmem : p ∈ pages := hget ▸ List.getElem_mem _
    exact ⟨index, by omega, hblocks p hmem index b hb⟩

/-- A page with one word whose width is not given. -/
def wordPage : PdfPage Rat := ⟨612, 792, [⟨" Total", 10, 10, 72, 700, none, some 12⟩]⟩

theorem cellText_wordPage : cellText [⟨" Total", (72 : Rat), 700, 10, 12⟩] = "Total" := by
  rw [cellText, Text.joined_of_whole (by decide +kernel)]
  decide +kernel

theorem blocks_wordPage : (wordPage.blocks 0).map (fun b => (b.id, b.text, b.box)) =
    [("p0_b0", "Total", ⟨72 / 612, 80 / 792, 82 / 612, 92 / 792, 0⟩)] := by
  have hcells : (linesOf (wordPage.items.filterMap TextItem.place?)).flatMap cellsOf =
      [[⟨" Total", 72, 700, 10, 12⟩]] := by decide +kernel
  unfold PdfPage.blocks pageBlocks
  rw [hcells]
  simp only [cellBlocks, cellText_wordPage]
  decide +kernel

/-- The layout of a document of one page with one block. -/
theorem layout_readBack_wordPage :
    (wordPage.blocks 0).map (·.text) = ["Total"] ∧
      ∃ l, PdfDocument.layout ⟨[.ok wordPage]⟩ none 50 = .ok l ∧
        l.blocks = wordPage.blocks 0 ++ [] ∧ (l.blocks.map (·.id)).Nodup ∧
        ∀ limit', Layout.ofValue limit' (some l.toValue) = .ok l := by
  have hsound : wordPage.IsSound := by
    refine ⟨by decide, by decide, fun i hi => ?_⟩
    obtain rfl := List.mem_singleton.1 hi
    exact ⟨nofun, by decide⟩
  have hblocks := congrArg (List.map fun b => b.2.1) blocks_wordPage
  rw [List.map_map] at hblocks
  refine ⟨hblocks, (PdfDocument.layout_readBack (List.cons_ne_nil wordPage []) ?_ none 50).2⟩
  exact fun p hp => List.mem_singleton.1 hp ▸ hsound

end PageExtract
