/-
What a table keeps of its region.

A table has each block of its region at most once, and leaves out only what has the id of an anchor
that can head its columns, or of a block from which its columns come. In a document the ids of
blocks differ, so that a block with the id of another one is that block. An anchor that was joined
from several blocks is no block of the document, and nothing keeps a block of the document from
having the id that was made for it: such a block is left out although it is no header.

* `subperm_inferTable` — a table has no block twice, and none that is not in its region;
* `subperm_of_find?` — nor has a region;
* `inferTable_keeps` — which blocks of a region a table leaves out;
* `inferTable_loses` — a value that is lost because of its id.
-/
import Mathlib.Data.List.Perm.Subperm
import PageExtract.Proofs.Anchor.Origin
import PageExtract.Proofs.Table.Headers

namespace PageExtract

/-! ### Parts of lists -/

theorem nodup_map_of_subperm {α β : Type} {xs ys : List α} (f : α → β) (h : xs.Subperm ys)
    (hys : (ys.map f).Nodup) : (xs.map f).Nodup := by
  obtain ⟨zs, hperm, hsub⟩ := h
  exact (hperm.map f).nodup_iff.1 (hys.sublist (hsub.map f))

section

variable {ν : Type} [Numeric ν]

theorem subperm_ofHeaders (tolerance : ν) (headers : List (Block ν)) {data blocks : List (Block ν)}
    (h : data.Subperm blocks) :
    (Table.ofHeaders tolerance headers data).rows.flatten.Subperm blocks :=
  (perm_groupRows tolerance data).subperm.trans h

theorem subperm_ofRows (rows : List (List (Block ν))) :
    (Table.ofRows rows).rows.flatten.Subperm rows.flatten := by
  cases rows with
  | nil => exact .refl _
  | cons row rows => exact (List.sublist_append_right row rows.flatten).subperm

theorem subperm_withoutAnchors (l : Layout ν) (tolerance : ν) (start : Option (Block ν))
    (data : List (Block ν)) :
    (Table.withoutAnchors l tolerance start data).rows.flatten.Subperm data := by
  unfold Table.withoutAnchors
  split
  · exact subperm_ofHeaders tolerance _ List.filter_sublist.subperm
  · exact (subperm_ofRows _).trans (perm_groupRows tolerance data).subperm

/-- The rows of a table have no block more often than its region. -/
theorem subperm_inferTable (l : Layout ν) (blocks : List (Block ν)) (region : Option Region)
    (anchors : List Anchor) (found : FoundAnchors ν) (tolerance : ν) :
    (inferTable l blocks region anchors found tolerance).rows.flatten.Subperm blocks := by
  cases blocks with
  | nil => exact .refl _
  | cons first more =>
    rw [inferTable_cons]
    simp only
    generalize headerCandidates found first.box.page [] (headerNames region anchors) = candidates
    cases hdata : (first :: more).filter fun b => !b.isAmong candidates with
    | nil => exact List.nil_subperm
    | cons b bs =>
      have hsub : (b :: bs).Subperm (first :: more) := hdata ▸ List.filter_sublist.subperm
      rw [Table.ofData]
      split
      · exact (subperm_withoutAnchors l tolerance _ _).trans hsub
      · exact subperm_ofHeaders tolerance _ hsub

end

/-! ### Regions -/

theorem subperm_blocksBetween (l : Layout Float) (start : Block Float)
    (stop : Option (Block Float)) : (l.blocksBetween start stop).Subperm l.blocks := by
  unfold Layout.blocksBetween
  simp only
  split
  · exact List.nil_subperm
  · refine (sortBy_perm aboveOrLeft _).subperm.trans ?_
    exact (List.filter_sublist.trans List.filter_sublist).subperm

/-- A region has no block more often than the document. -/
theorem subperm_of_find? {l : Layout Float} {found : FoundAnchors Float} {r : Region}
    {blocks : List (Block Float)} (h : (r.find? l found).value = some blocks) :
    blocks.Subperm l.blocks := by
  unfold Region.find? at h
  simp only at h
  split at h
  · split at h
    · unfold Region.between at h
      split at h
      · cases h
      · cases h
        exact subperm_blocksBetween l _ _
    · cases h
  · cases h

/-! ### Blocks that are left out -/

/-- A block with the id of one at which an anchor can be found is that block, unless the anchor is
joined. -/
theorem eq_or_joined {l : Layout Float} (hids : (l.blocks.map (·.id)).Nodup) {c h : Block Float}
    (hc : c ∈ l.blocks) (hh : l.Origin h) (hid : h.id = c.id) :
    h = c ∨ ∃ b ∈ l.blocks, ∃ more, h = joinChain b more := by
  cases hh with
  | block hb => exact .inl (List.inj_on_of_nodup_map hids hb hc hid)
  | joined hb more => exact .inr ⟨_, hb, more, rfl⟩

/-- The table of a region has blocks of the region, none of them twice. A block of the region is
left out exactly if it is an anchor that can head the columns, if it is one of the headers from which
the columns come, or if its id is the one that was made for a joined block among these. -/
theorem inferTable_keeps {l : Layout Float} (hids : (l.blocks.map (·.id)).Nodup)
    {s : Settings Float} {specs : List Anchor} {found : FoundAnchors Float}
    (hfound : (findAnchors l s specs).value = .ok found) {r : Region} {first : Block Float}
    {more : List (Block Float)} (hregion : (r.find? l found).value = some (first :: more))
    (region : Option Region) (anchors : List Anchor) (tolerance : Float) :
    let t := inferTable l (first :: more) region anchors found tolerance
    let names := headerNames region anchors
    t.rows.flatten.Nodup ∧ t.rows.flatten ⊆ first :: more ∧
      ∃ headers, t.columns = columnRanges headers ∧
        ∀ c ∈ first :: more, c ∉ t.rows.flatten ↔
          Heads found first.box.page names c ∨ c ∈ headers ∨
            ∃ b ∈ l.blocks, c.id = "proximity_" ++ b.id ∧ ∃ bs,
              Heads found first.box.page names (joinChain b bs) ∨ joinChain b bs ∈ headers := by
  intro t names
  have hinside := subperm_of_find? hregion
  have hdistinct := nodup_map_of_subperm (·.id) hinside hids
  have hrows := subperm_inferTable l (first :: more) region anchors found tolerance
  obtain ⟨headers, hsplits, horigin⟩ :=
    exists_headers_inferTable l hdistinct region anchors found tolerance
  refine ⟨(nodup_map_of_subperm _ hrows hdistinct).of_map, hrows.subset, headers,
    hsplits.columns, fun c hc => ?_⟩
  have hheads : ∀ h, Heads found first.box.page names h → l.Origin h := by
    rintro h ⟨name, -, hget, -⟩
    exact origin_findAnchors hfound hget
  have hheaders : ∀ h ∈ headers, l.Origin h := by
    intro h hh
    obtain hmem | hmem | ⟨name, hget⟩ := horigin h hh
    · exact .block (hinside.subset hmem)
    · exact .block hmem
    · exact origin_findAnchors hfound hget
  -- What is left out has the id of a candidate or of a header.
  have hout : c ∉ t.rows.flatten ↔
      (∃ h, Heads found first.box.page names h ∧ h.id = c.id) ∨ ∃ h ∈ headers, h.id = c.id := by
    have hnone : ¬ c.isAmong ([] : List (Block Float)) = true := Bool.false_ne_true
    rw [List.mem_flatten, hsplits.mem_rows, List.mem_filter, Bool.not_eq_true', and_iff_right hc,
      not_and_or, Bool.not_eq_false, Bool.not_eq_false, isAmong_headerCandidates,
      or_iff_right hnone, Block.isAmong_iff]
  have hknown : ∀ h, l.Origin h → h.id = c.id →
      h = c ∨ ∃ b ∈ l.blocks, ∃ bs, h = joinChain b bs :=
    fun h => eq_or_joined hids (hinside.subset hc)
  rw [hout]
  constructor
  · rintro (⟨h, hh, hid⟩ | ⟨h, hh, hid⟩)
    · obtain rfl | ⟨b, hb, bs, rfl⟩ := hknown h (hheads h hh) hid
      · exact .inl hh
      · exact .inr (.inr ⟨b, hb, hid.symm, bs, .inl hh⟩)
    · obtain rfl | ⟨b, hb, bs, rfl⟩ := hknown h (hheaders h hh) hid
      · exact .inr (.inl hh)
      · exact .inr (.inr ⟨b, hb, hid.symm, bs, .inr hh⟩)
  · rintro (hh | hh | ⟨b, -, hid, bs, hh | hh⟩)
    · exact .inl ⟨c, hh, rfl⟩
    · exact .inr ⟨c, hh, rfl⟩
    · exact .inl ⟨_, hh, hid.symm⟩
    · exact .inr ⟨_, hh, hid.symm⟩

/-! ### A value with the id of an anchor -/

/-- A block on a line of the order. -/
def orderBlock (id text : String) (x0 x1 y : Float) : Block Float :=
  ⟨id, text, ⟨x0, y, x1, y + 0.02, 0.0⟩, 99.0, none, false, .text⟩

def orderItem : Block Float := orderBlock "b" "Item" 0.1 0.2 0.1

def orderUnit : Block Float := orderBlock "c" "Unit" 0.5 0.55 0.1

def orderPrice : Block Float := orderBlock "d" "price" 0.56 0.62 0.1

def orderPen : Block Float := orderBlock "e" "Pen" 0.1 0.2 0.2

/-- The price of the pen. Its id is the one that is made for an anchor which begins with `Unit`. -/
def orderValue : Block Float := orderBlock "proximity_c" "2" 0.5 0.55 0.2

/-- A table with one row below its headers. -/
def orderSheet : Layout Float :=
  ⟨none, 1.0, [(612.0, 792.0)], [orderItem, orderUnit, orderPrice, orderPen, orderValue], "", none⟩

def orderAnchors : List Anchor :=
  [⟨"item", ["Item"], .contains, none, true, some .columnHeader⟩,
    ⟨"price", ["Unit price"], .contains, none, true, some .columnHeader⟩]

/-- The anchors of the sheet: the second one is joined from two words. -/
def orderFound : FoundAnchors Float :=
  [("item", orderItem), ("price", joinChain orderUnit [orderPrice])]

def orderRegion : Region := ⟨"table", "item", "end_of_document", .table, none⟩

theorem findAnchors_order :
    (findAnchors orderSheet .standard orderAnchors).value = .ok orderFound := by
  have hfound :
      (findAnchors orderSheet .standard orderAnchors).value.toOption = some orderFound := by
    decide +kernel
  cases h : (findAnchors orderSheet .standard orderAnchors).value with
  | error error =>
    rw [h] at hfound
    cases hfound
  | ok found =>
    rw [h] at hfound
    rw [Option.some.inj hfound]

theorem find?_order :
    (orderRegion.find? orderSheet orderFound).value = some [orderPen, orderValue] := by
  decide +kernel

/-- The table of the sheet has some of the two blocks below its headers, each at most once, and what
it has not is left out for a reason. -/
theorem inferTable_keeps_order :
    let t := inferTable orderSheet [orderPen, orderValue] (some orderRegion) orderAnchors orderFound
      0.015
    let names := headerNames (some orderRegion) orderAnchors
    t.rows.flatten.Nodup ∧ t.rows.flatten ⊆ [orderPen, orderValue] ∧
      ∃ headers, t.columns = columnRanges headers ∧
        ∀ c ∈ [orderPen, orderValue], c ∉ t.rows.flatten ↔
          Heads orderFound 0.0 names c ∨ c ∈ headers ∨
            ∃ b ∈ orderSheet.blocks, c.id = "proximity_" ++ b.id ∧ ∃ bs,
              Heads orderFound 0.0 names (joinChain b bs) ∨ joinChain b bs ∈ headers := by
  have hids : (orderSheet.blocks.map (·.id)).Nodup := by decide
  exact inferTable_keeps hids findAnchors_order find?_order (some orderRegion) orderAnchors 0.015

/-- The price is neither found as an anchor nor a header, and it is not in the table. -/
theorem inferTable_loses :
    (orderSheet.blocks.map (·.id)).Nodup ∧
    (findAnchors orderSheet .standard orderAnchors).value.toOption = some orderFound ∧
    (orderRegion.find? orderSheet orderFound).value = some [orderPen, orderValue] ∧
    orderValue ∉ orderFound.map (·.2) ∧
    let t := inferTable orderSheet [orderPen, orderValue] (some orderRegion) orderAnchors orderFound
      0.015
    t.columns = columnRanges [orderItem, joinChain orderUnit [orderPrice]] ∧
      t.rows = [[orderPen]] := by
  refine ⟨by decide, by decide +kernel, by decide +kernel, by decide +kernel, ?_⟩
  decide +kernel

end PageExtract
