/-
The blocks of a PDF page.

Sizes of text items are not negative, and every item of a cell is one of the page. So the edges of
a cell lie the right way round, whichever of its items they come from:

* `TextItem.IsSound`, `PlacedItem.IsSound`, `TextItem.IsSound.place` — sizes that are not
  negative, given or made up;
* `exists_of_mem_cellBlocks`, `map_id_cellBlocks` — the blocks of a page, each with its cell and
  its number;
* `isSound_cellBlock`, `PdfPage.IsSound.blocks` — what holds of each block of a page;
* `pdfBlockId_inj`, `nodup_blocks` — ids of blocks.
-/
import Mathlib.Data.List.Nodup
import Mathlib.Tactic.Linarith
import PageExtract.Pdf.Basic
import PageExtract.Proofs.Layout.ReadBack
import PageExtract.Proofs.Number.Numeral
import PageExtract.Proofs.Pdf.Cells
import PageExtract.Proofs.Text.Trim

namespace PageExtract

/-! ### Items and their places -/

/-- The width and the height of an item are not negative, if they are given. -/
structure TextItem.IsSound (i : TextItem Rat) : Prop where
  width : ∀ w ∈ i.width, 0 ≤ w
  height : ∀ h ∈ i.height, 0 ≤ h

/-- The width and the height of a placed item are not negative. -/
structure PlacedItem.IsSound (i : PlacedItem Rat) : Prop where
  width : 0 ≤ i.width
  height : 0 ≤ i.height

/-- The scale of an item stands in for a size that is not given. -/
theorem getD_abs_nonneg {size : Option Rat} (h : ∀ s ∈ size, 0 ≤ s) (scale : Rat) :
    0 ≤ size.getD (Numeric.abs scale) := by
  cases size with
  | none => exact Numeric.zero_le_abs scale
  | some s => exact h s rfl

theorem TextItem.IsSound.placedWidth {i : TextItem Rat} (hi : i.IsSound) (text : String) :
    0 ≤ i.placedWidth text := by
  unfold TextItem.placedWidth
  simp only
  split
  · rw [Numeric.ofNat_eq]
    positivity
  · exact getD_abs_nonneg hi.width _

theorem TextItem.IsSound.place {i : TextItem Rat} (hi : i.IsSound) {p : PlacedItem Rat}
    (hp : i.place? = some p) : p.IsSound := by
  unfold TextItem.place? at hp
  simp only at hp
  split at hp
  · cases hp
  · cases hp
    exact ⟨hi.placedWidth _, getD_abs_nonneg hi.height _⟩

/-! ### Cells -/

section

variable {ν : Type} [Numeric ν]

theorem trim_cellText (cell : List (PlacedItem ν)) : Text.trim (cellText cell) = cellText cell := by
  cases cell with
  | nil => rfl
  | cons i is => exact Text.trim_joined (Text.isTrimmed_trimChars _)

/-- Each block of some cells is that of a cell with a text, and the blocks are numbered. -/
theorem exists_of_mem_cellBlocks {page width height : ν} {n : Nat}
    {cells : List (List (PlacedItem ν))} {b : Block ν}
    (hb : b ∈ cellBlocks page width height n cells) :
    ∃ m i is, i :: is ∈ cells ∧ cellText (i :: is) ≠ "" ∧
      b = cellBlock (pdfBlockId page m) (cellText (i :: is)) i is page width height := by
  fun_induction cellBlocks page width height n cells with
  | case1 => cases hb
  | case2 n cells ih =>
    obtain ⟨m, i, is, hmem, h⟩ := ih hb
    exact ⟨m, i, is, List.mem_cons_of_mem _ hmem, h⟩
  | case3 n i is cells text hempty ih =>
    obtain ⟨m, j, js, hmem, h⟩ := ih hb
    exact ⟨m, j, js, List.mem_cons_of_mem _ hmem, h⟩
  | case4 n i is cells text htext ih =>
    obtain rfl | hb := List.mem_cons.1 hb
    · refine ⟨n, i, is, List.mem_cons_self, fun h => htext ?_, rfl⟩
      exact String.isEmpty_iff.2 h
    · obtain ⟨m, j, js, hmem, h⟩ := ih hb
      exact ⟨m, j, js, List.mem_cons_of_mem _ hmem, h⟩

theorem map_id_cellBlocks (page width height : ν) (n : Nat)
    (cells : List (List (PlacedItem ν))) :
    (cellBlocks page width height n cells).map (·.id) =
      (List.range' n (cellBlocks page width height n cells).length).map (pdfBlockId page) := by
  fun_induction cellBlocks page width height n cells with
  | case1 => rfl
  | case2 n cells ih => exact ih
  | case3 n i is cells text hempty ih => exact ih
  | case4 n i is cells text htext ih =>
    rw [List.map_cons, ih, List.length_cons, List.range'_succ, List.map_cons]
    rfl

end

/-! ### Blocks -/

theorem pdfBlockId_ne (page : Rat) (n : Nat) : pdfBlockId page n ≠ "" := by
  intro h
  have hlist := congrArg String.toList h
  simp [pdfBlockId, toString] at hlist

/-- The block of a cell is sound, since the first item of the cell lies between its edges. -/
theorem isSound_cellBlock {id : String} (hid : id ≠ "") {i : PlacedItem Rat}
    {is : List (PlacedItem Rat)} (hi : i.IsSound) (htext : cellText (i :: is) ≠ "") {page : Nat}
    {width height : Rat} (hwidth : 0 < width) (hheight : 0 < height) :
    (cellBlock id (cellText (i :: is)) i is (Numeric.ofNat page) width height).IsSound page := by
  have hacross : Numeric.least i.x (is.map (·.x)) ≤
      Numeric.greatest i.right (is.map PlacedItem.right) := by
    have hright : i.x ≤ i.right := le_add_of_nonneg_right hi.width
    exact (Numeric.least_le _ _).trans (hright.trans (Numeric.le_greatest _ _))
  have hup : Numeric.least i.y (is.map (·.y)) ≤
      Numeric.greatest i.top (is.map PlacedItem.top) := by
    have htop : i.y ≤ i.top := le_add_of_nonneg_right hi.height
    exact (Numeric.least_le _ _).trans (htop.trans (Numeric.le_greatest _ _))
  refine ⟨hid, htext, trim_cellText _, ⟨Numeric.clampUnit_nonneg _, ?_, Numeric.clampUnit_le_one _,
    Numeric.clampUnit_nonneg _, ?_, Numeric.clampUnit_le_one _, rfl⟩, ?_, ?_⟩
  · exact Numeric.clampUnit_mono (div_le_div_of_nonneg_right hacross hwidth.le)
  · -- Heights are turned round, so the higher edge comes first.
    exact Numeric.clampUnit_mono (div_le_div_of_nonneg_right (by linarith) hheight.le)
  · show 0 ≤ (100.0 : Rat) ∧ (100.0 : Rat) ≤ 100
    norm_num
  · intro s hs
    unfold cellBlock at hs
    simp only [Option.mem_def] at hs
    split at hs
    · rename_i hpositive
      cases hs
      rwa [Numeric.zero_literal] at hpositive
    · cases hs

/-- A page with a size, and with items whose sizes are not negative. -/
structure PdfPage.IsSound (p : PdfPage Rat) : Prop where
  width : 0 < p.width
  height : 0 < p.height
  items : ∀ i ∈ p.items, i.IsSound

/-- Every block of a sound page is sound. -/
theorem PdfPage.IsSound.blocks {p : PdfPage Rat} (hp : p.IsSound) {index : Nat} {b : Block Rat}
    (hb : b ∈ p.blocks index) : b.IsSound index := by
  obtain ⟨m, i, is, hcell, htext, rfl⟩ := exists_of_mem_cellBlocks hb
  have hmem : i ∈ (pageCells p.items).flatten := List.mem_flatten_of_mem hcell List.mem_cons_self
  obtain ⟨item, hitem, hplace⟩ := List.mem_filterMap.1 ((perm_pageCells _).mem_iff.1 hmem)
  exact isSound_cellBlock (pdfBlockId_ne _ m) ((hp.items item hitem).place hplace) htext hp.width
    hp.height

/-! ### Ids -/

theorem toList_pdfBlockId (index n : Nat) :
    (pdfBlockId (Numeric.ofNat index : Rat) n).toList =
      'p' :: (Shortest.natDigits index ++ '_' :: 'b' :: Shortest.natDigits n) := by
  unfold pdfBlockId
  rw [Numeric.text_ofNat]
  simp [toString, Shortest.natDigits]

/-- The digits of an id tell the page and the number of its block. -/
theorem pdfBlockId_inj {index index' n n' : Nat}
    (h : pdfBlockId (Numeric.ofNat index : Rat) n = pdfBlockId (Numeric.ofNat index' : Rat) n') :
    index = index' ∧ n = n' := by
  have hlist := congrArg String.toList h
  rw [toList_pdfBlockId, toList_pdfBlockId, List.cons.injEq] at hlist
  -- The digits of the page end where the underscore stands.
  have hdigits := congrArg Numeral.digits hlist.2
  rw [Numeral.digits_run _ _ (fun _ => Numeral.isDigit_of_mem_natDigits) (by simp),
    Numeral.digits_run _ _ (fun _ => Numeral.isDigit_of_mem_natDigits) (by simp)] at hdigits
  simp only [Prod.mk.injEq, List.cons.injEq, true_and] at hdigits
  have hinj : ∀ {a b : Nat}, Shortest.natDigits a = Shortest.natDigits b → a = b := by
    intro a b hab
    rw [← Numeral.natOfDigits_natDigits a, hab, Numeral.natOfDigits_natDigits]
  exact ⟨hinj hdigits.1, hinj hdigits.2⟩

theorem exists_of_mem_blocks {p : PdfPage Rat} {index : Nat} {b : Block Rat}
    (hb : b ∈ p.blocks index) : ∃ n, b.id = pdfBlockId (Numeric.ofNat index : Rat) n := by
  obtain ⟨n, i, is, -, -, rfl⟩ := exists_of_mem_cellBlocks hb
  exact ⟨n, rfl⟩

/-- The blocks of a page have different ids. -/
theorem nodup_blocks (p : PdfPage Rat) (index : Nat) : ((p.blocks index).map (·.id)).Nodup := by
  unfold PdfPage.blocks pageBlocks
  rw [map_id_cellBlocks]
  exact (List.nodup_range' ..).map_on fun _ _ _ _ h => (pdfBlockId_inj h).2

end PageExtract
