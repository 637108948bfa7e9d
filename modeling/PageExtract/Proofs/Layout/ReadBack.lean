/-
Layouts that read back.

A layout on exact numbers whose parts fit together is accepted when it is written as a plain value
and read again, and nothing of it changes:

* `Box.IsSound`, `Block.IsSound`, `Layout.IsSound` — what the parts of a layout have to satisfy;
* `Box.IsSound.fits`, `Block.IsSound.fits`, `Layout.IsSound.fits` — the tests that they pass;
* `Layout.IsSound.ofValue_toValue` — the layout reads back.
-/
import PageExtract.Proofs.Layout.Accepted
import PageExtract.Proofs.Number.Exact
import PageExtract.Text.Blank

namespace PageExtract

/-! ### What fits together -/

/-- A box of page `page`, inside the unit square and with its edges the right way round. -/
structure Box.IsSound (page : Nat) (b : Box Rat) : Prop where
  left : 0 ≤ b.x0
  across : b.x0 ≤ b.x1
  right : b.x1 ≤ 1
  top : 0 ≤ b.y0
  down : b.y0 ≤ b.y1
  bottom : b.y1 ≤ 1
  page_eq : b.page = page

/-- A block of page `page` that is named and has a trimmed text. -/
structure Block.IsSound (page : Nat) (b : Block Rat) : Prop where
  id_ne : b.id ≠ ""
  text_ne : b.text ≠ ""
  trimmed : Text.trim b.text = b.text
  box : b.box.IsSound page
  sure : 0 ≤ b.confidence ∧ b.confidence ≤ 100
  fontSize : ∀ s ∈ b.fontSize, 0 < s

/-- A layout with `count` pages, whose blocks lie on them and have different ids. -/
structure Layout.IsSound (count : Nat) (l : Layout Rat) : Prop where
  pos : 0 < count
  pageCount : l.pageCount = count
  sized : l.pageSizes ≠ []
  blocks : ∀ b ∈ l.blocks, ∃ page < count, b.IsSound page
  distinct : (l.blocks.map (·.id)).Nodup

/-! ### Numbers -/

theorem inRange_of_le {most : Nat} {x : Rat} (hlow : 0 ≤ x) (hhigh : x ≤ most) :
    InRange most x := by
  have hmost : (Numeric.ofInt (most : Int) : Rat) = most := Numeric.ofNat_eq most
  unfold InRange
  rw [Numeric.zero_literal, hmost]
  exact ⟨hlow.not_gt, hhigh.not_gt⟩

theorem isInteger_natCast (n : Nat) : Numeric.isInteger (n : Rat) = true := by
  rw [← Numeric.ofNat_eq, Numeric.isInteger_ofNat]

/-! ### The parts of a layout -/

theorem Box.IsSound.fits {page : Nat} {b : Box Rat} (h : b.IsSound page) : b.Fits := by
  have hone : ((1 : Nat) : Rat) = 1 := Nat.cast_one
  refine ⟨inRange_of_le h.left (hone ▸ h.across.trans h.right),
    inRange_of_le h.top (hone ▸ h.down.trans h.bottom),
    inRange_of_le (h.left.trans h.across) (hone ▸ h.right),
    inRange_of_le (h.top.trans h.down) (hone ▸ h.bottom), ?_, ?_⟩
  · rw [h.page_eq]
    refine ⟨isInteger_natCast page, ?_⟩
    rw [Numeric.zero_literal]
    exact (Nat.cast_nonneg page).not_gt
  · simp [Box.isCrossed, h.across, h.down]

theorem Block.IsSound.fits {page : Nat} {b : Block Rat} (h : b.IsSound page) : b.Fits := by
  refine ⟨h.id_ne, h.box.fits, inRange_of_le h.sure.1 h.sure.2, fun s hs => ?_⟩
  rw [Numeric.zero_literal]
  exact (h.fontSize s hs).not_ge

theorem Layout.IsSound.fits {count : Nat} {l : Layout Rat} (h : l.IsSound count) : l.Fits := by
  refine ⟨?_, h.sized, fun b hb => ?_, fun b hb => ?_, h.distinct⟩
  · rw [h.pageCount]
    refine ⟨isInteger_natCast count, ?_⟩
    rw [Numeric.zero_literal]
    exact (Nat.cast_pos.2 h.pos).not_ge
  · obtain ⟨page, -, hb⟩ := h.blocks b hb
    exact hb.fits
  · obtain ⟨page, hpage, hb⟩ := h.blocks b hb
    rw [h.pageCount, hb.box.page_eq, not_le]
    exact Nat.cast_lt.2 hpage

/-- A sound layout reads back. -/
theorem Layout.IsSound.ofValue_toValue {n : Nat} {l : Layout Rat} (h : l.IsSound n)
    (limit : Int) : Layout.ofValue limit (some l.toValue) = .ok l := h.fits.ofValue_toValue limit

end PageExtract
