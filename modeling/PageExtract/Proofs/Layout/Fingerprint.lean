/-
What a fingerprint tells.

The text that a fingerprint is made from lists the measures and the kinds of some blocks, with
commas within a block and bars between blocks. Neither of the two marks stands in a measure or in
the name of a kind, and none of these is empty. So the text can be cut into its blocks again, and it
tells how many there are:

* `intercalate_eq_iff` — texts with a mark between them;
* `Measured`, `SameMeasure`, `measureText_eq_iff` — numbers that are rounded alike;
* `Box.InUnit.measured` — the measures of a box inside the unit square;
* `SameStructure`, `Block.sameStructure_iff` — one block;
* `structureText_eq_iff` — all blocks that count.
-/
import Mathlib.Data.List.Forall2
import PageExtract.Layout.Fingerprint
import PageExtract.Proofs.Layout.Accepted
import PageExtract.Proofs.Number.Places
import PageExtract.Proofs.Number.Unit

namespace PageExtract

/-! ### Texts with a mark between them -/

/-- Whether a text can stand between two marks. -/
def IsEntry (mark : Char) (s : String) : Prop := s ≠ "" ∧ mark ∉ s.toList

/-- Cutting at the mark gives the entries back; of no entries an empty text is left. -/
theorem splitOn_intercalate_entries {mark : Char} {ss : List String}
    (hs : ∀ s ∈ ss, IsEntry mark s) :
    ([mark].intercalate (ss.map String.toList)).splitOn mark =
      if ss = [] then [[]] else ss.map String.toList := by
  by_cases hne : ss = []
  · rw [if_pos hne, hne]
    rfl
  · rw [if_neg hne]
    refine List.splitOn_intercalate mark ?_ (by simpa using hne)
    intro cs hcs
    obtain ⟨s, hmem, rfl⟩ := List.mem_map.1 hcs
    exact (hs s hmem).2

/-- Entries are read off the text that they are joined to. -/
theorem intercalate_eq_iff {mark : Char} {ss ts : List String} (hs : ∀ s ∈ ss, IsEntry mark s)
    (ht : ∀ t ∈ ts, IsEntry mark t) :
    (String.singleton mark).intercalate ss = (String.singleton mark).intercalate ts ↔ ss = ts := by
  constructor
  · intro h
    have hlist := congrArg (List.splitOn mark) (congrArg String.toList h)
    rw [String.toList_intercalate, String.toList_intercalate, String.toList_singleton,
      splitOn_intercalate_entries hs, splitOn_intercalate_entries ht] at hlist
    have hempty : ∀ {us : List String}, (∀ u ∈ us, IsEntry mark u) →
        [[]] ≠ us.map String.toList := by
      intro us hus hmap
      have hmem : [] ∈ us.map String.toList := hmap ▸ List.mem_singleton_self []
      obtain ⟨u, hu, hnil⟩ := List.mem_map.1 hmem
      exact (hus u hu).1 (String.toList_inj.1 hnil)
    by_cases hss : ss = []
    · by_cases hts : ts = []
      · rw [hss, hts]
      · rw [if_pos hss, if_neg hts] at hlist
        exact absurd hlist (hempty ht)
    · by_cases hts : ts = []
      · rw [if_neg hss, if_pos hts] at hlist
        exact absurd hlist.symm (hempty hs)
      · rw [if_neg hss, if_neg hts] at hlist
        exact (List.map_injective_iff.2 fun _ _ => String.toList_inj.1) hlist
  · intro h
    rw [h]

/-- Entries with another mark between them are an entry. -/
theorem IsEntry.intercalate {mark other : Char} (hmark : mark ≠ other) {s : String}
    {ss : List String} (hs : ∀ t ∈ s :: ss, IsEntry mark t) :
    IsEntry mark ((String.singleton other).intercalate (s :: ss)) := by
  induction ss generalizing s with
  | nil => exact hs s List.mem_cons_self
  | cons t ss ih =>
    obtain ⟨hfirst, hrest⟩ := List.forall_mem_cons.1 hs
    obtain ⟨hne, hfree⟩ := ih hrest
    rw [String.intercalate_cons_cons]
    constructor
    · intro hempty
      have hlist := congrArg String.toList hempty
      simp at hlist
    · simp only [String.toList_append, String.toList_singleton, List.mem_append,
        List.mem_singleton, not_or]
      exact ⟨⟨hfirst.2, hmark⟩, hfree⟩

/-! ### Measures -/

/-- A number that is neither negative nor greater than one. -/
def Measured (x : Float) : Prop := ∃ q, Numeric.exact x = some q ∧ 0 ≤ q ∧ q ≤ 1

/-- Such a number has a value, and one that is small enough to be written with its places. -/
theorem Measured.exists_value {x : Float} (h : Measured x) :
    ∃ q, Numeric.exact x = some q ∧ 0 ≤ q ∧ q < 10 ^ 21 := by
  obtain ⟨q, hexact, hq, hone⟩ := h
  have hlarge : (1 : ℚ) < 10 ^ 21 := by norm_num
  exact ⟨q, hexact, hq, hone.trans_lt hlarge⟩

/-- Numbers that are the same when they are rounded to two decimal places, a half upwards. -/
def SameMeasure (x y : Float) : Prop :=
  ∃ q r, Numeric.exact x = some q ∧ Numeric.exact y = some r ∧
    ⌊100 * q + 1 / 2⌋ = ⌊100 * r + 1 / 2⌋

instance (x y : Float) : Decidable (SameMeasure x y) :=
  decidable_of_iff (((Numeric.exact x).any fun q => (Numeric.exact y).any fun r =>
    ⌊100 * q + 1 / 2⌋ == ⌊100 * r + 1 / 2⌋) = true) <| by
    simp only [Option.any_eq_true, beq_iff_eq]
    constructor
    · rintro ⟨q, hq, r, hr, h⟩
      exact ⟨q, r, hq, hr, h⟩
    · rintro ⟨q, r, hq, hr, h⟩
      exact ⟨q, hq, r, hr, h⟩

theorem measureText_eq_iff {x y : Float} (hx : Measured x) (hy : Measured y) :
    measureText x = measureText y ↔ SameMeasure x y := by
  obtain ⟨q, hxq, hq, hqlt⟩ := hx.exists_value
  obtain ⟨r, hyr, hr, hrlt⟩ := hy.exists_value
  have hunits : ∀ t : ℚ, Shortest.placeUnits 2 t = ⌊100 * t + 1 / 2⌋ := fun t => by
    have hhundred : (10 : ℚ) ^ 2 = 100 := by norm_num
    rw [Shortest.placeUnits, hhundred]
  unfold measureText
  rw [Numeric.placed_eq_iff 2 hxq hyr hq hr hqlt hrlt, hunits, hunits]
  constructor
  · intro h
    exact ⟨q, r, hxq, hyr, h⟩
  · rintro ⟨q', r', hxq', hyr', h⟩
    obtain rfl := Option.some_inj.1 (hxq.symm.trans hxq')
    obtain rfl := Option.some_inj.1 (hyr.symm.trans hyr')
    exact h

/-- A measure is written with digits and a point. -/
theorem isEntry_measureText {mark : Char} (hdigit : mark.isDigit = false) (hpoint : mark ≠ '.')
    {x : Float} (hx : Measured x) : IsEntry mark (measureText x) := by
  obtain ⟨q, hxq, hq, hqlt⟩ := hx.exists_value
  unfold measureText
  rw [Numeric.placed_eq 2 hxq hq hqlt]
  constructor
  · intro hempty
    have hlist := congrArg String.toList hempty
    rw [String.toList_ofList, Shortest.placesText] at hlist
    simp at hlist
  · rw [String.toList_ofList]
    intro hmem
    obtain h | h := Shortest.mem_placesText hmem
    · exact Bool.false_ne_true (hdigit.symm.trans h)
    · exact hpoint h

/-- The four measures of a box inside the unit square that a fingerprint knows of. -/
theorem Box.InUnit.measured {b : Box Float} (h : b.InUnit) :
    Measured b.x0 ∧ Measured b.y0 ∧ Measured b.width ∧ Measured b.height := by
  have hedge : ∀ {x y : Float}, 0.0 ≤ x → x ≤ y → y ≤ 1.0 → Measured x := by
    intro x y hx hxy hy
    obtain ⟨q, hq, hone⟩ := Double.exists_worth hx (Double.le_trans hxy hy)
    exact ⟨q, hq.exact, hq.nonneg, hone⟩
  exact ⟨hedge h.left h.across h.right, hedge h.top h.down h.bottom,
    Double.exact_sub h.left h.across h.right, Double.exact_sub h.top h.down h.bottom⟩

/-! ### Blocks -/

theorem BlockKind.name_inj {k k' : BlockKind} : k.name = k'.name ↔ k = k' := by
  cases k <;> cases k' <;> simp [BlockKind.name]

/-- Blocks that agree in all that a fingerprint knows of: their left and top edges, their extents
and their kind. -/
structure SameStructure (b c : Block Float) : Prop where
  left : SameMeasure b.box.x0 c.box.x0
  top : SameMeasure b.box.y0 c.box.y0
  width : SameMeasure b.box.width c.box.width
  height : SameMeasure b.box.height c.box.height
  kind : b.kind = c.kind

/-- The entries for a block. -/
theorem isEntry_of_mem {mark : Char} (hdigit : mark.isDigit = false) (hpoint : mark ≠ '.')
    (hname : ∀ k : BlockKind, mark ∉ k.name.toList) {b : Block Float} (h : b.box.InUnit) :
    ∀ s ∈ [measureText b.box.x0, measureText b.box.y0, measureText b.box.width,
      measureText b.box.height, b.kind.name], IsEntry mark s := by
  obtain ⟨hx0, hy0, hwidth, hheight⟩ := h.measured
  have hkind : b.kind.name ≠ "" := by
    cases b.kind <;> decide
  simp only [List.forall_mem_cons]
  exact ⟨isEntry_measureText hdigit hpoint hx0, isEntry_measureText hdigit hpoint hy0,
    isEntry_measureText hdigit hpoint hwidth, isEntry_measureText hdigit hpoint hheight,
    ⟨hkind, hname b.kind⟩, List.forall_mem_nil _⟩

theorem Block.sameStructure_iff {b c : Block Float} (hb : b.box.InUnit) (hc : c.box.InUnit) :
    b.structureText = c.structureText ↔ SameStructure b c := by
  have hcomma : ∀ k : BlockKind, ',' ∉ k.name.toList := by
    intro k
    cases k <;> decide
  obtain ⟨hbx0, hby0, hbwidth, hbheight⟩ := hb.measured
  obtain ⟨hcx0, hcy0, hcwidth, hcheight⟩ := hc.measured
  unfold Block.structureText
  show (String.singleton ',').intercalate _ = (String.singleton ',').intercalate _ ↔ _
  rw [intercalate_eq_iff (isEntry_of_mem (by decide) (by decide) hcomma hb)
    (isEntry_of_mem (by decide) (by decide) hcomma hc)]
  simp only [List.cons.injEq, and_true, measureText_eq_iff hbx0 hcx0, measureText_eq_iff hby0 hcy0,
    measureText_eq_iff hbwidth hcwidth, measureText_eq_iff hbheight hcheight, BlockKind.name_inj]
  constructor
  · rintro ⟨hleft, htop, hwidth, hheight, hkind⟩
    exact ⟨hleft, htop, hwidth, hheight, hkind⟩
  · intro h
    exact ⟨h.left, h.top, h.width, h.height, h.kind⟩

/-- The text of a block has no bar. -/
theorem isEntry_structureText {b : Block Float} (h : b.box.InUnit) :
    IsEntry '|' b.structureText := by
  have hbar : ∀ k : BlockKind, '|' ∉ k.name.toList := by
    intro k
    cases k <;> decide
  show IsEntry '|' ((String.singleton ',').intercalate _)
  exact IsEntry.intercalate (by decide) (isEntry_of_mem (by decide) (by decide) hbar h)

theorem takeTo_natCast {α : Type} (n : Nat) (xs : List α) : takeTo (n : Int) xs = xs.take n := by
  unfold takeTo
  rw [if_neg (Int.natCast_nonneg n).not_gt, Int.toNat_natCast]

/-- Fingerprints are made from the same text exactly if as many blocks count and these have the same
structure. -/
theorem structureText_eq_iff {bs cs : List (Block Float)} (hbs : ∀ b ∈ bs, b.Fits)
    (hcs : ∀ c ∈ cs, c.Fits) (n : Nat) :
    structureText bs n = structureText cs n ↔
      List.Forall₂ SameStructure (bs.take n) (cs.take n) := by
  have hunit : ∀ {ds : List (Block Float)}, (∀ d ∈ ds, d.Fits) → ∀ d ∈ ds.take n, d.box.InUnit :=
    fun hds d hd => (hds d (List.mem_of_mem_take hd)).box.inUnit
  have hentries : ∀ {ds : List (Block Float)}, (∀ d ∈ ds, d.Fits) →
      ∀ s ∈ (ds.take n).map Block.structureText, IsEntry '|' s := by
    intro ds hds s hs
    obtain ⟨d, hd, rfl⟩ := List.mem_map.1 hs
    exact isEntry_structureText (hunit hds d hd)
  unfold structureText
  rw [takeTo_natCast, takeTo_natCast]
  show (String.singleton '|').intercalate _ = (String.singleton '|').intercalate _ ↔ _
  rw [intercalate_eq_iff (hentries hbs) (hentries hcs), ← List.forall₂_eq_eq_eq,
    List.forall₂_map_left_iff, List.forall₂_map_right_iff, List.forall₂_iff_get,
    List.forall₂_iff_get]
  refine and_congr_right fun _ => forall_congr' fun i => forall₂_congr fun hi hi' => ?_
  exact Block.sameStructure_iff (hunit hbs _ (List.get_mem _ _)) (hunit hcs _ (List.get_mem _ _))

/-- A block of one line. -/
def nameBlock : Block Float := ⟨"b1", "Total", ⟨0.1, 0.8, 0.2, 0.82, 0⟩, 90.0, none, false, .text⟩

/-- Another text on another page, at almost the same place. -/
def sumBlock : Block Float :=
  ⟨"c7", "Sum", ⟨0.104, 0.8, 0.2, 0.82, 3⟩, 100.0, some 9.0, true, .text⟩

theorem structureText_eq_iff_total :
    (∀ b ∈ [nameBlock], b.Fits) ∧ (∀ c ∈ [sumBlock, nameBlock], c.Fits) ∧
      structureText [nameBlock] (1 : Nat) = structureText [sumBlock, nameBlock] (1 : Nat) := by
  have htotal : nameBlock.Fits := by
    refine ⟨by decide, ⟨?_, ?_, ?_, ?_, ?_, ?_⟩, ?_, nofun⟩ <;> decide +kernel
  have hsize : ∀ s ∈ sumBlock.fontSize, ¬ s ≤ 0.0 := by
    intro s hs
    cases hs
    decide
  have hsum : sumBlock.Fits := by
    refine ⟨by decide, ⟨?_, ?_, ?_, ?_, ?_, ?_⟩, ?_, hsize⟩ <;> decide +kernel
  have hbs : ∀ b ∈ [nameBlock], b.Fits := by simpa using htotal
  have hcs : ∀ c ∈ [sumBlock, nameBlock], c.Fits := by simpa using ⟨hsum, htotal⟩
  refine ⟨hbs, hcs, (structureText_eq_iff hbs hcs 1).2 (.cons ?_ .nil)⟩
  exact ⟨by decide +kernel, by decide +kernel, by decide +kernel, by decide +kernel, rfl⟩

end PageExtract
