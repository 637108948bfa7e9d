/-
Layouts that were read.

The blocks of a layout that was read lie inside the unit square, on pages of the document and under
different ids. If all numbers were finite then the text of the layout is read as the same layout,
except that a zero has no sign, whatever the limits of the fingerprints are:

* `Layout.map`, `Layout.unsigned`, `Layout.toValue_map` — a layout with its numbers changed;
* `Layout.fits_of_ofValue`, `Layout.Fits.unsigned` — what is read passes the tests, also when the
  zeros in it lose their signs;
* `Reader.KeepsFinite`, `Layout.isFinite_of_ofValue` — what is read of data with finite numbers is
  such data;
* `Block.Placed`, `Layout.ofInput_settled` — the blocks of a layout, and its text.
-/
import PageExtract.Proofs.Layout.Accepted
import PageExtract.Proofs.Number.Zero
import PageExtract.Proofs.Schema.Faithful
import PageExtract.Proofs.Value.Parsed

namespace PageExtract

open Reader Checked Members

/-! ### Layouts with other numbers -/

section

variable {ν : Type} (f : ν → ν)

/-- A box with its numbers changed. -/
def Box.map (b : Box ν) : Box ν := ⟨f b.x0, f b.y0, f b.x1, f b.y1, f b.page⟩

/-- A block with its numbers changed. -/
def Block.map (b : Block ν) : Block ν :=
  { b with box := b.box.map f, confidence := f b.confidence, fontSize := b.fontSize.map f }

/-- A layout with its numbers changed. -/
def Layout.map (l : Layout ν) : Layout ν :=
  { l with
    pageCount := f l.pageCount
    pageSizes := l.pageSizes.map fun s => (f s.1, f s.2)
    blocks := l.blocks.map (Block.map f) }

theorem Block.toValue_map (b : Block ν) : (b.map f).toValue = b.toValue.mapNumbers f := by
  obtain ⟨id, text, box, confidence, fontSize, bold, kind⟩ := b
  cases fontSize <;> rfl

theorem map_optionalMember {α : Type} (key : String) (out : α → Value ν) (a? : Option α) :
    (optionalMember key out a?).map (fun m => (m.1, m.2.mapNumbers f)) =
      optionalMember key (fun a => (out a).mapNumbers f) a? := by
  cases a? <;> rfl

theorem mapNumbers_textsValue (texts : List String) :
    (textsValue texts : Value ν).mapNumbers f = textsValue texts := by
  rw [textsValue, Value.mapNumbers_list, List.map_map]
  rfl

theorem Layout.toValue_map (l : Layout ν) : (l.map f).toValue = l.toValue.mapNumbers f := by
  have hsizes : Value.list ((l.map f).pageSizes.map fun s => .list [.num s.1, .num s.2]) =
      (Value.list (l.pageSizes.map fun s => .list [.num s.1, .num s.2])).mapNumbers f := by
    rw [Value.mapNumbers_list, List.map_map, Layout.map, List.map_map]
    rfl
  have hblocks : Value.list ((l.map f).blocks.map Block.toValue) =
      (Value.list (l.blocks.map Block.toValue)).mapNumbers f := by
    rw [Value.mapNumbers_list, List.map_map, Layout.map, List.map_map]
    exact congrArg Value.list (List.map_congr_left fun b _ => b.toValue_map f)
  rw [toValue, toValue, Value.mapNumbers_map, List.map_append, List.map_append,
    map_optionalMember, map_optionalMember, hsizes, hblocks]
  simp only [mapNumbers_textsValue]
  rfl

end

/-- A layout without the signs of zeros. -/
def Layout.unsigned (l : Layout Float) : Layout Float := l.map Double.unsigned

/-! ### What is read passes the tests -/

theorem Block.fits_of_reader {v : Option (Value Float)} {b : Block Float}
    (h : Block.reader v = pure b) : b.Fits := by
  obtain ⟨ms, -, hid, -, hbox, hconfidence, hsize, -, -⟩ := Block.reader_eq_pure_iff.1 h
  refine ⟨(name_eq_pure_iff.1 hid).2, Box.fits_of_reader hbox, ?_, fun s hs => ?_⟩
  · obtain ⟨-, hmissing⟩ | ⟨w, -, hrange⟩ := orElse_eq_pure_iff.1 hconfidence
    · rw [hmissing]
      unfold InRange
      decide
    · exact (range_eq_pure_iff.1 hrange).2
  · obtain ⟨-, hnone⟩ | ⟨w, x, -, -, hpositive, hsome⟩ := nullable_eq_pure_iff.1 hsize
    · rw [hnone] at hs
      cases hs
    · rw [hsome] at hs
      cases hs
      exact (positive_eq_pure_iff.1 hpositive).2

/-- A document has at least one page, so that the sizes that are filled in are some. -/
theorem ne_nil_of_unitPages {count : Float} (hcount : IsPositiveCount count)
    {sizes : List (Float × Float)} (h : unitPages? count = some sizes) : sizes ≠ [] := by
  unfold unitPages? at h
  split at h
  · cases h
  · cases h
    have hpos := Double.toNat_pos hcount.1 hcount.2
    simp only [ne_eq, List.replicate_eq_nil_iff]
    omega

theorem Layout.fits_of_ofValue {limit : Int} {v : Option (Value Float)} {l : Layout Float}
    (h : Layout.ofValue limit v = .ok l) : l.Fits := by
  obtain ⟨stored, hread, hcomplete⟩ := Layout.ofValue_eq_ok_iff.1 h
  obtain ⟨⟨ms, -, -, hcount, -, hblocks, -, -⟩, hissues⟩ :=
    StoredLayout.reader_eq_pure_iff.1 hread
  obtain ⟨sizes, hsizes, rfl⟩ := Option.map_eq_some_iff.1 hcomplete
  obtain ⟨hinside, hdistinct, -⟩ := blockIssues_eq_nil_iff.1 hissues
  obtain ⟨vs, -, hitems⟩ := list_eq_pure_iff.1 hblocks
  have hpositive := (positiveCount_eq_pure_iff.1 hcount).2
  refine ⟨hpositive, ?_, fun b hb => ?_, hinside, hdistinct⟩
  · split at hsizes
    · exact ne_nil_of_unitPages hpositive hsizes
    · rename_i hgiven
      cases hsizes
      simpa using hgiven
  · obtain ⟨w, -, hw⟩ := exists_of_mem_right hitems hb
    exact Block.fits_of_reader hw

/-! ### The tests do not see the signs of zeros -/

theorem InRange.unsigned {most : Nat} {x : Float} (h : InRange most x) :
    InRange most (Double.unsigned x) := by
  unfold InRange
  rwa [Double.unsigned_lt_iff, Double.lt_unsigned_iff]

theorem Box.Fits.unsigned {b : Box Float} (h : b.Fits) : (b.map Double.unsigned).Fits := by
  refine ⟨h.x0.unsigned, h.y0.unsigned, h.x1.unsigned, h.y1.unsigned, ?_, ?_⟩
  · unfold IsCount Box.map
    rw [Double.isInteger_unsigned, Double.unsigned_lt_iff]
    exact h.page
  · simpa only [Box.isCrossed, Box.map, Double.unsigned_le_iff, Double.le_unsigned_iff] using
      h.uncrossed

theorem Block.Fits.unsigned {b : Block Float} (h : b.Fits) : (b.map Double.unsigned).Fits := by
  refine ⟨h.named, h.box.unsigned, h.sure.unsigned, fun s hs => ?_⟩
  obtain ⟨x, hx, rfl⟩ := Option.map_eq_some_iff.1 hs
  rw [Double.unsigned_le_iff]
  exact h.fontSize x hx

theorem Layout.Fits.unsigned {l : Layout Float} (h : l.Fits) : l.unsigned.Fits := by
  refine ⟨?_, ?_, List.forall_mem_map.2 fun b hb => (h.blocks b hb).unsigned,
    List.forall_mem_map.2 fun b hb => ?_, ?_⟩
  · unfold IsPositiveCount Layout.unsigned Layout.map
    rw [Double.isInteger_unsigned, Double.unsigned_le_iff]
    exact h.pageCount
  · simpa [Layout.unsigned, Layout.map] using h.sized
  · show ¬ Double.unsigned l.pageCount ≤ Double.unsigned b.box.page
    rw [Double.unsigned_le_iff, Double.le_unsigned_iff]
    exact h.inside b hb
  · have hids : l.unsigned.blocks.map (·.id) = l.blocks.map (·.id) := List.map_map
    rw [hids]
    exact h.distinct

/-! ### What is read of finite numbers -/

theorem Md5.joined_hex (s : String) : Text.joined (Md5.hex s) = Md5.hex s := by
  have hdigit : ∀ n < 16, Text.isHalf (Md5.digit n) = false := by decide
  refine Text.joined_of_whole ?_
  rw [Md5.hex, String.toList_ofList, List.any_eq_false]
  intro c hc
  obtain ⟨b, -, hb⟩ := List.mem_flatMap.1 hc
  have hbyte := b.toNat_lt
  rw [Bool.not_eq_true]
  rcases List.mem_pair.1 hb with rfl | rfl
  · exact hdigit _ (by omega)
  · exact hdigit _ (by omega)

/-- Whether what a reader reads of data with finite numbers is written as such data. -/
def Reader.KeepsFinite {α : Type} (r : Reader Float α) (out : α → Value Float) : Prop :=
  ∀ ⦃v : Option (Value Float)⦄ ⦃a : α⦄, (∀ w ∈ v, w.IsFinite) → r v = pure a → (out a).IsFinite

namespace Reader

variable {α : Type} {r : Reader Float α} {out : α → Value Float}

theorem keepsFinite_text : KeepsFinite Reader.text .str :=
  fun _ _ hv h => hv _ (text_eq_pure_iff.1 h)

theorem keepsFinite_number : KeepsFinite number .num :=
  fun _ _ hv h => hv _ (number_eq_pure_iff.1 h)

theorem KeepsFinite.list (hr : KeepsFinite r out) :
    KeepsFinite (list r) fun as => .list (as.map out) := by
  intro v as hv h
  obtain ⟨vs, rfl, hitems⟩ := list_eq_pure_iff.1 h
  cases hv _ rfl with
  | list hvs =>
    refine .list (List.forall_mem_map.2 fun a ha => ?_)
    obtain ⟨w, hw, hread⟩ := exists_of_mem_right hitems ha
    exact hr (fun u hu => Option.some.inj hu ▸ hvs w hw) hread

theorem KeepsFinite.pair (hr : KeepsFinite r out) :
    KeepsFinite (pair r) fun s => .list [out s.1, out s.2] := by
  intro v s hv h
  obtain ⟨w, w', rfl, hfirst, hsecond⟩ := pair_eq_pure_iff.1 h
  cases hv _ rfl with
  | list hvs =>
    have hpair := List.forall_mem_cons.1 hvs
    refine .list (List.forall_mem_cons.2 ⟨?_, List.forall_mem_singleton.2 ?_⟩)
    · exact hr (fun u hu => Option.some.inj hu ▸ hpair.1) hfirst
    · exact hr (fun u hu => Option.some.inj hu ▸ List.forall_mem_singleton.1 hpair.2) hsecond

theorem KeepsFinite.orElse (hr : KeepsFinite r out) {missing : α}
    (hmissing : (out missing).IsFinite) : KeepsFinite (orElse missing r) out := by
  intro v a hv h
  obtain ⟨-, rfl⟩ | ⟨w, rfl, ha⟩ := orElse_eq_pure_iff.1 h
  · exact hmissing
  · exact hr hv ha

theorem KeepsFinite.optional (hr : KeepsFinite r out) {v : Option (Value Float)}
    (hv : ∀ w ∈ v, w.IsFinite) {a? : Option α} (h : optional r v = pure a?) :
    ∀ a ∈ a?, (out a).IsFinite := by
  obtain ⟨-, rfl⟩ | ⟨w, a, rfl, ha, rfl⟩ := optional_eq_pure_iff.1 h
  · exact nofun
  · exact fun _ hb => Option.some.inj hb ▸ hr hv ha

theorem KeepsFinite.nullable (hr : KeepsFinite r out) {v : Option (Value Float)}
    (hv : ∀ w ∈ v, w.IsFinite) {a? : Option α} (h : nullable r v = pure a?) :
    ∀ a ∈ a?, (out a).IsFinite := by
  obtain ⟨-, rfl⟩ | ⟨w, a, rfl, -, ha, rfl⟩ := nullable_eq_pure_iff.1 h
  · exact nofun
  · exact fun _ hb => Option.some.inj hb ▸ hr hv ha

end Reader

theorem keepsFinite_range (most : Nat) : KeepsFinite (rangeReader most) .num :=
  fun _ _ hv h => hv _ (range_eq_pure_iff.1 h).1

theorem keepsFinite_positive : KeepsFinite positiveReader .num :=
  fun _ _ hv h => hv _ (positive_eq_pure_iff.1 h).1

theorem keepsFinite_box : KeepsFinite Box.reader Box.toValue := by
  intro v b hv h
  obtain ⟨⟨ms, rfl, hx0, hy0, hx1, hy1, hpage⟩, -⟩ := Box.reader_eq_pure_iff.1 h
  have hmember : ∀ {key}, ∀ w ∈ get? ms key, w.IsFinite := fun _ hw => (hv _ rfl).get hw
  have hedge := keepsFinite_range 1
  refine Fixed.proper (show Fixed ["x0", "y0", "x1", "y1", "page"] by decide +kernel) ?_
  simp only [List.forall_mem_cons]
  exact ⟨hedge hmember hx0, hedge hmember hy0, hedge hmember hx1, hedge hmember hy1,
    hmember _ (count_eq_pure_iff.1 hpage).1, List.forall_mem_nil _⟩

theorem keepsFinite_block : KeepsFinite Block.reader Block.toValue := by
  intro v b hv h
  obtain ⟨ms, rfl, hid, htext, hbox, hconfidence, hsize, -, -⟩ := Block.reader_eq_pure_iff.1 h
  have hmember : ∀ {key}, ∀ w ∈ get? ms key, w.IsFinite := fun _ hw => (hv _ rfl).get hw
  have hfixed : Fixed ["id", "text", "bbox", "confidence", "font_size", "is_bold", "block_type"] :=
    by decide +kernel
  refine (hfixed.sublist ?_).proper ?_
  · rw [names, List.map_append, List.map_append]
    exact ((List.Sublist.refl ["id", "text", "bbox", "confidence"]).append
      (names_optionalMember_sublist "font_size" .num b.fontSize)).append (.refl _)
  · simp only [List.forall_mem_append, List.forall_mem_cons, forall_mem_optionalMember]
    refine ⟨⟨⟨hmember _ (name_eq_pure_iff.1 hid).1, keepsFinite_text hmember htext,
      keepsFinite_box hmember hbox,
      (keepsFinite_range 100).orElse (.num rfl) hmember hconfidence, List.forall_mem_nil _⟩,
      keepsFinite_positive.nullable hmember hsize⟩,
      .bool _, .str ?_, List.forall_mem_nil _⟩
    cases b.kind <;> exact Text.joined_of_whole (by decide)

/-- The sizes that are filled in are finite. -/
theorem isFinite_of_filled {count : Float} {given sizes : List (Float × Float)}
    (hgiven : (Value.list (given.map fun s => .list [.num s.1, .num s.2])).IsFinite)
    (h : (if given.isEmpty then unitPages? count else some given) = some sizes) :
    (Value.list (sizes.map fun s => .list [.num s.1, .num s.2])).IsFinite := by
  split at h
  · unfold unitPages? at h
    split at h
    · cases h
    · cases h
      refine .list (List.forall_mem_map.2 fun s hs => ?_)
      rw [List.eq_of_mem_replicate hs]
      exact .list (List.forall_mem_cons.2 ⟨.num rfl, List.forall_mem_singleton.2 (.num rfl)⟩)
  · cases h
    exact hgiven

/-- What is read of data with finite numbers is such data. -/
theorem Layout.isFinite_of_ofValue {limit : Int} {v : Option (Value Float)}
    (hv : ∀ w ∈ v, w.IsFinite) {l : Layout Float} (h : Layout.ofValue limit v = .ok l) :
    l.toValue.IsFinite := by
  obtain ⟨stored, hread, hcomplete⟩ := Layout.ofValue_eq_ok_iff.1 h
  obtain ⟨⟨ms, rfl, hfilename, hcount, hsizes, hblocks, hfingerprint, hwarnings⟩, -⟩ :=
    StoredLayout.reader_eq_pure_iff.1 hread
  obtain ⟨sizes, hfilled, rfl⟩ := Option.map_eq_some_iff.1 hcomplete
  have hmember : ∀ {key}, ∀ w ∈ get? ms key, w.IsFinite := fun _ hw => (hv _ rfl).get hw
  have hgiven := keepsFinite_number.pair.list.orElse (.list (List.forall_mem_nil _)) hmember hsizes
  have hfixed : Fixed ["filename", "page_count", "page_dimensions", "blocks", "layout_hash",
    "warnings"] := by decide +kernel
  refine (hfixed.sublist ?_).proper ?_
  · rw [names, List.map_append, List.map_append]
    exact ((names_optionalMember_sublist "filename" .str _).append
      (.refl ["page_count", "page_dimensions", "blocks", "layout_hash"])).append
      (names_optionalMember_sublist "warnings" textsValue _)
  · simp only [List.forall_mem_append, List.forall_mem_cons, forall_mem_optionalMember]
    refine ⟨⟨keepsFinite_text.optional hmember hfilename,
      hmember _ (positiveCount_eq_pure_iff.1 hcount).1, isFinite_of_filled hgiven hfilled,
      keepsFinite_block.list hmember hblocks, ?_, List.forall_mem_nil _⟩,
      keepsFinite_text.list.optional hmember hwarnings⟩
    -- A fingerprint that was computed consists of digits.
    have htext := keepsFinite_text.optional hmember hfingerprint
    cases hgivenText : stored.fingerprint with
    | none => exact .str (Md5.joined_hex _)
    | some s => exact htext s hgivenText

/-! ### The blocks and the text of a layout -/

/-- A block inside the unit square on a page of the document, with a confidence from 0 to 100. -/
structure Block.Placed (pageCount : Float) (b : Block Float) : Prop where
  box : b.box.InUnit
  page : Numeric.isInteger b.box.page = true ∧ 0.0 ≤ b.box.page ∧ b.box.page < pageCount
  sure : 0.0 ≤ b.confidence ∧ b.confidence ≤ 100.0

theorem Layout.isFinite_block {l : Layout Float} (h : l.toValue.IsFinite) {b : Block Float}
    (hb : b ∈ l.blocks) : b.toValue.IsFinite := by
  cases h with
  | map hordered hnames hvalues =>
    cases hvalues ("blocks", .list (l.blocks.map Block.toValue)) (by simp) with
    | list hblocks => exact hblocks _ (List.mem_map_of_mem hb)

theorem Block.isFinite_confidence {b : Block Float} (h : b.toValue.IsFinite) :
    Numeric.isFinite b.confidence = true := by
  cases h with
  | map hordered hnames hvalues =>
    cases hvalues ("confidence", .num b.confidence) (by simp) with
    | num hconfidence => exact hconfidence

theorem Layout.Fits.placed {l : Layout Float} (h : l.Fits) (hfinite : l.toValue.IsFinite)
    {b : Block Float} (hb : b ∈ l.blocks) : b.Placed l.pageCount := by
  have hblock := h.blocks b hb
  have hzero : (0.0 : Float) ≤ 0.0 := by decide
  have hhundred : (Numeric.ofInt (100 : Nat) : Float) ≤ 100.0 := by decide
  have hpage := Double.number_of_isFinite (Double.isFinite_of_isInteger hblock.box.page.1)
  have hcount := Double.number_of_isFinite (Double.isFinite_of_isInteger h.pageCount.1)
  have hconfidence := Double.number_of_isFinite
    (Block.isFinite_confidence (Layout.isFinite_block hfinite hb))
  exact ⟨hblock.box.inUnit,
    ⟨hblock.box.page.1, Double.le_of_not_lt_number hpage hzero hblock.box.page.2,
      Double.lt_of_not_le_number hcount hpage (h.inside b hb)⟩,
    Double.le_of_not_lt_number hconfidence hzero hblock.sure.1,
    Double.le_of_not_lt_number hhundred hconfidence hblock.sure.2⟩

/-- The blocks of a layout that was read from finite numbers lie on its pages and have different
ids. The text of the layout is read as the layout without the signs of zeros, whatever the limits
of the fingerprints are. -/
theorem Layout.ofInput_settled {limit : Int} {x : Option (Value Float)} {l : Layout Float}
    (hx : ∀ v ∈ x, v.IsData)
    (hfinite : ∀ v ∈ inputValue x, ∀ n ∈ v.numbers, Numeric.isFinite n = true)
    (h : Layout.ofInput limit x = .ok l) :
    (∀ b ∈ l.blocks, b.Placed l.pageCount) ∧ (l.blocks.map (·.id)).Nodup ∧
      ∀ limit', Layout.ofInput limit' (some (.str l.toValue.compact)) = .ok l.unsigned := by
  have hread := Layout.ofValue_of_ofInput h
  have hfits := Layout.fits_of_ofValue hread
  have hvalue : ∀ v ∈ inputValue x, v.IsFinite := by
    refine fun v hv => Value.isFinite_of_numbers ?_ (hfinite v hv)
    unfold inputValue at hv
    split at hv
    · exact Value.isData_of_parse hv
    · exact hx v hv
  have hdata := Layout.isFinite_of_ofValue hvalue hread
  refine ⟨fun b hb => hfits.placed hdata hb, hfits.distinct, fun limit' => ?_⟩
  have hparse : Value.parse? l.toValue.compact = some l.unsigned.toValue := by
    rw [Value.parse_compact_eq_reread hdata.isPlain_reread, hdata.reread_eq, Layout.unsigned,
      Layout.toValue_map]
  unfold Layout.ofInput
  simp only [hparse]
  exact hfits.unsigned.ofValue_toValue limit'

/-- A layout with a zero that has a sign, an old name of headers, and no page sizes. -/
def coverSpec : Value Float :=
  .map [("page_count", .num 2.0), ("blocks", .list [.map [("id", .str "b1"),
    ("text", .str "Cover"), ("bbox", .map [("x0", .num (-0.0)), ("y0", .num 0.1),
      ("x1", .num 0.5), ("y1", .num 0.2), ("page", .num 1.0)]),
    ("font_size", .null), ("block_type", .str "title")]]), ("layout_hash", .str "cover")]

/-- The layout that `coverSpec` holds. -/
def cover : Layout Float where
  filename := none
  pageCount := 2.0
  pageSizes := [(1.0, 1.0), (1.0, 1.0)]
  blocks := [⟨"b1", "Cover", ⟨-0.0, 0.1, 0.5, 0.2, 1.0⟩, 100.0, none, false, .header⟩]
  fingerprint := "cover"
  warnings := none

theorem isData_coverSpec : coverSpec.IsData := by
  have htext : ∀ {s : String}, s.toList.any Text.isHalf = false →
      (Value.str s : Value Float).IsData := fun hs => .str (Text.joined_of_whole hs)
  have hbox : (Value.map [("x0", .num (-0.0)), ("y0", .num 0.1), ("x1", .num 0.5),
      ("y1", .num 0.2), ("page", .num 1.0)] : Value Float).IsData := by
    refine Fixed.proper (by decide +kernel) ?_
    simp only [List.forall_mem_cons]
    exact ⟨.num trivial, .num trivial, .num trivial, .num trivial, .num trivial,
      List.forall_mem_nil _⟩
  have hblock : (Value.map [("id", .str "b1"), ("text", .str "Cover"),
      ("bbox", .map [("x0", .num (-0.0)), ("y0", .num 0.1), ("x1", .num 0.5), ("y1", .num 0.2),
        ("page", .num 1.0)]),
      ("font_size", .null), ("block_type", .str "title")] : Value Float).IsData := by
    refine Fixed.proper (by decide +kernel) ?_
    simp only [List.forall_mem_cons]
    exact ⟨htext (by decide), htext (by decide), hbox, .null, htext (by decide),
      List.forall_mem_nil _⟩
  refine Fixed.proper (by decide +kernel) ?_
  simp only [List.forall_mem_cons]
  exact ⟨.num trivial, .list (List.forall_mem_singleton.2 hblock), htext (by decide),
    List.forall_mem_nil _⟩

/-- The cover is read, and read again without the sign of its left edge. -/
theorem ofInput_settled_cover :
    Layout.ofInput 50 (some coverSpec) = .ok cover ∧
      (∀ b ∈ cover.blocks, b.Placed cover.pageCount) ∧ (cover.blocks.map (·.id)).Nodup ∧
      ∀ limit', Layout.ofInput limit' (some (.str cover.toValue.compact)) = .ok cover.unsigned := by
  have hread : Layout.ofInput 50 (some coverSpec) = .ok cover := by rfl
  refine ⟨hread, Layout.ofInput_settled (fun v hv => Option.some.inj hv ▸ isData_coverSpec) ?_
    hread⟩
  intro v hv
  cases hv
  decide

end PageExtract
