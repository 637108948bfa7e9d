/-
Layouts that are accepted.

What a layout is read from is accepted part by part. Which tests a part passes depends on what is
read only, so that a part that passes them is accepted again when it is written:

* `range_eq_pure_iff`, `count_eq_pure_iff`, … — numbers;
* `Box.reader_eq_pure_iff`, `Block.reader_eq_pure_iff`, `StoredLayout.reader_eq_pure_iff` — parts,
  field by field;
* `Box.Fits`, `Block.Fits`, `Layout.Fits` — what passes the tests;
* `Box.InUnit`, `Box.Fits.inUnit` — boxes inside the unit square;
* `blockIssues_eq_nil_iff` — blocks on the pages of a document, with different ids;
* `Layout.Fits.ofValue_toValue` — a layout that passes the tests reads back.
-/
import PageExtract.Layout.Reader
import PageExtract.Proofs.Number.Order
import PageExtract.Proofs.Schema.Accepted

namespace PageExtract

open Reader Checked Members

/-! ### Fields that may be left out -/

namespace Members

variable {ν α : Type}

theorem get?_append (ms ms' : Members α) (key : String) :
    get? (ms ++ ms') key = (get? ms key).or (get? ms' key) := by
  induction ms with
  | nil => rfl
  | cons m ms ih =>
    rw [List.cons_append, get?, get?, ih]
    split <;> rfl

theorem get?_optionalMember (key : String) (out : α → Value ν) (a? : Option α) (other : String) :
    get? (optionalMember key out a?) other = if key = other then a?.map out else none := by
  cases a? with
  | none => exact (ite_self none).symm
  | some a => rfl

theorem forall_mem_optionalMember {key : String} {out : α → Value ν} {a? : Option α}
    {P : String × Value ν → Prop} :
    (∀ m ∈ optionalMember key out a?, P m) ↔ ∀ a ∈ a?, P (key, out a) := by
  cases a? <;> simp [optionalMember]

theorem names_optionalMember_sublist (key : String) (out : α → Value ν)
    (a? : Option α) : (names (optionalMember key out a?)).Sublist [key] := by
  cases a? with
  | none => exact List.nil_sublist _
  | some a => exact List.Sublist.refl _

end Members

variable {ν : Type} [Numeric ν] {v : Option (Value ν)}

/-! ### Numbers -/

/-- Whether a number is neither below zero nor above a limit. -/
def InRange (most : Nat) (x : ν) : Prop := ¬ x < 0.0 ∧ ¬ Numeric.ofInt most < x

instance (most : Nat) (x : ν) : Decidable (InRange most x) :=
  inferInstanceAs (Decidable (¬ x < 0.0 ∧ ¬ Numeric.ofInt most < x))

/-- Whether a number is whole and not below zero. -/
def IsCount (x : ν) : Prop := Numeric.isInteger x = true ∧ ¬ x < 0.0

instance (x : ν) : Decidable (IsCount x) :=
  inferInstanceAs (Decidable (Numeric.isInteger x = true ∧ ¬ x < 0.0))

/-- Whether a number is whole and above zero. -/
def IsPositiveCount (x : ν) : Prop := Numeric.isInteger x = true ∧ ¬ x ≤ 0.0

theorem range_eq_pure_iff {most : Nat} {x : ν} :
    rangeReader most v = pure x ↔ v = some (.num x) ∧ InRange most x := by
  unfold rangeReader InRange
  rw [flagIf_eq_pure_iff, flagIf_eq_pure_iff, number_eq_pure_iff, decide_eq_false_iff_not,
    decide_eq_false_iff_not, and_assoc]

theorem positive_eq_pure_iff {x : ν} :
    positiveReader v = pure x ↔ v = some (.num x) ∧ ¬ x ≤ 0.0 := by
  unfold positiveReader
  rw [flagIf_eq_pure_iff, number_eq_pure_iff, decide_eq_false_iff_not]

theorem whole_eq_pure_iff {x : ν} :
    wholeReader v = pure x ↔ v = some (.num x) ∧ Numeric.isInteger x = true := by
  unfold wholeReader
  rw [flagIf_eq_pure_iff, number_eq_pure_iff, Bool.not_eq_false']

theorem count_eq_pure_iff {x : ν} : countReader v = pure x ↔ v = some (.num x) ∧ IsCount x := by
  unfold countReader IsCount
  rw [flagIf_eq_pure_iff, whole_eq_pure_iff, decide_eq_false_iff_not, and_assoc]

theorem positiveCount_eq_pure_iff {x : ν} :
    positiveCountReader v = pure x ↔ v = some (.num x) ∧ IsPositiveCount x := by
  unfold positiveCountReader IsPositiveCount
  rw [flagIf_eq_pure_iff, whole_eq_pure_iff, decide_eq_false_iff_not, and_assoc]

/-! ### Boxes -/

theorem Box.reader_eq_pure_iff {b : Box ν} : Box.reader v = pure b ↔
    (∃ ms, v = some (.map ms) ∧ rangeReader 1 (get? ms "x0") = pure b.x0 ∧
      rangeReader 1 (get? ms "y0") = pure b.y0 ∧ rangeReader 1 (get? ms "x1") = pure b.x1 ∧
      rangeReader 1 (get? ms "y1") = pure b.y1 ∧ countReader (get? ms "page") = pure b.page) ∧
    b.isCrossed = false := by
  unfold Box.reader
  simp only [flagIf_eq_pure_iff, object_eq_pure_iff, next_eq_pure_iff, first_eq_pure_iff]
  refine and_congr_left fun _ => exists_congr fun ms => and_congr_right fun _ => ?_
  constructor
  · rintro ⟨_, ⟨_, ⟨_, ⟨_, ⟨x0, hx0, rfl⟩, y0, hy0, rfl⟩, x1, hx1, rfl⟩, y1, hy1, rfl⟩, page,
      hpage, rfl⟩
    exact ⟨hx0, hy0, hx1, hy1, hpage⟩
  · rintro ⟨hx0, hy0, hx1, hy1, hpage⟩
    exact ⟨_, ⟨_, ⟨_, ⟨_, ⟨_, hx0, rfl⟩, _, hy0, rfl⟩, _, hx1, rfl⟩, _, hy1, rfl⟩, _, hpage, rfl⟩

/-- The tests that a box passes. -/
structure Box.Fits (b : Box ν) : Prop where
  x0 : InRange 1 b.x0
  y0 : InRange 1 b.y0
  x1 : InRange 1 b.x1
  y1 : InRange 1 b.y1
  page : IsCount b.page
  uncrossed : b.isCrossed = false

theorem Box.fits_of_reader {b : Box ν} (h : Box.reader v = pure b) : b.Fits := by
  obtain ⟨⟨ms, -, hx0, hy0, hx1, hy1, hpage⟩, huncrossed⟩ := Box.reader_eq_pure_iff.1 h
  exact ⟨(range_eq_pure_iff.1 hx0).2, (range_eq_pure_iff.1 hy0).2, (range_eq_pure_iff.1 hx1).2,
    (range_eq_pure_iff.1 hy1).2, (count_eq_pure_iff.1 hpage).2, huncrossed⟩

theorem Box.Fits.read {b : Box ν} (h : b.Fits) : Box.reader (some b.toValue) = pure b := by
  refine Box.reader_eq_pure_iff.2 ⟨⟨_, rfl, ?_⟩, h.uncrossed⟩
  simp only [get?, String.reduceEq, ↓reduceIte, range_eq_pure_iff, count_eq_pure_iff, true_and]
  exact ⟨h.x0, h.y0, h.x1, h.y1, h.page⟩

/-- A box inside the unit square, with its edges the right way round. -/
structure Box.InUnit (b : Box Float) : Prop where
  left : 0.0 ≤ b.x0
  across : b.x0 ≤ b.x1
  right : b.x1 ≤ 1.0
  top : 0.0 ≤ b.y0
  down : b.y0 ≤ b.y1
  bottom : b.y1 ≤ 1.0

/-- A box that passes the tests lies inside the unit square. -/
theorem Box.Fits.inUnit {b : Box Float} (h : b.Fits) : b.InUnit := by
  have huncrossed := h.uncrossed
  unfold Box.isCrossed at huncrossed
  rw [Bool.not_eq_false', Bool.and_eq_true, decide_eq_true_eq, decide_eq_true_eq] at huncrossed
  obtain ⟨hacross, hdown⟩ := huncrossed
  -- Edges that compare with each other are numbers.
  have hzero : (0.0 : Float) ≤ 0.0 := by decide
  have hone : (Numeric.ofInt (1 : Nat) : Float) ≤ 1.0 := by decide
  exact ⟨Double.le_of_not_lt_number (Double.number_of_le hacross) hzero h.x0.1, hacross,
    Double.le_of_not_lt_number hone (Double.number_of_ge hacross) h.x1.2,
    Double.le_of_not_lt_number (Double.number_of_le hdown) hzero h.y0.1, hdown,
    Double.le_of_not_lt_number hone (Double.number_of_ge hdown) h.y1.2⟩

/-! ### Blocks -/

theorem Block.reader_eq_pure_iff {b : Block ν} : Block.reader v = pure b ↔
    ∃ ms, v = some (.map ms) ∧ name (get? ms "id") = pure b.id ∧
      Reader.text (get? ms "text") = pure b.text ∧ Box.reader (get? ms "bbox") = pure b.box ∧
      orElse 100.0 (rangeReader 100) (get? ms "confidence") = pure b.confidence ∧
      nullable positiveReader (get? ms "font_size") = pure b.fontSize ∧
      orElse false flag (get? ms "is_bold") = pure b.bold ∧
      BlockKind.reader (get? ms "block_type") = pure b.kind := by
  unfold Block.reader
  simp only [object_eq_pure_iff, next_eq_pure_iff, first_eq_pure_iff]
  refine exists_congr fun ms => and_congr_right fun _ => ?_
  constructor
  · rintro ⟨_, ⟨_, ⟨_, ⟨_, ⟨_, ⟨_, ⟨id, hid, rfl⟩, text, htext, rfl⟩, box, hbox, rfl⟩, confidence,
      hconfidence, rfl⟩, size, hsize, rfl⟩, bold, hbold, rfl⟩, kind, hkind, rfl⟩
    exact ⟨hid, htext, hbox, hconfidence, hsize, hbold, hkind⟩
  · rintro ⟨hid, htext, hbox, hconfidence, hsize, hbold, hkind⟩
    exact ⟨_, ⟨_, ⟨_, ⟨_, ⟨_, ⟨_, ⟨_, hid, rfl⟩, _, htext, rfl⟩, _, hbox, rfl⟩, _, hconfidence,
      rfl⟩, _, hsize, rfl⟩, _, hbold, rfl⟩, _, hkind, rfl⟩

/-- The tests that a block passes. -/
structure Block.Fits (b : Block ν) : Prop where
  named : b.id ≠ ""
  box : b.box.Fits
  sure : InRange 100 b.confidence
  fontSize : ∀ s ∈ b.fontSize, ¬ s ≤ 0.0

theorem read_fontSize {size? : Option ν} (h : ∀ s ∈ size?, ¬ s ≤ 0.0) :
    nullable positiveReader (size?.map .num) = pure size? := by
  cases size? with
  | none => rfl
  | some s =>
    refine nullable_eq_pure_iff.2 (.inr ⟨.num s, s, rfl, nofun, ?_, rfl⟩)
    exact positive_eq_pure_iff.2 ⟨rfl, h s rfl⟩

omit [Numeric ν] in
theorem read_kind (k : BlockKind) : BlockKind.reader (ν := ν) (some (.str k.name)) = pure k := by
  cases k <;> rfl

theorem Block.Fits.read {b : Block ν} (h : b.Fits) : Block.reader (some b.toValue) = pure b := by
  refine Block.reader_eq_pure_iff.2 ⟨_, rfl, ?_⟩
  simp only [get?_append, get?_optionalMember, get?, String.reduceEq, ↓reduceIte, Option.or_none,
    Option.none_or, name_eq_pure_iff, text_eq_pure_iff, h.box.read, true_and]
  exact ⟨h.named, range_eq_pure_iff.2 ⟨rfl, h.sure⟩, read_fontSize h.fontSize, rfl,
    read_kind b.kind⟩

/-- Blocks on the pages of a document, with ids that differ from each other and from those
before. -/
theorem blockIssues_eq_nil_iff {pageCount : ν} {seen : List String} {position : Nat}
    {bs : List (Block ν)} : blockIssues pageCount seen position bs = [] ↔
      (∀ b ∈ bs, ¬ pageCount ≤ b.box.page) ∧ (bs.map (·.id)).Nodup ∧ ∀ b ∈ bs, b.id ∉ seen := by
  induction bs generalizing seen position with
  | nil => simp [blockIssues]
  | cons b bs ih =>
    have hnew : (∀ c ∈ bs, c.id ∉ b.id :: seen) ↔
        b.id ∉ bs.map (·.id) ∧ ∀ c ∈ bs, c.id ∉ seen := by
      simp only [List.mem_cons, not_or, List.mem_map, not_exists, not_and, ← forall₂_and]
    have hhere : ∀ {p : Prop} [Decidable p] {i : Issue}, (if p then [i] else []) = [] ↔ ¬ p := by
      intro p _ i
      split <;> simp [*]
    rw [blockIssues]
    simp only [List.append_eq_nil_iff, hhere, ih, hnew, List.contains_iff_mem,
      List.forall_mem_cons, List.map_cons, List.nodup_cons]
    tauto

/-! ### Layouts -/

theorem StoredLayout.reader_eq_pure_iff {l : StoredLayout ν} : StoredLayout.reader v = pure l ↔
    (∃ ms, v = some (.map ms) ∧ optional Reader.text (get? ms "filename") = pure l.filename ∧
      positiveCountReader (get? ms "page_count") = pure l.pageCount ∧
      orElse [] (list (pair number)) (get? ms "page_dimensions") = pure l.pageSizes ∧
      list Block.reader (get? ms "blocks") = pure l.blocks ∧
      optional Reader.text (get? ms "layout_hash") = pure l.fingerprint ∧
      optional (list Reader.text) (get? ms "warnings") = pure l.warnings) ∧
    blockIssues l.pageCount [] 0 l.blocks = [] := by
  unfold StoredLayout.reader
  simp only [flagAll_eq_pure_iff, object_eq_pure_iff, next_eq_pure_iff, first_eq_pure_iff]
  refine and_congr_left fun _ => exists_congr fun ms => and_congr_right fun _ => ?_
  constructor
  · rintro ⟨_, ⟨_, ⟨_, ⟨_, ⟨_, ⟨filename, hfilename, rfl⟩, count, hcount, rfl⟩, sizes, hsizes,
      rfl⟩, blocks, hblocks, rfl⟩, fingerprint, hfingerprint, rfl⟩, warnings, hwarnings, rfl⟩
    exact ⟨hfilename, hcount, hsizes, hblocks, hfingerprint, hwarnings⟩
  · rintro ⟨hfilename, hcount, hsizes, hblocks, hfingerprint, hwarnings⟩
    exact ⟨_, ⟨_, ⟨_, ⟨_, ⟨_, ⟨_, hfilename, rfl⟩, _, hcount, rfl⟩, _, hsizes, rfl⟩, _, hblocks,
      rfl⟩, _, hfingerprint, rfl⟩, _, hwarnings, rfl⟩

theorem Layout.ofValue_eq_ok_iff {limit : Int} {l : Layout ν} : Layout.ofValue limit v = .ok l ↔
    ∃ stored, StoredLayout.reader v = pure stored ∧ stored.complete? limit = some l := by
  unfold Layout.ofValue
  simp only [← toExcept_eq_ok_iff_pure]
  cases (StoredLayout.reader v).toExcept with
  | error issues => simp
  | ok stored =>
    cases hcomplete : stored.complete? limit with
    | none => simp [hcomplete]
    | some l' => simp [hcomplete]

/-- The plain value that an input stands for: the one that it writes, if it is a text. -/
def inputValue : Option (Value Float) → Option (Value Float)
  | some (.str s) => Value.parse? s
  | v => v

theorem Layout.ofValue_of_ofInput {limit : Int} {x : Option (Value Float)} {l : Layout Float}
    (h : Layout.ofInput limit x = .ok l) : Layout.ofValue limit (inputValue x) = .ok l := by
  unfold Layout.ofInput at h
  split at h
  · rename_i s
    cases hparse : Value.parse? s with
    | none =>
      simp only [hparse] at h
      cases h
    | some v =>
      simp only [hparse] at h
      rwa [inputValue, hparse]
  · rename_i hother
    unfold inputValue
    split
    · exact absurd rfl (hother _)
    · exact h

/-- The tests that a layout passes. -/
structure Layout.Fits (l : Layout ν) : Prop where
  pageCount : IsPositiveCount l.pageCount
  sized : l.pageSizes ≠ []
  blocks : ∀ b ∈ l.blocks, b.Fits
  inside : ∀ b ∈ l.blocks, ¬ l.pageCount ≤ b.box.page
  distinct : (l.blocks.map (·.id)).Nodup

/-- Everything is given in a layout that is written. -/
def Layout.stored (l : Layout ν) : StoredLayout ν :=
  ⟨l.filename, l.pageCount, l.pageSizes, l.blocks, some l.fingerprint, l.warnings⟩

omit [Numeric ν] in
theorem read_texts {texts? : Option (List String)} :
    optional (list (Reader.text (ν := ν))) (texts?.map textsValue) = pure texts? := by
  cases texts? with
  | none => rfl
  | some texts =>
    exact optional_eq_pure_iff.2 (.inr ⟨_, texts, rfl, read_list fun _ _ => rfl, rfl⟩)

theorem Layout.Fits.read {l : Layout ν} (h : l.Fits) :
    StoredLayout.reader (some l.toValue) = pure l.stored := by
  refine StoredLayout.reader_eq_pure_iff.2 ⟨⟨_, rfl, ?_⟩, ?_⟩
  · have hfilename : optional (Reader.text (ν := ν)) (l.filename.map .str) = pure l.filename := by
      cases l.filename <;> rfl
    simp only [get?_append, get?_optionalMember, get?, String.reduceEq, ↓reduceIte,
      Option.or_none, Option.none_or]
    refine ⟨hfilename, positiveCount_eq_pure_iff.2 ⟨rfl, h.pageCount⟩, ?_, ?_, rfl, read_texts⟩
    · exact read_list fun s _ => rfl
    · exact read_list fun b hb => (h.blocks b hb).read
  · exact blockIssues_eq_nil_iff.2 ⟨h.inside, h.distinct, fun _ _ => List.not_mem_nil⟩

/-- A layout that passes the tests reads back, whatever the limit of its fingerprint. -/
theorem Layout.Fits.ofValue_toValue {l : Layout ν} (h : l.Fits) (limit : Int) :
    Layout.ofValue limit (some l.toValue) = .ok l := by
  have hsizes : ¬ l.pageSizes.isEmpty = true := by simpa using h.sized
  refine Layout.ofValue_eq_ok_iff.2 ⟨l.stored, h.read, ?_⟩
  show Option.map _ (if l.pageSizes.isEmpty then _ else some l.pageSizes) = some l
  rw [if_neg hsizes]
  rfl

end PageExtract
