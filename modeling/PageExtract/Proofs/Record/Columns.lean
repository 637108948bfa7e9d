/-
Columns of different lengths, in any order.

Each column is a list that is written at one field of the records of a sequence. The sequence grows
with the longest list so far, and a shorter list fills the first records only. So which records
there are and which fields they have is the same in any order of the columns, and only the order of
the fields in a record is that of the columns.

* `Record.Column`, `Record.height`, `Record.row`, `Record.rows` — columns, and the records that they
  make up;
* `Record.nest`, `Record.HoldsColumns` — a tree with records at some names and nothing else;
* `Record.getElem?_writeEach_leaf` — what a list does to each record of a sequence;
* `Record.write_column` — what one more column does;
* `Record.write_columns` — columns in any order.
-/
import PageExtract.Proofs.Record.Rows
import PageExtract.Proofs.Record.Spelling
import PageExtract.Proofs.Value.Members

namespace PageExtract

variable {ν : Type}

namespace Record

/-! ### Rows -/

/-- A field of the records of a sequence, and the list that is written at it. -/
structure Column (ν : Type) where
  field : String
  values : List (Scalar ν)
deriving Inhabited

/-- The length of the longest of some columns. -/
def height (columns : List (Column ν)) : Nat :=
  (columns.map fun c => c.values.length).foldr max 0

/-- The field of a record and its value, if the column reaches the record. -/
def Column.cell? (c : Column ν) (i : Nat) : Option (String × Node ν) :=
  c.values[i]?.map fun v => (c.field, .scalar v)

/-- The record at a position: the fields of all columns that reach it. -/
def row (columns : List (Column ν)) (i : Nat) : Record ν := columns.filterMap (·.cell? i)

/-- The records that some columns make up. -/
def rows (columns : List (Column ν)) : List (Record ν) :=
  (List.range (height columns)).map (row columns)

theorem height_concat (columns : List (Column ν)) (c : Column ν) :
    height (columns ++ [c]) = max (height columns) c.values.length := by
  induction columns with
  | nil => exact Nat.max_comm _ _
  | cons d columns ih =>
    show max d.values.length (height (columns ++ [c])) =
      max (max d.values.length (height columns)) c.values.length
    rw [ih, Nat.max_assoc]

theorem length_le_height {columns : List (Column ν)} {c : Column ν} (hc : c ∈ columns) :
    c.values.length ≤ height columns := by
  induction columns with
  | nil => cases hc
  | cons d columns ih =>
    show c.values.length ≤ max d.values.length (height columns)
    obtain rfl | hc := List.mem_cons.1 hc
    · exact Nat.le_max_left _ _
    · exact Nat.le_trans (ih hc) (Nat.le_max_right _ _)

/-- No column reaches beyond the longest. -/
theorem row_of_height_le {columns : List (Column ν)} {i : Nat} (h : height columns ≤ i) :
    row columns i = [] := by
  refine List.filterMap_eq_nil_iff.2 fun c hc => ?_
  have hlength : c.values.length ≤ i := Nat.le_trans (length_le_height hc) h
  rw [Column.cell?, List.getElem?_eq_none hlength]
  rfl

/-- Before a column is written, empty records are added until there are as many as values. -/
theorem rows_grown (columns : List (Column ν)) (n : Nat) :
    rows columns ++ List.replicate (n - height columns) [] =
      (List.range (max (height columns) n)).map (row columns) := by
  have hmax : max (height columns) n = height columns + (n - height columns) := by omega
  rw [hmax, List.range_add, List.map_append, List.map_map]
  refine congrArg (rows columns ++ ·) (List.eq_replicate_iff.2 ⟨by simp, fun r hr => ?_⟩).symm
  obtain ⟨i, -, rfl⟩ := List.mem_map.1 hr
  exact row_of_height_le (Nat.le_add_right _ i)

/-- A record has no field but those of the columns. -/
theorem get?_row {columns : List (Column ν)} {field : String}
    (hfield : field ∉ columns.map (·.field)) (i : Nat) :
    Members.get? (row columns i) field = none := by
  refine Members.get?_of_not_mem fun hmem => hfield ?_
  obtain ⟨m, hm, rfl⟩ := List.mem_map.1 hmem
  obtain ⟨c, hc, hcell⟩ := List.mem_filterMap.1 hm
  obtain ⟨v, -, rfl⟩ := Option.map_eq_some_iff.1 hcell
  exact List.mem_map_of_mem hc

/-- In another order the columns make up the same records, but for the order of the fields. -/
theorem rows_perm {order columns : List (Column ν)} (h : order.Perm columns) :
    List.Forall₂ List.Perm (rows order) (rows columns) := by
  have hlengths := h.map fun c : Column ν => c.values.length
  have hheight : height order = height columns := hlengths.foldr_eq 0
  rw [rows, rows, hheight, List.forall₂_map_left_iff, List.forall₂_map_right_iff]
  exact List.forall₂_same.2 fun i _ => h.filterMap _

/-! ### Trees with one sequence -/

/-- The tree that has records at some names and nothing else. -/
def nest : List String → String → List (Record ν) → Record ν
  | [], last, records => [(last, .sequence records)]
  | name :: above, last, records => [(name, .map (nest above last records))]

/-- Whether a tree has the records of some columns at some names, or nothing if there are no
columns. -/
def HoldsColumns (above : List String) (last : String) (columns : List (Column ν))
    (r : Record ν) : Prop :=
  r = nest above last (rows columns) ∨ r = [] ∧ columns = []

namespace HoldsColumns

variable {above : List String} {name last : String} {columns : List (Column ν)} {r : Record ν}

/-- The next column finds the records, as many as it needs. -/
theorem childSequence (h : HoldsColumns [] last columns r) (n : Nat) :
    childSequence r last n = ((List.range (max (height columns) n)).map (row columns), none) := by
  rw [← rows_grown]
  obtain rfl | ⟨rfl, rfl⟩ := h
  · simp [Record.childSequence, nest, Members.get?, rows]
  · rfl

/-- One level down, the records are at the other names. -/
theorem childMap (h : HoldsColumns (name :: above) last columns r) :
    HoldsColumns above last columns (childMap r name).1 ∧ (childMap r name).2 = none := by
  obtain rfl | ⟨rfl, rfl⟩ := h
  · have hchild : Record.childMap (nest (name :: above) last (rows columns)) name =
        (nest above last (rows columns), none) := by
      simp [Record.childMap, nest, Members.get?]
    rw [hchild]
    exact ⟨.inl rfl, rfl⟩
  · exact ⟨.inr ⟨rfl, rfl⟩, rfl⟩

/-- There is nothing but what is put under the first name. -/
theorem put (h : HoldsColumns above last columns r) (n : Node ν) :
    Members.put r (above.headD last) n = [(above.headD last, n)] := by
  obtain rfl | ⟨rfl, -⟩ := h
  · cases above <;> simp [nest, Members.put, Members.has, Members.get?, Members.replace]
  · rfl

end HoldsColumns

/-! ### One column -/

/-- A supply is given out to the records of a sequence one by one. -/
theorem getElem?_writeEach_leaf (field : String) (s : Supply ν) (rs : List (Record ν)) (i : Nat) :
    (writeEach (writeLeaf field) s rs).result[i]? =
      rs[i]?.map fun r => (writeLeaf field (s.skip i) r).result := by
  induction rs generalizing s i with
  | nil => rfl
  | cons r rs ih =>
    have hrest : (writeLeaf field s r).supply = s.skip 1 := by
      unfold writeLeaf
      split <;> exact s.rest_eq_skip
    show ((writeLeaf field s r).result ::
      (writeEach (writeLeaf field) (writeLeaf field s r).supply rs).result)[i]? = _
    cases i with
    | zero => rw [Supply.skip_zero]; rfl
    | succ i =>
      rw [List.getElem?_cons_succ, List.getElem?_cons_succ, ih, hrest, Supply.skip_skip,
        Nat.add_comm 1 i]

/-- Each record of a sequence is reached, and nothing is replaced in records without the field. -/
theorem reached_writeEach_leaf {field : String} {rs : List (Record ν)}
    (hrs : ∀ r ∈ rs, Members.get? r field = none) (s : Supply ν) :
    (writeEach (writeLeaf field) s rs).reached = rs.length ∧
      ∀ gone ∈ (writeEach (writeLeaf field) s rs).replaced, gone = none := by
  induction rs generalizing s with
  | nil => exact ⟨rfl, fun gone hgone => (List.not_mem_nil hgone).elim⟩
  | cons r rs ih =>
    obtain ⟨hr, hrs⟩ := List.forall_mem_cons.1 hrs
    obtain ⟨hreached, hreplaced⟩ := ih hrs (writeLeaf field s r).supply
    have hleaf : (writeLeaf field s r).reached = 1 ∧
        ∀ gone ∈ (writeLeaf field s r).replaced, gone = none := by
      have hconflict : leafConflict r field = none := by
        rw [leafConflict, hr]
      unfold writeLeaf
      split
      · exact ⟨rfl, fun gone hgone => (List.mem_singleton.1 hgone).trans hconflict⟩
      · exact ⟨rfl, fun gone hgone => List.mem_singleton.1 hgone⟩
    constructor
    · show (writeLeaf field s r).reached + _ = rs.length + 1
      rw [hleaf.1, hreached, Nat.add_comm]
    · exact eq_none_of_firstReplaced hleaf.2 hreplaced

theorem next_skip_deal (vs : List (Scalar ν)) (i : Nat) :
    ((Supply.deal vs).skip i).next = vs[i]?.map .scalar := by
  rw [← List.head?_drop]
  show (Supply.deal (vs.drop i)).next = _
  cases vs.drop i with
  | nil => rfl
  | cons v vs => rfl

/-- A column adds its field to the records that it reaches. -/
theorem writeLeaf_row {columns : List (Column ν)} {c : Column ν}
    (hc : c.field ∉ columns.map (·.field)) (i : Nat) :
    (writeLeaf c.field ((Supply.deal c.values).skip i) (row columns i)).result =
      row (columns ++ [c]) i := by
  have hrow : row (columns ++ [c]) i = row columns i ++ (c.cell? i).toList := by
    rw [row, List.filterMap_append]
    cases hcell : c.cell? i <;> simp [row, hcell]
  have hnext := next_skip_deal c.values i
  rw [hrow, Column.cell?]
  unfold writeLeaf
  cases hv : c.values[i]? with
  | none =>
    rw [hv] at hnext
    simp [hnext]
  | some v =>
    rw [hv] at hnext
    simp [hnext, Members.put_of_get?_eq_none _ (get?_row hc i)]

/-- What a column does to the records that those before it have made up. -/
theorem writeEach_concat {columns : List (Column ν)} {c : Column ν}
    (hc : c.field ∉ columns.map (·.field)) :
    (writeEach (writeLeaf c.field) (.deal c.values)
      ((List.range (max (height columns) c.values.length)).map (row columns))).result =
        rows (columns ++ [c]) := by
  rw [rows, height_concat]
  refine List.ext_getElem? fun i => ?_
  rw [getElem?_writeEach_leaf, List.getElem?_map, List.getElem?_map]
  by_cases hi : i < max (height columns) c.values.length
  · rw [List.getElem?_range hi, Option.map_some, Option.map_some, Option.map_some,
      writeLeaf_row hc]
  · rw [List.getElem?_eq_none (by rw [List.length_range]; omega)]
    rfl

theorem writeBelow_nest {above : List String} {last : String} {columns : List (Column ν)}
    {c : Column ν} (hc : c.field ∉ columns.map (·.field)) {r : Record ν}
    (hr : HoldsColumns above last columns r) :
    let w := writeBelow c.values.length (Path.inRows above last c.field) (.deal c.values) r
    w.result = nest above last (rows (columns ++ [c])) ∧
      w.reached = max (height columns) c.values.length ∧ ∀ gone ∈ w.replaced, gone = none := by
  induction above generalizing r with
  | nil =>
    have hput := hr.put (.sequence (rows (columns ++ [c])))
    have hlacks : ∀ r ∈ (List.range (max (height columns) c.values.length)).map (row columns),
        Members.get? r c.field = none := by
      intro r hr
      obtain ⟨i, -, rfl⟩ := List.mem_map.1 hr
      exact get?_row hc i
    obtain ⟨hreached, hreplaced⟩ := reached_writeEach_leaf hlacks (.deal c.values)
    have hpath : Path.inRows [] last c.field = [⟨last, true⟩, ⟨c.field, false⟩] := rfl
    rw [hpath, writeBelow_cons _ _ (List.cons_ne_nil _ _), if_pos rfl, hr.childSequence]
    refine ⟨?_, ?_, List.forall_mem_cons.2 ⟨rfl, hreplaced⟩⟩
    · show Members.put r last (.sequence (writeEach (writeLeaf c.field) _ _).result) = _
      rw [writeEach_concat hc]
      exact hput
    · exact hreached.trans (by simp)
  | cons name above ih =>
    obtain ⟨hchild, hgone⟩ := hr.childMap
    obtain ⟨hresult, hreached, hreplaced⟩ := ih hchild
    rw [Path.inRows_cons, writeBelow_cons _ _ (Path.inRows_ne_nil above last c.field)]
    refine ⟨?_, hreached, List.forall_mem_cons.2 ⟨hgone, hreplaced⟩⟩
    show Members.put r name (.map (writeBelow _ _ _ (childMap r name).1).result) = _
    rw [hresult]
    exact hr.put _

/-- One more column grows the records and fills the first of them. It reports a mismatch if it is
shorter than a column before it, and it replaces nothing. -/
theorem write_column {above : List String} {last : String} {columns : List (Column ν)}
    {c : Column ν} (hc : c.field ∉ columns.map (·.field)) {r : Record ν}
    (hr : HoldsColumns above last columns r) :
    write r (Path.inRows above last c.field) (.many c.values) =
      (nest above last (rows (columns ++ [c])), ⟨c.values.length,
        if c.values.length < height columns then some ⟨height columns, c.values.length⟩ else none,
        []⟩) := by
  have hspreads := spreads_inRows above last c.field
  obtain ⟨hresult, hreached, hreplaced⟩ := writeBelow_nest hc hr
  have htargets := targets_writeBelow c.values.length (Path.inRows above last c.field)
    (.deal c.values) r
  have hsupply : supplyFor (Path.inRows above last c.field) (.many c.values) = .deal c.values :=
    if_pos hspreads
  have hmismatch : mismatchOf (Path.inRows above last c.field) (.many c.values)
      (max (height columns) c.values.length) =
        if c.values.length < height columns then some ⟨height columns, c.values.length⟩
        else none := by
    rw [mismatchOf, hspreads, Bool.true_and]
    by_cases h : c.values.length < height columns
    · have hmax : max (height columns) c.values.length = height columns := by omega
      rw [if_pos h, hmax, if_pos (by simpa using Nat.ne_of_gt h)]
    · have hmax : max (height columns) c.values.length = c.values.length := by omega
      rw [if_neg h, hmax, if_neg (by simp)]
  have hcovered : (Supply.deal c.values).covered (max (height columns) c.values.length) =
      c.values.length := Nat.min_eq_right (Nat.le_max_right _ _)
  rw [hreached, hcovered] at htargets
  have hsize : sizeFor (.many c.values) = c.values.length := rfl
  rw [write, hsupply, hsize, hresult, hreached, htargets, hmismatch,
    replacedPaths_eq_nil hreplaced]

/-! ### All columns -/

/-- The tree after columns have been written one after the other. -/
def writeColumns (above : List String) (last : String) (r : Record ν)
    (columns : List (Column ν)) : Record ν :=
  columns.foldl (fun r c => (write r (Path.inRows above last c.field) (.many c.values)).1) r

/-- Columns add up: what they leave is what all columns so far make up. -/
theorem holdsColumns_writeColumns {above : List String} {last : String}
    (before columns : List (Column ν)) (hdistinct : ((before ++ columns).map (·.field)).Nodup)
    {r : Record ν} (hr : HoldsColumns above last before r) :
    HoldsColumns above last (before ++ columns) (writeColumns above last r columns) := by
  induction columns generalizing before r with
  | nil => rwa [List.append_nil]
  | cons c columns ih =>
    have hc : c.field ∉ before.map (·.field) := by
      rw [List.map_append, List.nodup_append] at hdistinct
      intro hmem
      exact hdistinct.2.2 _ hmem _ List.mem_cons_self rfl
    rw [List.append_cons] at hdistinct ⊢
    exact ih _ hdistinct (.inl (congrArg Prod.fst (write_column hc hr)))

/-- **Records that are built column by column do not depend on the order of the columns.** Lists are
written into an empty tree at different fields of the records at some names. In any order there are
then as many records as the longest list has values, and nothing else; each record has exactly the
fields whose lists reach it, with the values at its position. A write reports a mismatch exactly if
its list is shorter than the longest one before it, and no write replaces anything. -/
theorem write_columns {above : List String} {last : String} {columns order : List (Column ν)}
    (hnames : ∀ name ∈ above ++ [last], isName name = true)
    (hfields : ∀ c ∈ columns, isName c.field = true)
    (hdistinct : (columns.map (·.field)).Nodup) (hne : columns ≠ [])
    (horder : order.Perm columns) :
    (∀ c ∈ order, Path.parse (Path.inRows above last c.field).text =
      .ok (Path.inRows above last c.field)) ∧
    (∃ records, writeColumns above last [] order = nest above last records ∧
      List.Forall₂ List.Perm records (rows columns)) ∧
    ∀ before c after, order = before ++ c :: after →
      (write (writeColumns above last [] before) (Path.inRows above last c.field)
        (.many c.values)).2 = ⟨c.values.length,
          if c.values.length < height before then some ⟨height before, c.values.length⟩ else none,
          []⟩ := by
  have hfresh : (order.map (·.field)).Nodup := (horder.map _).nodup_iff.2 hdistinct
  have hempty : HoldsColumns above last [] ([] : Record ν) := .inr ⟨rfl, rfl⟩
  refine ⟨fun c hc => ?_, ?_, fun before c after hsplit => ?_⟩
  · refine Path.parse_text (Path.inRows_ne_nil above last c.field) fun seg hseg => ?_
    obtain hseg | hseg := List.mem_append.1 hseg
    · obtain ⟨name, hname, rfl⟩ := List.mem_map.1 hseg
      exact hnames name (List.mem_append_left _ hname)
    · obtain rfl | hseg := List.mem_cons.1 hseg
      · exact hnames last (List.mem_append_right _ List.mem_cons_self)
      · rw [List.mem_singleton.1 hseg]
        exact hfields c (horder.mem_iff.1 hc)
  · obtain hall | ⟨-, hnil⟩ := holdsColumns_writeColumns [] order hfresh hempty
    · exact ⟨rows order, hall, rows_perm horder⟩
    · rw [List.nil_append] at hnil
      exact (hne (hnil ▸ horder).nil_eq.symm).elim
  · subst hsplit
    rw [List.map_append, List.nodup_append] at hfresh
    have hc : c.field ∉ before.map (·.field) := fun hmem =>
      hfresh.2.2 _ hmem _ List.mem_cons_self rfl
    have hbefore := holdsColumns_writeColumns [] before hfresh.1 hempty
    exact congrArg Prod.snd (write_column hc hbefore)

/-- The names of three players. -/
def nameColumn : Column Rat := ⟨"name", [.str "A", .str "B", .str "C"]⟩

/-- The points of two players. -/
def pointsColumn : Column Rat := ⟨"pts", [.num 10, .num 8]⟩

/-- The third player has no points, whichever column comes first, but only the points report a
mismatch when they come second. -/
theorem write_columns_players :
    (∃ records, writeColumns ["team"] "players" [] [pointsColumn, nameColumn] =
        nest ["team"] "players" records ∧
      List.Forall₂ List.Perm records (rows [nameColumn, pointsColumn])) ∧
    row [nameColumn, pointsColumn] 2 = [("name", .scalar (.str "C"))] ∧
    (write (writeColumns ["team"] "players" [] [nameColumn])
      (Path.inRows ["team"] "players" "pts") (.many pointsColumn.values)).2 =
        ⟨2, some ⟨3, 2⟩, []⟩ := by
  have hnames : ∀ name ∈ ["team"] ++ ["players"], isName name = true := by decide
  have hfields : ∀ c ∈ [nameColumn, pointsColumn], isName c.field = true := by decide
  have hdistinct : ([nameColumn, pointsColumn].map (·.field)).Nodup := by decide
  have hne : [nameColumn, pointsColumn] ≠ [] := List.cons_ne_nil _ _
  have hswapped := write_columns hnames hfields hdistinct hne (.swap nameColumn pointsColumn [])
  have hstraight := write_columns hnames hfields hdistinct hne (.refl _)
  exact ⟨hswapped.2.1, rfl, hstraight.2.2 [nameColumn] pointsColumn [] rfl⟩

end Record

end PageExtract
