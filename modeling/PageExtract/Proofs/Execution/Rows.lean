/-
Tables that become records.

Several fields may be read from columns of one table and be written into the records of one
sequence. The records are then the rows of the table: each has the texts of its own row, and no
row is dropped or shifted.

* `Extraction.columnField?` — the field that an extraction fills, and the column in its source;
* `Extraction.cellOf` — what a field has in a row of a table;
* `Extraction.extract_column` — a column has one item for each row;
* `rowRecord`, `holdsRows_step`, `holdsRows_extractFields` — the records after some fields;
* `FillsRows` — which fields of a processor fill the records;
* `execute_rows` — the records of a run.
-/
import PageExtract.Proofs.Execution.Outcome
import PageExtract.Proofs.Execution.Warnings
import PageExtract.Proofs.Record.Rows

namespace PageExtract

/-- The first name of a field path. -/
def firstName? (fieldPath : String) : Option String :=
  match Path.parse fieldPath with
  | .ok path => path.names.head?
  | .error _ => none

theorem firstName?_of_parse {fieldPath : String} {path : Path}
    (h : Path.parse fieldPath = .ok path) : firstName? fieldPath = path.names.head? := by
  rw [firstName?, h]

theorem Path.head?_names_inRows (above : List String) (last field : String) :
    (Path.inRows above last field).names.head? = some (above.headD last) := by
  cases above with
  | nil => rfl
  | cons name above => rfl

/-- The path of a field of records has the mark. -/
theorem isRowPath_of_parse {fieldPath : String} {above : List String} {last field : String}
    (h : Path.parse fieldPath = .ok (Path.inRows above last field)) :
    isRowPath fieldPath = true := by
  have hmem : (⟨last, true⟩ : Segment) ∈ Path.inRows above last field := by
    simp [Path.inRows]
  obtain ⟨before, after, htext⟩ := Path.infix_text hmem
  rw [Path.text_of_parse h] at htext
  have hmark : (Segment.text ⟨last, true⟩).toList = last.toList ++ "[]".toList :=
    String.toList_append
  rw [hmark] at htext
  rw [isRowPath, Text.contains, Text.occursIn_iff]
  refine ⟨(before ++ last.toList).flatMap Text.charUnits, after.flatMap Text.charUnits, ?_⟩
  rw [Text.units, Text.units, ← htext]
  simp only [List.flatMap_append, List.append_assoc]

namespace Extraction

/-! ### One column -/

/-- The field of the records at some names that an extraction fills from the table in a region, and
the column that its source names. -/
def columnField? (above : List String) (last region : String) (e : Extraction) :
    Option (String × Nat) :=
  match Path.parse e.fieldPath, Source.parse? e.source with
  | .ok path, some (.regionColumn name column) =>
    match path.getLast? with
    | some seg =>
      if path = Path.inRows above last seg.name ∧ name = region then some (seg.name, column)
      else none
    | none => none
  | _, _ => none

theorem columnField?_eq_some {above : List String} {last region field : String} {column : Nat}
    {e : Extraction} :
    e.columnField? above last region = some (field, column) ↔
      Path.parse e.fieldPath = .ok (Path.inRows above last field) ∧
        Source.parse? e.source = some (.regionColumn region column) := by
  constructor
  · intro h
    unfold columnField? at h
    split at h
    · rename_i path name n hpath hsource
      split at h
      · rename_i seg hseg
        split at h
        · rename_i hboth
          cases h
          rw [hpath, hsource]
          exact ⟨congrArg _ hboth.1, by rw [hboth.2]⟩
        · cases h
      · cases h
    · cases h
  · rintro ⟨hpath, hsource⟩
    have hlast : (Path.inRows above last field).getLast? = some ⟨field, false⟩ := by
      simp [Path.inRows]
    unfold columnField?
    rw [hpath, hsource]
    simp only [hlast, and_self, if_true]

/-- A scalar after the transform of a field, if it has one. -/
def item (e : Extraction) (v : Scalar Float) : Scalar Float :=
  match e.transform with
  | some t => t.scalar v
  | none => v

theorem transformed_many (e : Extraction) (vs : List (Scalar Float)) :
    e.transformed (.many vs) = .many (vs.map e.item) := by
  unfold transformed item
  cases e.transform with
  | none => simp
  | some t => rfl

/-- What a field has in a row of a table: the texts of those blocks of the row that lie in the
column of the field, with spaces between them, after the transform. -/
def cellOf (e : Extraction) (input : ExtractionInput) (t : Table Float) (declared : Nat)
    (row : List (Block Float)) : Scalar Float :=
  e.item (.str (joinTexts
    (t.cell (e.columnOf input.processor t declared).value input.settings.columnTolerance row)))

variable {above : List String} {last region field : String} {declared : Nat} {e : Extraction}
  {input : ExtractionInput}

/-- A column that has a value is extracted without a warning, with one item for each row. -/
theorem extract_column (hfield : e.columnField? above last region = some (field, declared))
    (hvalue : (e.extract input).value.isSome = true) :
    let t := tableOf input region (regionBlocks input region)
    (e.extract input).value = some (.many (t.rows.map (e.cellOf input t declared))) ∧
      (e.extract input).trace.warnings = [] := by
  obtain ⟨hpath, hsource⟩ := columnField?_eq_some.1 hfield
  have hraw : e.raw input = e.ofSource input (.regionColumn region declared) := by
    rw [raw, hsource]
  have hextract : e.extract input =
      e.ofSource input (.regionColumn region declared) >>= fun value =>
        pure (value.map e.transformed) := by
    rw [extract, hraw]
  rw [hextract] at hvalue ⊢
  unfold ofSource at hvalue ⊢
  cases hblocks : regionBlocks input region with
  | nil =>
    -- A region without blocks has no value.
    simp only [hblocks] at hvalue
    cases hvalue
  | cons b bs =>
    simp only [hblocks] at hvalue ⊢
    have hnone : ∀ t, (e.columnOf input.processor t declared).trace.warnings = [] :=
      fun t => List.eq_nil_iff_forall_not_mem.2 (e.warns_columnOf (P := fun _ => False) _ t _)
    unfold column at hvalue ⊢
    simp only [Trace.value_bind, Trace.warnings_bind, hnone] at hvalue ⊢
    -- As there is a value, the table has the column.
    split at hvalue
    · rename_i hlt
      rw [if_pos hlt]
      refine ⟨?_, rfl⟩
      simp only [Trace.value_pure, rowsOrFirst, isRowPath_of_parse hpath, if_true, Option.map_some,
        transformed_many, Table.columnTexts, List.map_map]
      rfl
    · cases hvalue

end Extraction

/-! ### Several columns -/

section

variable (above : List String) (last region : String) (input : ExtractionInput) (t : Table Float)

/-- The record of a row: the fields that some extractions fill, in their order. -/
def rowRecord (es : List Extraction) (row : List (Block Float)) : Record Float :=
  es.filterMap fun e => (e.columnField? above last region).map fun field =>
    (field.1, .scalar (e.cellOf input t field.2 row))

/-- The names of the fields of records that some extractions fill. -/
def rowFields (es : List Extraction) : List String :=
  es.filterMap fun e => (e.columnField? above last region).map (·.1)

end

section

variable {above : List String} {last region : String} {input : ExtractionInput} {t : Table Float}

theorem rowRecord_append_of_none {e : Extraction} (he : e.columnField? above last region = none)
    (done : List Extraction) :
    rowRecord above last region input t (done ++ [e]) =
      rowRecord above last region input t done := by
  funext row
  simp [rowRecord, he]

theorem rowRecord_append_of_some {e : Extraction} {field : String} {column : Nat}
    (he : e.columnField? above last region = some (field, column)) (done : List Extraction) :
    rowRecord above last region input t (done ++ [e]) = fun row =>
      rowRecord above last region input t done row ++
        [(field, .scalar (e.cellOf input t column row))] := by
  funext row
  simp [rowRecord, he]

/-- A record has only the fields that were filled. -/
theorem get?_rowRecord_of_not_mem {es : List Extraction} {field : String}
    (h : field ∉ rowFields above last region es) (row : List (Block Float)) :
    Members.get? (rowRecord above last region input t es row) field = none := by
  induction es with
  | nil => rfl
  | cons e es ih =>
    unfold rowFields at h
    unfold rowRecord
    cases he : e.columnField? above last region with
    | none =>
      rw [List.filterMap_cons_none (by rw [he]; rfl)] at h ⊢
      exact ih h
    | some found =>
      rw [List.filterMap_cons_some (by rw [he]; rfl)] at h ⊢
      have hne : found.1 ≠ field := fun heq => h (heq ▸ List.mem_cons_self)
      rw [Members.get?, if_neg hne]
      exact ih fun hmem => h (List.mem_cons_of_mem _ hmem)

/-- A record has under each field what the extraction of the field reads in the row. -/
theorem get?_rowRecord {es : List Extraction}
    (hdistinct : (rowFields above last region es).Nodup) {e : Extraction} (he : e ∈ es)
    {field : String} {column : Nat}
    (hfield : e.columnField? above last region = some (field, column)) (row : List (Block Float)) :
    Members.get? (rowRecord above last region input t es row) field =
      some (.scalar (e.cellOf input t column row)) := by
  induction es with
  | nil => cases he
  | cons first es ih =>
    unfold rowFields at hdistinct
    unfold rowRecord
    rcases List.mem_cons.1 he with rfl | he
    · rw [List.filterMap_cons_some (by rw [hfield]; rfl), Members.get?, if_pos rfl]
    · have hmem : field ∈ rowFields above last region es :=
        List.mem_filterMap.2 ⟨e, he, by rw [hfield]; rfl⟩
      cases hfirst : first.columnField? above last region with
      | none =>
        rw [List.filterMap_cons_none (by rw [hfirst]; rfl)] at hdistinct ⊢
        exact ih hdistinct he
      | some found =>
        rw [List.filterMap_cons_some (by rw [hfirst]; rfl)] at hdistinct ⊢
        obtain ⟨hnot, hdistinct⟩ := List.nodup_cons.1 hdistinct
        have hne : found.1 ≠ field := by
          rintro rfl
          exact hnot hmem
        rw [Members.get?, if_neg hne]
        exact ih hdistinct he

/-! ### The fields and calculations of a run -/

/-- Whether some records are filled from the table in a region, each field once, and nothing else is
written below their first name. -/
structure FillsRows (above : List String) (last region : String) (p : Processor) : Prop where
  /-- Every other field is below another first name. -/
  extractions : ∀ e ∈ p.extractions, (e.columnField? above last region).isSome = true ∨
    firstName? e.fieldPath ≠ some (above.headD last)
  calculations : ∀ c ∈ p.calculations, firstName? c.fieldPath ≠ some (above.headD last)
  nonempty : ∃ e ∈ p.extractions, (e.columnField? above last region).isSome = true
  distinct : (rowFields above last region p.extractions).Nodup

variable {tree tree' : Record Float}

/-- A column adds its field to the record of each row, without a warning. -/
theorem holdsRows_store {e : Extraction} {field : String} {column : Nat}
    (hfield : e.columnField? above last region = some (field, column))
    {done : List Extraction} (hnew : field ∉ rowFields above last region done)
    (hrows : Record.HoldsRows above last t.rows (rowRecord above last region input t done) tree)
    (hstore : (e.store tree (some (.many (t.rows.map (e.cellOf input t column))))).value =
      .ok tree') :
    Record.HoldsRows above last t.rows (rowRecord above last region input t (done ++ [e])) tree' ∧
      (e.store tree (some (.many (t.rows.map (e.cellOf input t column))))).trace.warnings = [] := by
  obtain ⟨hpath, -⟩ := Extraction.columnField?_eq_some.1 hfield
  obtain ⟨hwritten, hmismatch, hreplaced⟩ := Record.holdsRows_column (e.cellOf input t column)
    (fun row _ => get?_rowRecord_of_not_mem hnew row) hrows
  rw [Extraction.value_store hpath] at hstore
  cases hstore
  constructor
  · rw [rowRecord_append_of_some hfield]
    exact .inl hwritten
  · rw [Extraction.warnings_store hpath, hmismatch, hreplaced]
    rfl

/-- One more field: a column is added to the records, and any other field leaves them as they are.
Only another field is warned of. -/
theorem holdsRows_step {e : Extraction} {done : List Extraction}
    (he : (e.columnField? above last region).isSome = true ∨
      firstName? e.fieldPath ≠ some (above.headD last))
    (hpath : ∃ q, Path.parse e.fieldPath = .ok q)
    (hdistinct : (rowFields above last region (done ++ [e])).Nodup)
    (hvalue : (e.columnField? above last region).isSome = true →
      (e.extract input).value.isSome = true)
    (ht : t = Extraction.tableOf input region (Extraction.regionBlocks input region))
    (hrows : Record.HoldsRows above last t.rows (rowRecord above last region input t done) tree)
    (hstore : (e.store tree (e.extract input).value).value = .ok tree') :
    Record.HoldsRows above last t.rows (rowRecord above last region input t (done ++ [e])) tree' ∧
      ∀ w ∈ (e.extract input).trace.warnings ++
          (e.store tree (e.extract input).value).trace.warnings,
        firstName? e.fieldPath ≠ some (above.headD last) ∧ e.Titles w := by
  cases hfield : e.columnField? above last region with
  | some found =>
    obtain ⟨field, column⟩ := found
    obtain ⟨hextracted, hextract⟩ := Extraction.extract_column hfield (hvalue (by rw [hfield]; rfl))
    rw [← ht] at hextracted
    have hnew : field ∉ rowFields above last region done := by
      intro hmem
      unfold rowFields at hdistinct hmem
      rw [List.filterMap_append] at hdistinct
      exact (List.nodup_append.1 hdistinct).2.2 field hmem field (by simp [hfield]) rfl
    rw [hextracted] at hstore ⊢
    obtain ⟨hcolumn, hwarnings⟩ := holdsRows_store hfield hnew hrows hstore
    refine ⟨hcolumn, fun w hw => ?_⟩
    rw [hextract, hwarnings] at hw
    cases hw
  | none =>
    obtain ⟨path, hpath⟩ := hpath
    have hother : firstName? e.fieldPath ≠ some (above.headD last) := by
      rcases he with hsome | hother
      · rw [hfield] at hsome
        cases hsome
      · exact hother
    constructor
    · rw [rowRecord_append_of_none hfield]
      rw [firstName?_of_parse hpath] at hother
      rw [Extraction.value_store hpath] at hstore
      cases hstore
      split
      · exact Record.holdsRows_write hrows hother _
      · exact hrows
    · intro w hw
      rcases List.mem_append.1 hw with hw | hw
      · exact ⟨hother, e.warns_extract input w hw⟩
      · exact ⟨hother, e.warns_store tree _ w hw⟩

/-- The records after some fields, and what the warnings on the way are about: never a field of
the records. -/
theorem holdsRows_extractFields {es done : List Extraction}
    (hes : ∀ e ∈ es, (e.columnField? above last region).isSome = true ∨
      firstName? e.fieldPath ≠ some (above.headD last))
    (hpaths : ∀ e ∈ es, ∃ q, Path.parse e.fieldPath = .ok q)
    (hdistinct : (rowFields above last region (done ++ es)).Nodup)
    (hvalues : ∀ e ∈ es, (e.columnField? above last region).isSome = true →
      (e.extract input).value.isSome = true)
    (ht : t = Extraction.tableOf input region (Extraction.regionBlocks input region))
    (hrows : Record.HoldsRows above last t.rows (rowRecord above last region input t done) tree)
    (h : (extractFields input tree es).value = .ok tree') :
    Record.HoldsRows above last t.rows (rowRecord above last region input t (done ++ es)) tree' ∧
      (extractFields input tree es).Warns fun w =>
        ∃ e ∈ es, firstName? e.fieldPath ≠ some (above.headD last) ∧ e.Titles w := by
  -- The induction is on the fields that are left; those that are done fill the records.
  induction es generalizing done tree with
  | nil =>
    cases h
    rw [List.append_nil]
    exact ⟨hrows, warns_pure _⟩
  | cons e es ih =>
    have hassoc : done ++ e :: es = done ++ [e] ++ es := by simp
    rw [hassoc] at hdistinct ⊢
    have hfirst : (rowFields above last region (done ++ [e])).Nodup := by
      unfold rowFields at hdistinct ⊢
      rw [List.filterMap_append] at hdistinct
      exact (List.nodup_append.1 hdistinct).1
    obtain ⟨path, hpath⟩ := hpaths e List.mem_cons_self
    obtain ⟨next, hnext⟩ : ∃ next, (e.store tree (e.extract input).value).value = .ok next :=
      ⟨_, Extraction.value_store hpath _⟩
    rw [value_extractFields_cons, hnext] at h
    obtain ⟨hstep, hwarnings⟩ := holdsRows_step (hes e List.mem_cons_self) ⟨path, hpath⟩ hfirst
      (hvalues e List.mem_cons_self) ht hrows hnext
    obtain ⟨hfilled, hlater⟩ := ih (fun e' he' => hes e' (List.mem_cons_of_mem e he'))
      (fun e' he' => hpaths e' (List.mem_cons_of_mem e he')) hdistinct
      (fun e' he' => hvalues e' (List.mem_cons_of_mem e he')) hstep h
    refine ⟨hfilled, fun w hw => ?_⟩
    rw [warnings_extractFields_cons hnext, ← List.append_assoc] at hw
    rcases List.mem_append.1 hw with hw | hw
    · exact ⟨e, List.mem_cons_self, hwarnings w hw⟩
    · obtain ⟨e', he', hw'⟩ := hlater w hw
      exact ⟨e', List.mem_cons_of_mem e he', hw'⟩

/-- Calculations of other fields leave the records as they are. -/
theorem holdsRows_runCalculations {cs : List Calculation}
    {record : List (Block Float) → Record Float}
    (hcs : ∀ c ∈ cs, firstName? c.fieldPath ≠ some (above.headD last))
    (hpaths : ∀ c ∈ cs, ∃ q, Path.parse c.fieldPath = .ok q)
    (hrows : Record.HoldsRows above last t.rows record tree)
    (h : (runCalculations tree cs).value = .ok tree') :
    Record.HoldsRows above last t.rows record tree' := by
  induction cs generalizing tree with
  | nil =>
    cases h
    exact hrows
  | cons c cs ih =>
    obtain ⟨path, hpath⟩ := hpaths c List.mem_cons_self
    have hother := hcs c List.mem_cons_self
    rw [firstName?_of_parse hpath] at hother
    have hrest := fun next (hrows : Record.HoldsRows above last t.rows record next) =>
      ih (fun c' hc' => hcs c' (List.mem_cons_of_mem c hc'))
        (fun c' hc' => hpaths c' (List.mem_cons_of_mem c hc')) hrows
    rw [value_runCalculations_cons] at h
    obtain hrun | ⟨x, hrun⟩ := Calculation.value_run tree hpath
    · rw [hrun] at h
      exact hrest tree hrows h
    · rw [hrun] at h
      exact hrest _ (Record.holdsRows_write hrows hother _) h

/-- The tree of a run on fields that fill records from a table. -/
theorem at?_of_fillsRows {p : Processor} (hfills : FillsRows above last region p)
    (hpaths : ∀ path ∈ p.fieldPaths, ∃ q, Path.parse path = .ok q)
    (hvalues : ∀ e ∈ p.extractions, (e.columnField? above last region).isSome = true →
      (e.extract input).value.isSome = true)
    (ht : t = Extraction.tableOf input region (Extraction.regionBlocks input region))
    (h : (p.fill input).value = .ok tree) :
    (Node.map tree).at? ((above ++ [last]).map .key) =
        some (.sequence (t.rows.map (rowRecord above last region input t p.extractions))) ∧
      (extractFields input [] p.extractions).Warns fun w =>
        ∃ e ∈ p.extractions, firstName? e.fieldPath ≠ some (above.headD last) ∧ e.Titles w := by
  have hextractions : ∀ e ∈ p.extractions, ∃ q, Path.parse e.fieldPath = .ok q :=
    fun e he => hpaths _ (List.mem_append_left _ (List.mem_map_of_mem he))
  have hcalculations : ∀ c ∈ p.calculations, ∃ q, Path.parse c.fieldPath = .ok q :=
    fun c hc => hpaths _ (List.mem_append_right _ (List.mem_map_of_mem hc))
  obtain ⟨filled, hfilled⟩ := exists_extractFields input hextractions []
  rw [Processor.value_fill, hfilled] at h
  have hempty : Record.HoldsRows above last t.rows (rowRecord above last region input t [])
      ([] : Record Float) := .inr ⟨rfl, fun _ => rfl⟩
  have hdistinct : (rowFields above last region ([] ++ p.extractions)).Nodup := hfills.distinct
  obtain ⟨hrows, hwarns⟩ := holdsRows_extractFields hfills.extractions hextractions hdistinct
    hvalues ht hempty hfilled
  refine ⟨?_, hwarns⟩
  obtain hat | ⟨-, hempty⟩ :=
    holdsRows_runCalculations hfills.calculations hcalculations hrows h
  · exact hat
  · -- Some extraction fills a field, so that no record is empty.
    obtain ⟨e, he, hsome⟩ := hfills.nonempty
    obtain ⟨⟨field, column⟩, hfield⟩ := Option.isSome_iff_exists.1 hsome
    have hget : Members.get? (rowRecord above last region input t p.extractions []) field = _ :=
      get?_rowRecord hfills.distinct he hfield []
    have hnone : rowRecord above last region input t p.extractions [] = [] := hempty []
    rw [hnone] at hget
    cases hget

/-- No warning of a run is about a field of the records. -/
theorem not_titles_of_fillsRows {p : Processor} {e : Extraction} {field : String}
    (hpaths : ∀ path ∈ p.fieldPaths, ∃ q, Path.parse path = .ok q)
    (hpath : Path.parse e.fieldPath = .ok (Path.inRows above last field)) {l : Layout Float}
    {s : Settings Float} {anchors : FoundAnchors Float}
    (hanchors : (findAnchors l s p.anchors).value = .ok anchors)
    (hwarns : (extractFields (p.inputFor l s anchors) [] p.extractions).Warns fun w =>
      ∃ e ∈ p.extractions, firstName? e.fieldPath ≠ some (above.headD last) ∧ e.Titles w) :
    (p.collect l s).Warns fun w => ¬ e.Titles w := by
  have hother : ∀ w, ¬ AboutField w → ¬ e.Titles w :=
    fun w hw htitles => hw htitles.aboutField
  refine Processor.warns_collect hother hanchors ?_
  refine hwarns.mono fun w ⟨e', he', helsewhere, hw'⟩ hw => helsewhere ?_
  -- A warning about both fields would make them one field, but their first names differ.
  obtain ⟨path', hpath'⟩ := hpaths e'.fieldPath
    (List.mem_append_left _ (List.mem_map_of_mem he'))
  have hsame := Extraction.fieldPath_eq_of_titles hw hw'
    (Path.not_mem_of_parse hpath (by decide) (by decide))
    (Path.not_mem_of_parse hpath' (by decide) (by decide))
  rw [← hsame, firstName?_of_parse hpath, Path.head?_names_inRows]

/-- When fields are read from columns of one table into the records of one sequence, there is one
record for each row of the table, in order. Each field of a record is what the blocks of that row
say in the column of the field, and no warning is about the fields, in particular none about
lengths that differ. -/
theorem execute_rows {now : String} {v : Option (Value Float)} {p : Processor}
    (hp : Processor.ofInput now v = .ok p) (hfills : FillsRows above last region p)
    {l : Layout Float} {s : Settings Float} {anchors : FoundAnchors Float} {result : Execution}
    (hanchors : (findAnchors l s p.anchors).value = .ok anchors)
    (hrun : (execute s l p).value = .ok result)
    (hvalues : ∀ e ∈ p.extractions, (e.columnField? above last region).isSome = true →
      (e.extract (p.inputFor l s anchors)).value.isSome = true) :
    let input := p.inputFor l s anchors
    let t := Extraction.tableOf input region (Extraction.regionBlocks input region)
    ∃ records : List (Members (Value Float)),
      (Value.map result.data).at? ((above ++ [last]).map .key) = some (.list (records.map .map)) ∧
      records.length = t.rows.length ∧
      ∀ e ∈ p.extractions, ∀ field column,
        e.columnField? above last region = some (field, column) →
        (∀ w ∈ result.warnings, ¬ e.Titles w) ∧
        ∀ (i : Nat) (row : List (Block Float)), t.rows[i]? = some row →
          records[i]?.bind (Members.get? · field) = some (e.cellOf input t column row).toValue := by
  intro input t
  obtain ⟨anchors', tree, hanchors', htree, rfl⟩ := exists_of_execute_eq_ok hrun
  rw [hanchors] at hanchors'
  cases hanchors'
  have hpaths : ∀ path ∈ p.fieldPaths, ∃ q, Path.parse path = .ok q :=
    fun path hpath => Processor.exists_path_of_ofInput hp hpath
  obtain ⟨hat, hwarns⟩ := at?_of_fillsRows (t := t) hfills hpaths hvalues rfl htree
  -- The records of the data are those of the tree as plain values.
  let record := rowRecord above last region input t p.extractions
  refine ⟨t.rows.map fun row => entriesToValues (record row), ?_, List.length_map .., ?_⟩
  · have hdata := Node.at?_toValue hat
    rw [List.map_map]
    refine hdata.trans (congrArg some ?_)
    rw [Node.toValue, recordsToValues_eq_map, List.map_map]
    rfl
  · intro e he field column hfield
    obtain ⟨hpath, -⟩ := Extraction.columnField?_eq_some.1 hfield
    constructor
    · exact not_titles_of_fillsRows hpaths hpath hanchors hwarns
    · intro i row hrow
      rw [List.getElem?_map, hrow]
      show Members.get? (entriesToValues (record row)) field = _
      rw [get?_entriesToValues, get?_rowRecord hfills.distinct he hfield row]
      rfl

end

/-- A processor for score sheets as a plain value: a table of names and scores becomes players. -/
def scoreSpec : Value Float :=
  .map [("id", .str "scores"), ("name", .str "Scores"),
    ("anchors", .list [
      .map [("name", .str "name"), ("patterns", .list [.str "Name"]),
        ("role", .str "column_header")],
      .map [("name", .str "score"), ("patterns", .list [.str "Score"]),
        ("role", .str "column_header")]]),
    ("regions", .list [.map [("name", .str "table"), ("start_anchor", .str "name"),
      ("end_anchor", .str "end_of_document")]]),
    ("extraction_ops", .list [
      .map [("field_path", .str "players[].name"), ("source", .str "region.table.column[0]")],
      .map [("field_path", .str "title"), ("source", .str "literal:Scores")],
      .map [("field_path", .str "players[].score"), ("source", .str "region.table.column[1]"),
        ("transform", .str "to_int")]])]

/-- The processor that `scoreSpec` holds. -/
def scoreProcessor : Processor where
  id := "scores"
  name := "Scores"
  documentType := "generic"
  version := 1.0
  createdAt := ""
  updatedAt := ""
  fingerprint := none
  textPatterns := []
  anchors := [⟨"name", ["Name"], .contains, none, true, some .columnHeader⟩,
    ⟨"score", ["Score"], .contains, none, true, some .columnHeader⟩]
  regions := [⟨"table", "name", "end_of_document", .table, none⟩]
  extractions := [⟨"players[].name", "region.table.column[0]", none⟩,
    ⟨"title", "literal:Scores", none⟩,
    ⟨"players[].score", "region.table.column[1]", some .toInt⟩]
  calculations := []
  validations := []
  fieldColumns := none

/-- A block of a score sheet. -/
def sheetBlock (id text : String) (x y : Float) : Block Float :=
  ⟨id, text, ⟨x, y, x + 0.125, y + 0.0625, 1.0⟩, 99.0, none, false, .text⟩

/-- Two players, the first of whom has no score. -/
def scoreSheet : Layout Float :=
  onePage [sheetBlock "a" "Name" 0.125 0.125, sheetBlock "b" "Score" 0.5 0.125,
    sheetBlock "c" "Ann" 0.125 0.25, sheetBlock "d" "Bob" 0.125 0.5, sheetBlock "e" "7" 0.5 0.5]

/-- The blocks of the anchors of the score sheet. -/
def scoreAnchors : FoundAnchors Float :=
  (searchAnchors scoreSheet .standard ⟨[], none⟩ scoreProcessor.anchors).value.found

/-- A player without a score stays the first one, and the score below stays with the second. -/
theorem execute_rows_scoreSheet :
    ∃ (result : Execution) (records : List (Members (Value Float))),
      (execute .standard scoreSheet scoreProcessor).value = .ok result ∧
      (Value.map result.data).at? [.key "players"] = some (.list (records.map .map)) ∧
      records.length = 2 ∧
      records[0]?.bind (Members.get? · "score") = some (.num 0.0) ∧
      records[1]?.bind (Members.get? · "score") = some (.num 7.0) := by
  let input := scoreProcessor.inputFor scoreSheet .standard scoreAnchors
  let t := Extraction.tableOf input "table" (Extraction.regionBlocks input "table")
  let score : Extraction := ⟨"players[].score", "region.table.column[1]", some .toInt⟩
  have hread : Processor.ofInput "" (some scoreSpec) = .ok scoreProcessor := by rfl
  have hfills : FillsRows [] "players" "table" scoreProcessor :=
    ⟨by decide +kernel, by decide +kernel, by decide +kernel, by decide +kernel⟩
  have hanchors : (findAnchors scoreSheet .standard scoreProcessor.anchors).value =
      .ok scoreAnchors := by
    have hnone : firstMissing scoreSheet .standard scoreProcessor.anchors = none := by
      decide +kernel
    rw [value_findAnchors, hnone, scoreAnchors]
  obtain ⟨tree, htree⟩ := scoreProcessor.exists_fill input
    fun path hpath => Processor.exists_path_of_ofInput hread hpath
  have hrun : (execute .standard scoreSheet scoreProcessor).value =
      .ok (scoreProcessor.resultFor scoreSheet .standard scoreAnchors tree) := by
    rw [value_execute, hanchors]
    simp only [htree, input]
  have hvalues : ∀ e ∈ scoreProcessor.extractions,
      (e.columnField? [] "players" "table").isSome = true →
        (e.extract input).value.isSome = true := by
    decide +kernel
  have hcells : t.rows.map (score.cellOf input t 1) = [.num 0.0, .num 7.0] := by
    decide +kernel
  obtain ⟨records, hdata, hlength, hfields⟩ := execute_rows hread hfills hanchors hrun hvalues
  have hscore := (hfields score (by decide) "score" 1 (by decide +kernel)).2
  have hcell : ∀ (i : Nat) (v : Scalar Float),
      (t.rows.map (score.cellOf input t 1))[i]? = some v →
        records[i]?.bind (Members.get? · "score") = some v.toValue := by
    intro i v hv
    rw [List.getElem?_map] at hv
    obtain ⟨row, hrow, rfl⟩ := Option.map_eq_some_iff.1 hv
    exact hscore i row hrow
  rw [hcells] at hcell
  refine ⟨_, records, hrun, hdata, ?_, hcell 0 _ rfl, hcell 1 _ rfl⟩
  rw [hlength]
  exact (List.length_map ..).symm.trans (congrArg List.length hcells)

end PageExtract
