/-
Columns that are named by their headers.

A processor can name the header of the column that a field is read from. If a table has such a
column, the position that the source of the field gives is not used: whatever it is, also if the
table does not have so many columns, the field has the texts of the leftmost column with the header,
and nothing is reported as a problem.

* `FirstColumn`, `columnByHeader_eq_some_iff` — the leftmost column with a header;
* `Extraction.value_columnOf` — the column of a field with a header;
* `Extraction.raw_corrected` — all sources that name a column of the region give the same value.
-/
import PageExtract.Proofs.Execution.Quiet

namespace PageExtract

/-- Whether a column is the leftmost one with a header. Neither case nor blank characters around a
header count. -/
def FirstColumn {ν : Type} (columns : List (ColumnRange ν)) (header : String) (i : Nat) : Prop :=
  (∃ r, columns[i]? = some r ∧ headerKey r.header = headerKey header) ∧
    ∀ j < i, ∀ r, columns[j]? = some r → headerKey r.header ≠ headerKey header

section

variable {ν : Type} {columns : List (ColumnRange ν)} {header : String} {i : Nat}

theorem FirstColumn.lt_length (h : FirstColumn columns header i) : i < columns.length := by
  obtain ⟨⟨r, hr, -⟩, -⟩ := h
  exact (List.getElem?_eq_some_iff.1 hr).1

theorem columnByHeader_eq_some_iff :
    columnByHeader columns header = some i ↔ FirstColumn columns header i := by
  rw [columnByHeader, List.findIdx?_eq_some_iff_getElem]
  constructor
  · rintro ⟨hi, hsame, hbefore⟩
    refine ⟨⟨columns[i], List.getElem?_eq_getElem hi, beq_iff_eq.1 hsame⟩, fun j hj r hr heq => ?_⟩
    obtain ⟨hjlt, hget⟩ := List.getElem?_eq_some_iff.1 hr
    exact hbefore j hj (beq_iff_eq.2 (hget ▸ heq))
  · intro h
    have hi := h.lt_length
    obtain ⟨⟨r, hr, hsame⟩, hbefore⟩ := h
    obtain ⟨_, hget⟩ := List.getElem?_eq_some_iff.1 hr
    refine ⟨hi, beq_iff_eq.2 (hget.symm ▸ hsame), fun j hj heq => ?_⟩
    exact hbefore j hj columns[j] (List.getElem?_eq_getElem _) (beq_iff_eq.1 heq)

/-- If some column has a header, one of them is the leftmost. -/
theorem exists_firstColumn (h : ∃ r ∈ columns, headerKey r.header = headerKey header) :
    ∃ i, FirstColumn columns header i := by
  obtain ⟨r, hr, hsame⟩ := h
  have hfound : (columnByHeader columns header).isSome = true := by
    rw [columnByHeader, List.findIdx?_isSome, List.any_eq_true]
    exact ⟨r, hr, beq_iff_eq.2 hsame⟩
  obtain ⟨i, hi⟩ := Option.isSome_iff_exists.1 hfound
  exact ⟨i, columnByHeader_eq_some_iff.1 hi⟩

end

namespace Extraction

/-- A field with a header is read from the leftmost column with it. -/
theorem value_columnOf {e : Extraction} {p : Processor} {t : Table Float} {header : String}
    {i : Nat} (hheader : p.fieldColumns.bind (Members.get? · (fieldName e.fieldPath)) = some header)
    (hfirst : FirstColumn t.columns header i) (declared : Nat) :
    (e.columnOf p t declared).value = i := by
  unfold columnOf
  rw [hheader]
  simp only
  rw [columnByHeader_eq_some_iff.2 hfirst]
  simp only
  split <;> rfl

/-- The texts of that column, without a warning. -/
theorem column_of_firstColumn {e : Extraction} {input : ExtractionInput} {header region : String}
    {blocks : List (Block Float)} {i : Nat}
    (hheader : input.processor.fieldColumns.bind (Members.get? · (fieldName e.fieldPath)) =
      some header)
    (hfirst : FirstColumn (tableOf input region blocks).columns header i) (declared : Nat) :
    (e.column input region blocks declared).value = rowsOrFirst e.fieldPath
        ((tableOf input region blocks).columnTexts i input.settings.columnTolerance) ∧
      (e.column input region blocks declared).Quiet := by
  have hvalue := value_columnOf hheader hfirst declared
  have hquiet := e.quiet_columnOf input.processor (tableOf input region blocks) declared
  unfold column
  simp only
  rw [Trace.value_bind, quiet_bind_of_quiet hquiet, hvalue, if_pos hfirst.lt_length]
  exact ⟨rfl, quiet_pure _⟩

/-- If the processor names a header for a field and the table of a region has a column with it, then
whichever column of the region a source names, in the table or not, the value of the field before
the transform is made of the texts of the leftmost column with the header: all of them for a path
with the mark of a sequence, else the first one, if there is a row. There is no warning. -/
theorem raw_corrected {input : ExtractionInput} {fieldPath header region : String}
    (hheader : input.processor.fieldColumns.bind (Members.get? · (fieldName fieldPath)) =
      some header)
    (hcolumn : ∃ r ∈ (tableOf input region (regionBlocks input region)).columns,
      headerKey r.header = headerKey header) :
    let t := tableOf input region (regionBlocks input region)
    ∃ i, FirstColumn t.columns header i ∧
      ∀ (e : Extraction) (declared : Nat), e.fieldPath = fieldPath →
        Source.parse? e.source = some (.regionColumn region declared) →
        let texts := t.columnTexts i input.settings.columnTolerance
        (e.raw input).value = (if isRowPath fieldPath then some (.many (texts.map .str))
          else texts.head?.map fun s => .one (.str s)) ∧
        (e.raw input).trace.warnings = [] := by
  intro t
  obtain ⟨i, hfirst⟩ := exists_firstColumn hcolumn
  refine ⟨i, hfirst, fun e declared hpath hsource => ?_⟩
  subst hpath
  unfold raw
  rw [hsource]
  simp only [ofSource]
  cases hblocks : regionBlocks input region with
  | nil =>
    -- A region without blocks has a table without columns.
    have hlt := hfirst.lt_length
    rw [hblocks] at hlt
    exact (Nat.not_lt_zero i hlt).elim
  | cons b bs =>
    rw [hblocks] at hfirst
    have hcolumn := column_of_firstColumn hheader hfirst declared
    simp only [t, hblocks]
    exact hcolumn

end Extraction

/-! ### A header that is there twice -/

/-- A block on a line of the game. -/
def gameBlock (id text : String) (x y : Float) : Block Float :=
  ⟨id, text, ⟨x, y, x + 0.1, y + 0.02, 0.0⟩, 99.0, none, false, .text⟩

/-- A title and a table below it, where two columns have one header. The second player has no block
in the first of them. -/
def gameSheet : Layout Float :=
  ⟨none, 1.0, [(612.0, 792.0)],
    [gameBlock "a" "Game" 0.1 0.02, gameBlock "b" "Name" 0.1 0.1, gameBlock "c" "Fouls " 0.4 0.1,
      gameBlock "d" "FOULS" 0.7 0.1, gameBlock "e" "Ann" 0.1 0.2, gameBlock "f" "2" 0.4 0.2,
      gameBlock "g" "5" 0.7 0.2, gameBlock "h" "Bob" 0.1 0.3, gameBlock "i" "4" 0.7 0.3], "", none⟩

/-- The fouls are in the column with the header `fouls`. -/
def gameProcessor : Processor where
  id := "game"
  name := "Game"
  documentType := "generic"
  version := 1.0
  createdAt := ""
  updatedAt := ""
  fingerprint := none
  textPatterns := []
  anchors := [⟨"game", ["Game"], .contains, none, true, none⟩]
  regions := [⟨"table", "game", "end_of_document", .table, none⟩]
  extractions := []
  calculations := []
  validations := []
  fieldColumns := some [("fouls", "fouls")]

def gameInput : ExtractionInput :=
  gameProcessor.inputFor gameSheet .standard [("game", gameBlock "a" "Game" 0.1 0.02)]

/-- The names of the players and a column that is not there are corrected to the same column. -/
theorem Extraction.raw_corrected_game :
    let fouls (source : String) : Extraction := ⟨"players[].fouls", source, none⟩
    ((fouls "region.table.column[0]").raw gameInput).value = some (.many [.str "2", .str ""]) ∧
      ((fouls "region.table.column[99]").raw gameInput).value =
        ((fouls "region.table.column[0]").raw gameInput).value ∧
      ((fouls "region.table.column[99]").raw gameInput).trace.warnings = [] := by
  intro fouls
  have hheader : gameInput.processor.fieldColumns.bind
      (Members.get? · (fieldName "players[].fouls")) = some "fouls" := by
    decide +kernel
  have hcolumn : ∃ r ∈ (Extraction.tableOf gameInput "table"
      (Extraction.regionBlocks gameInput "table")).columns,
      headerKey r.header = headerKey "fouls" := by
    decide +kernel
  obtain ⟨i, -, hraw⟩ := Extraction.raw_corrected hheader hcolumn
  have hfirst : Source.parse? "region.table.column[0]" = some (.regionColumn "table" 0) := by
    decide +kernel
  have hfar : Source.parse? "region.table.column[99]" = some (.regionColumn "table" 99) := by
    decide +kernel
  obtain ⟨hvalue, -⟩ := hraw (fouls "region.table.column[0]") 0 rfl hfirst
  obtain ⟨hvalue', hquiet⟩ := hraw (fouls "region.table.column[99]") 99 rfl hfar
  exact ⟨by decide +kernel, hvalue'.trans hvalue.symm, hquiet⟩

end PageExtract
