/-
Headers and data of a table.

The data of a table are the blocks of its region that are neither anchors which can head columns nor
blocks from which its columns come. Blocks are told apart by their ids, and an anchor that was found
over several blocks is a block with an id of its own: the blocks that it was joined from are data
like any others, although they say the words of a header.

* `Heads`, `isAmong_headerCandidates` — the anchors that can head the columns of a region;
* `Table.Splits` — a table with the columns of some headers, and with other blocks in its rows;
* `splits_ofHeaders`, `exists_splits_ofRows`, `exists_splits_withoutAnchors` — each kind of table;
* `Table.ofData`, `inferTable_cons` — the table of some candidates and data;
* `exists_headers_inferTable` — the table of a region, and where its headers come from;
* `inferTable_data` — which blocks of a region are the data of its table;
* `inferTable_joined` — a table whose first record is the words of a header.
-/
import Mathlib.Data.List.Nodup
import PageExtract.Region.Found
import PageExtract.Proofs.Table.Rows

namespace PageExtract

variable {ν : Type}

/-! ### Header anchors -/

theorem Block.isAmong_iff {b : Block ν} {bs : List (Block ν)} :
    b.isAmong bs = true ↔ ∃ c ∈ bs, c.id = b.id := by
  simp [Block.isAmong]

section

variable [Numeric ν]

/-- Whether one of some names is that of an anchor which was found at a block of a page. -/
def Heads (found : FoundAnchors ν) (page : ν) (names : List String) (h : Block ν) : Prop :=
  ∃ name ∈ names, Members.get? found name = some h ∧ (h.box.page == page) = true

theorem heads_cons {found : FoundAnchors ν} {page : ν} {name : String} {names : List String}
    {h : Block ν} :
    Heads found page (name :: names) h ↔
      (Members.get? found name = some h ∧ (h.box.page == page) = true) ∨
        Heads found page names h := by
  simp [Heads]

/-- A block has the id of a candidate exactly if it has that of an anchor that can head a column. -/
theorem isAmong_headerCandidates (found : FoundAnchors ν) (page : ν) (seen : List (Block ν))
    (names : List String) (c : Block ν) :
    c.isAmong (headerCandidates found page seen names) = true ↔
      c.isAmong seen = true ∨ ∃ h, Heads found page names h ∧ h.id = c.id := by
  induction names generalizing seen with
  | nil => simp [headerCandidates, Heads, Block.isAmong]
  | cons name names ih =>
    have hsplit : (∃ h, Heads found page (name :: names) h ∧ h.id = c.id) ↔
        (∃ h, (Members.get? found name = some h ∧ (h.box.page == page) = true) ∧ h.id = c.id) ∨
          ∃ h, Heads found page names h ∧ h.id = c.id := by
      simp only [heads_cons, or_and_right, exists_or]
    rw [headerCandidates, hsplit]
    cases hget : Members.get? found name with
    | none =>
      rw [ih]
      simp
    | some b =>
      have hsome : (∃ h, (some b = some h ∧ (h.box.page == page) = true) ∧ h.id = c.id) ↔
          (b.box.page == page) = true ∧ b.id = c.id := by
        simp
      rw [hsome]
      show c.isAmong (if _ then _ else _) = true ↔ _
      by_cases hpage : (b.box.page == page) = true
      · by_cases hseen : b.isAmong seen = true
        · -- The id of the anchor has been there before, so nothing is new.
          have hknown : b.id = c.id → c.isAmong seen = true := by
            intro hid
            obtain ⟨d, hd, hdb⟩ := Block.isAmong_iff.1 hseen
            exact Block.isAmong_iff.2 ⟨d, hd, hdb.trans hid⟩
          rw [if_pos (by simp [hseen]), ih, ← or_assoc]
          exact or_congr_left ⟨.inl, fun h => h.elim id fun hboth => hknown hboth.2⟩
        · have hadd : c.isAmong (b :: seen) = true ↔ c.isAmong seen = true ∨ b.id = c.id := by
            simp [Block.isAmong, or_comm]
          rw [if_neg (by simp [hpage, hseen]), ih, hadd, or_assoc, and_iff_right hpage]
      · rw [if_pos (by simp [hpage]), ih]
        exact or_congr_right ⟨.inr, fun h => h.elim (fun hboth => (hpage hboth.1).elim) id⟩

/-- A candidate is a block that such an anchor was found at. -/
theorem heads_of_mem_headerCandidates {found : FoundAnchors ν} {page : ν} {seen : List (Block ν)}
    {names : List String} {h : Block ν} (hh : h ∈ headerCandidates found page seen names) :
    h ∈ seen ∨ Heads found page names h := by
  induction names generalizing seen with
  | nil => exact .inl (List.mem_reverse.1 hh)
  | cons name names ih =>
    rw [heads_cons]
    rw [headerCandidates] at hh
    cases hget : Members.get? found name with
    | none =>
      rw [hget] at hh
      exact (ih hh).imp_right .inr
    | some b =>
      rw [hget] at hh
      simp only at hh
      split at hh
      · exact (ih hh).imp_right .inr
      · rename_i hnew
        obtain hmem | hheads := ih hh
        · obtain rfl | hmem := List.mem_cons.1 hmem
          · have hpage : (h.box.page == page) = true := by
              simp only [Bool.or_eq_true, not_or, Bool.not_eq_true', Bool.not_eq_false] at hnew
              exact hnew.1
            exact .inr (.inl ⟨rfl, hpage⟩)
          · exact .inl hmem
        · exact .inr (.inr hheads)

end

/-! ### Rows and what is left out of them -/

theorem Block.isAmong_mono {b : Block ν} {bs cs : List (Block ν)} (hsub : bs ⊆ cs)
    (h : b.isAmong bs = true) : b.isAmong cs = true := by
  obtain ⟨c, hc, hid⟩ := isAmong_iff.1 h
  exact isAmong_iff.2 ⟨c, hsub hc, hid⟩

section

variable [Numeric ν]

/-- Whether a table has the columns of some headers, and in its rows those of some blocks that do
not have the id of a header. -/
structure Table.Splits (t : Table ν) (blocks headers : List (Block ν)) : Prop where
  columns : t.columns = columnRanges headers
  mem_rows : ∀ c, (∃ row ∈ t.rows, c ∈ row) ↔ c ∈ blocks ∧ c.isAmong headers = false

theorem exists_mem_groupRows (tolerance : ν) (bs : List (Block ν)) (c : Block ν) :
    (∃ row ∈ groupRows tolerance bs, c ∈ row) ↔ c ∈ bs := by
  rw [← List.mem_flatten]
  exact (perm_groupRows tolerance bs).mem_iff

/-- Headers that are no data. -/
theorem splits_ofHeaders (tolerance : ν) {headers data : List (Block ν)}
    (h : ∀ c ∈ data, c.isAmong headers = false) :
    (Table.ofHeaders tolerance headers data).Splits data headers where
  columns := rfl
  mem_rows c := by
    rw [Table.ofHeaders, exists_mem_groupRows]
    exact ⟨fun hc => ⟨hc, h c hc⟩, And.left⟩

/-- Headers that are taken out of the data. -/
theorem splits_ofHeaders_filter (tolerance : ν) (headers data : List (Block ν)) :
    (Table.ofHeaders tolerance headers (data.filter fun b => !b.isAmong headers)).Splits data
      headers where
  columns := rfl
  mem_rows c := by
    rw [Table.ofHeaders, exists_mem_groupRows, List.mem_filter, Bool.not_eq_true']

/-- The first row as headers: no other row has a block of it, as the ids of blocks differ. -/
theorem exists_splits_ofRows (tolerance : ν) {data : List (Block ν)}
    (hids : (data.map (·.id)).Nodup) :
    ∃ headers, (Table.ofRows (groupRows tolerance data)).Splits data headers ∧
      headers ⊆ data := by
  have hperm := perm_groupRows tolerance data
  cases hrows : groupRows tolerance data with
  | nil =>
    have hdata : data = [] := by
      rw [hrows] at hperm
      exact hperm.symm.eq_nil
    refine ⟨[], ⟨rfl, fun c => ?_⟩, List.nil_subset data⟩
    simp [Table.ofRows, hdata]
  | cons headers rows =>
    rw [hrows, List.flatten_cons] at hperm
    have hdistinct := (hperm.map (·.id)).nodup_iff.2 hids
    rw [List.map_append] at hdistinct
    have hdisjoint := (List.nodup_append.1 hdistinct).2.2
    refine ⟨headers, ⟨rfl, fun c => ?_⟩, fun h hh => hperm.mem_iff.1 (List.mem_append_left _ hh)⟩
    show (∃ row ∈ rows, c ∈ row) ↔ _
    rw [← List.mem_flatten, ← hperm.mem_iff, List.mem_append]
    constructor
    · intro hc
      refine ⟨.inr hc, ?_⟩
      rw [← Bool.not_eq_true, Block.isAmong_iff]
      rintro ⟨h, hh, hid⟩
      exact hdisjoint h.id (List.mem_map_of_mem hh) c.id (List.mem_map_of_mem hc) hid
    · rintro ⟨hc | hc, hnot⟩
      · rw [Block.isAmong_iff.2 ⟨c, hc, rfl⟩] at hnot
        cases hnot
      · exact hc

theorem mem_startRow {l : Layout ν} {tolerance : ν} {start h : Block ν}
    (hh : h ∈ startRow l tolerance start) : h = start ∨ h ∈ l.blocks := by
  refine (List.mem_cons.1 hh).imp_right fun hh => ?_
  have hsorted := (List.mem_filter.1 hh).1
  exact (List.mem_filter.1 ((sortBy_perm leftOf _).mem_iff.1 hsorted)).1

/-- Headers that no anchor is found at are the row of the start anchor or the first row. -/
theorem exists_splits_withoutAnchors (l : Layout ν) (tolerance : ν) (start : Option (Block ν))
    {data : List (Block ν)} (hids : (data.map (·.id)).Nodup) :
    ∃ headers, (Table.withoutAnchors l tolerance start data).Splits data headers ∧
      ∀ h ∈ headers, h ∈ data ∨ h ∈ l.blocks ∨ start = some h := by
  unfold Table.withoutAnchors
  split
  · rename_i s t more hrow
    refine ⟨_, splits_ofHeaders_filter tolerance _ data, fun h hh => .inr ?_⟩
    obtain ⟨b, hstart, hb⟩ := Option.map_eq_some_iff.1 hrow
    rw [← hb] at hh
    obtain rfl | hh := mem_startRow hh
    · exact .inr hstart
    · exact .inl hh
  · obtain ⟨headers, hsplits, hsub⟩ := exists_splits_ofRows tolerance hids
    exact ⟨headers, hsplits, fun h hh => .inl (hsub hh)⟩

theorem tableHeaders_subset (tolerance : ν) (candidates : List (Block ν)) (first : Block ν)
    (more : List (Block ν)) : tableHeaders tolerance candidates first more ⊆ candidates := by
  intro h hh
  unfold tableHeaders lowestRow at hh
  simp only at hh
  split at hh
  · cases hh
  · exact (List.mem_filter.1 (List.mem_filter.1 hh).1).1

/-- The table of some candidates and data. -/
def Table.ofData (l : Layout ν) (tolerance : ν) (start : Option (Block ν))
    (candidates : List (Block ν)) : List (Block ν) → Table ν
  | [] => ⟨[], []⟩
  | first :: more =>
    match tableHeaders tolerance candidates first more with
    | [] => .withoutAnchors l tolerance start (first :: more)
    | h :: hs => .ofHeaders tolerance (h :: hs) (first :: more)

/-- A table is that of the candidates of its region, and of the blocks that are none. -/
theorem inferTable_cons (l : Layout ν) (first : Block ν)
    (more : List (Block ν)) (region : Option Region) (anchors : List Anchor)
    (found : FoundAnchors ν) (tolerance : ν) :
    inferTable l (first :: more) region anchors found tolerance =
      let candidates := headerCandidates found first.box.page [] (headerNames region anchors)
      .ofData l tolerance (startOf found first.box.page region) candidates
        ((first :: more).filter fun b => !b.isAmong candidates) := by
  unfold inferTable
  simp only
  generalize headerCandidates found first.box.page [] (headerNames region anchors) = candidates
  cases (first :: more).filter fun b => !b.isAmong candidates with
  | nil => rfl
  | cons b bs => rfl

theorem get?_of_startOf {found : FoundAnchors ν} {page : ν} {region : Option Region} {h : Block ν}
    (hstart : startOf found page region = some h) : ∃ name, Members.get? found name = some h := by
  cases region with
  | none => cases hstart
  | some r => exact ⟨r.startAnchor, (Option.filter_eq_some_iff.1 hstart).1⟩

/-- A table splits the blocks of its region that do not have the id of a candidate: whatever its
headers are, a candidate among them is no such block. They are blocks of the region or of the
document, or blocks that anchors were found at. -/
theorem exists_headers_inferTable (l : Layout ν) {first : Block ν} {more : List (Block ν)}
    (hids : ((first :: more).map (·.id)).Nodup) (region : Option Region) (anchors : List Anchor)
    (found : FoundAnchors ν) (tolerance : ν) :
    ∃ headers, (inferTable l (first :: more) region anchors found tolerance).Splits
      ((first :: more).filter fun b => !b.isAmong
        (headerCandidates found first.box.page [] (headerNames region anchors))) headers ∧
      ∀ h ∈ headers, h ∈ first :: more ∨ h ∈ l.blocks ∨
        ∃ name, Members.get? found name = some h := by
  have hcandidate : ∀ h ∈ headerCandidates found first.box.page [] (headerNames region anchors),
      ∃ name, Members.get? found name = some h := by
    intro h hh
    obtain hmem | ⟨name, -, hget, -⟩ := heads_of_mem_headerCandidates hh
    · cases hmem
    · exact ⟨name, hget⟩
  rw [inferTable_cons]
  simp only
  generalize headerCandidates found first.box.page [] (headerNames region anchors) = candidates
    at hcandidate
  cases hdata : (first :: more).filter fun b => !b.isAmong candidates with
  | nil => exact ⟨[], ⟨rfl, fun c => by simp [Table.ofData]⟩, List.forall_mem_nil _⟩
  | cons b bs =>
    have hdistinct : ((b :: bs).map (·.id)).Nodup := by
      rw [← hdata]
      exact hids.sublist (List.filter_sublist.map _)
    have hother : ∀ c ∈ b :: bs, c.isAmong candidates = false := by
      intro c hc
      rw [← hdata] at hc
      simpa using (List.mem_filter.1 hc).2
    rw [Table.ofData]
    cases hheaders : tableHeaders tolerance candidates b bs with
    | nil =>
      obtain ⟨headers, hsplits, horigin⟩ := exists_splits_withoutAnchors l tolerance
        (startOf found first.box.page region) hdistinct
      refine ⟨headers, hsplits, fun h hh => ?_⟩
      obtain hmem | hmem | hstart := horigin h hh
      · rw [← hdata] at hmem
        exact .inl (List.mem_filter.1 hmem).1
      · exact .inr (.inl hmem)
      · exact .inr (.inr (get?_of_startOf hstart))
    | cons h hs =>
      have hsub := tableHeaders_subset tolerance candidates b bs
      rw [hheaders] at hsub
      refine ⟨h :: hs, splits_ofHeaders tolerance fun c hc => ?_, fun k hk =>
        .inr (.inr (hcandidate k (hsub hk)))⟩
      rw [← Bool.not_eq_true]
      intro hamong
      have hknown := Block.isAmong_mono hsub hamong
      rw [hother c hc] at hknown
      cases hknown

theorem exists_splits_inferTable (l : Layout ν) {first : Block ν} {more : List (Block ν)}
    (hids : ((first :: more).map (·.id)).Nodup) (region : Option Region) (anchors : List Anchor)
    (found : FoundAnchors ν) (tolerance : ν) :
    ∃ headers, (inferTable l (first :: more) region anchors found tolerance).Splits
      ((first :: more).filter fun b => !b.isAmong
        (headerCandidates found first.box.page [] (headerNames region anchors))) headers :=
  (exists_headers_inferTable l hids region anchors found tolerance).imp fun _ h => h.1

/-- The data of a table are the blocks of its region that have neither the id of an anchor which can
head its columns nor that of a block from which its columns come. What an anchor was joined from is
no exception: its id counts, and those of its blocks do not. -/
theorem inferTable_data (l : Layout ν) {first : Block ν} {more : List (Block ν)}
    (hids : ((first :: more).map (·.id)).Nodup) (region : Option Region) (anchors : List Anchor)
    (found : FoundAnchors ν) (tolerance : ν) :
    let t := inferTable l (first :: more) region anchors found tolerance
    ∃ headers, t.columns = columnRanges headers ∧
      ∀ c, (∃ row ∈ t.rows, c ∈ row) ↔ c ∈ first :: more ∧
        (∀ h, Heads found first.box.page (headerNames region anchors) h → h.id ≠ c.id) ∧
        ∀ h ∈ headers, h.id ≠ c.id := by
  intro t
  obtain ⟨headers, hcolumns, hrows⟩ :=
    exists_splits_inferTable l hids region anchors found tolerance
  refine ⟨headers, hcolumns, fun c => ?_⟩
  have hheaders : c.isAmong headers = false ↔ ∀ h ∈ headers, h.id ≠ c.id := by
    rw [← Bool.not_eq_true, Block.isAmong_iff]
    simp
  have hcandidates : c.isAmong (headerCandidates found first.box.page []
      (headerNames region anchors)) = false ↔
        ∀ h, Heads found first.box.page (headerNames region anchors) h → h.id ≠ c.id := by
    rw [← Bool.not_eq_true, isAmong_headerCandidates]
    simp [Block.isAmong]
  rw [hrows, List.mem_filter, Bool.not_eq_true', hcandidates, hheaders, and_assoc]

end

/-! ### Headers of several blocks -/

/-- A block on a line of the sheet. -/
def stockBlock (id text : String) (x0 x1 y : Float) : Block Float :=
  ⟨id, text, ⟨x0, y, x1, y + 0.02, 0.0⟩, 99.0, none, false, .text⟩

/-- The two words of a header. -/
def unitWord : Block Float := stockBlock "c" "Unit" 0.5 0.55 0.1

def priceWord : Block Float := stockBlock "d" "price" 0.56 0.62 0.1

/-- What is below the title of the sheet. -/
def stockRows : List (Block Float) :=
  [stockBlock "b" "Item" 0.1 0.2 0.1, unitWord, priceWord, stockBlock "e" "Pen" 0.1 0.2 0.2,
    stockBlock "f" "2" 0.5 0.55 0.2]

/-- A sheet with a title and a table, where one header has two words. -/
def stockSheet : Layout Float :=
  ⟨none, 1.0, [(612.0, 792.0)], stockBlock "a" "Stock" 0.1 0.3 0.05 :: stockRows, "", none⟩

def stockAnchors : List Anchor :=
  [⟨"title", ["Stock"], .contains, none, true, none⟩,
    ⟨"item", ["Item"], .contains, none, true, some .columnHeader⟩,
    ⟨"price", ["Unit price"], .contains, none, true, some .columnHeader⟩]

/-- The anchors of the sheet: the header of two words is joined from its words. -/
def stockFound : FoundAnchors Float :=
  [("title", stockBlock "a" "Stock" 0.1 0.3 0.05), ("item", stockBlock "b" "Item" 0.1 0.2 0.1),
    ("price", joinChain unitWord [priceWord])]

def stockRegion : Region := ⟨"table", "title", "end_of_document", .table, none⟩

/-- In the sheet the second word of the header is data unless one of its columns comes from it. -/
theorem inferTable_data_stock : ∃ headers,
    (inferTable stockSheet stockRows (some stockRegion) stockAnchors stockFound 0.015).columns =
      columnRanges headers ∧
    ((∃ row ∈ (inferTable stockSheet stockRows (some stockRegion) stockAnchors stockFound
        0.015).rows, priceWord ∈ row) ↔ priceWord ∈ stockRows ∧
      (∀ k, Heads stockFound 0.0 (headerNames (some stockRegion) stockAnchors) k →
        k.id ≠ priceWord.id) ∧ ∀ k ∈ headers, k.id ≠ priceWord.id) := by
  have hids : ((stockBlock "b" "Item" 0.1 0.2 0.1 :: stockRows.tail).map (·.id)).Nodup := by
    decide
  obtain ⟨headers, hcolumns, hrows⟩ := inferTable_data stockSheet hids (some stockRegion)
    stockAnchors stockFound 0.015
  exact ⟨headers, hcolumns, hrows priceWord⟩

/-- The price heads the table and was joined from two words, and these are the first record. -/
theorem inferTable_joined :
    Heads stockFound 0.0 (headerNames (some stockRegion) stockAnchors)
      (joinChain unitWord [priceWord]) ∧
    (findAnchors stockSheet .standard stockAnchors).value.toOption = some stockFound ∧
    (findRegions stockSheet stockFound [stockRegion]).value = [("table", stockRows)] ∧
    (inferTable stockSheet stockRows (some stockRegion) stockAnchors stockFound 0.015).rows =
      [[unitWord, priceWord], [stockBlock "e" "Pen" 0.1 0.2 0.2, stockBlock "f" "2" 0.5 0.55 0.2]] := by
  refine ⟨⟨"price", ?_, rfl, ?_⟩, ?_⟩
  · decide
  · decide +kernel
  · decide +kernel

end PageExtract
