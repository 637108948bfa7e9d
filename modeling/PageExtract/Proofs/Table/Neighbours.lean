/-
Headers of other tables.

Without rounding, an anchor that heads another table of the page does not matter to the table of a
region: its block is no longer data, and nothing else changes. It is another table's if it is below
the first row of the region, or above the anchors that head its columns. Where no anchor heads them,
the row of the start anchor or the first row of the region does, and there the nearest anchor above
takes the place of that row, whichever table it belongs to.

* `AddsHeader`, `headerCandidates_addHeader` — one more header anchor, and the candidates with it;
* `lowestRow_insert`, `tableHeaders_insert` — the anchors that head the columns stay the same;
* `IsApart` — whether a block is far from the first row of the data and from their headers;
* `Table.Omits`, `omits_withoutAnchors`, `omits_ofData` — the table when a block is no longer data;
* `inferTable_addHeader` — the table of a region with one more header anchor;
* `columns_addHeader_summary` — an anchor above the row of the start anchor.
-/
import PageExtract.Proofs.Table.Headers

namespace PageExtract

/-! ### One more candidate -/

theorem Block.isAmong_insert {ν : Type} (c h : Block ν) (pre post : List (Block ν)) :
    c.isAmong (pre ++ h :: post) = (c.isAmong (pre ++ post) || h.id == c.id) := by
  simp only [isAmong, List.any_append, List.any_cons]
  rw [Bool.or_assoc, Bool.or_comm (h.id == c.id)]

section

variable {ν : Type} [Numeric ν]

/-- Whether what is known of anchors differs by a further header anchor, which was found at `h`. -/
structure AddsHeader (found found' : FoundAnchors ν) (region region' : Option Region)
    (anchors anchors' : List Anchor) (page : ν) (h : Block ν) : Prop where
  names : ∃ before name after, headerNames region anchors = before ++ after ∧
    headerNames region' anchors' = before ++ name :: after ∧ Members.get? found' name = some h
  kept : ∀ name ∈ headerNames region anchors, Members.get? found' name = Members.get? found name
  start : startOf found' page region' = startOf found page region

/-- An anchor with a role is a further header of a region that does not name its headers. -/
theorem addsHeader_anchor {found found' : FoundAnchors ν} {r : Region} (page : ν)
    (hr : r.headerAnchors = none) (before after : List Anchor) {a : Anchor} {h : Block ν}
    (hrole : a.role.isSome = true) (hnew : ∀ b ∈ before ++ after, b.name ≠ a.name)
    (hstart : r.startAnchor ≠ a.name) (hfound : Members.get? found' a.name = some h)
    (hkept : ∀ name, name ≠ a.name → Members.get? found' name = Members.get? found name) :
    AddsHeader found found' (some r) (some r) (before ++ after) (before ++ a :: after) page h where
  names := by
    refine ⟨(before.filter fun b => b.role.isSome).map (·.name), a.name,
      (after.filter fun b => b.role.isSome).map (·.name), ?_, ?_, hfound⟩
    · simp [headerNames, hr]
    · simp [headerNames, hr, hrole]
  kept := by
    intro name hname
    have hnone : (some r).bind (·.headerAnchors) = none := hr
    rw [headerNames, hnone] at hname
    obtain ⟨b, hb, rfl⟩ := List.mem_map.1 hname
    exact hkept b.name (hnew b (List.mem_filter.1 hb).1)
  start := by
    simp only [startOf]
    rw [hkept r.startAnchor hstart]

/-- A region that names its headers has a further one if it names one more. -/
theorem addsHeader_named {found : FoundAnchors ν} {r : Region} (anchors : List Anchor) (page : ν)
    (before after : List String) (hr : r.headerAnchors = some (before ++ after)) {name : String}
    {h : Block ν} (hfound : Members.get? found name = some h) :
    AddsHeader found found (some r)
      (some { r with headerAnchors := some (before ++ name :: after) }) anchors anchors page h where
  names := ⟨before, name, after, by simp [headerNames, hr], rfl, hfound⟩
  kept _ _ := rfl
  start := rfl

theorem headerCandidates_append (found : FoundAnchors ν) (page : ν) (seen : List (Block ν))
    (names more : List String) :
    headerCandidates found page seen (names ++ more) =
      headerCandidates found page (headerCandidates found page seen names).reverse more := by
  induction names generalizing seen with
  | nil => simp [headerCandidates]
  | cons name names ih =>
    rw [List.cons_append, headerCandidates, headerCandidates]
    cases Members.get? found name with
    | none => exact ih seen
    | some b =>
      simp only
      split <;> exact ih _

theorem headerCandidates_congr {found found' : FoundAnchors ν} {names : List String}
    (h : ∀ name ∈ names, Members.get? found' name = Members.get? found name) (page : ν)
    (seen : List (Block ν)) :
    headerCandidates found' page seen names = headerCandidates found page seen names := by
  induction names generalizing seen with
  | nil => rfl
  | cons name names ih =>
    obtain ⟨hname, hnames⟩ := List.forall_mem_cons.1 h
    rw [headerCandidates, headerCandidates, hname]
    cases Members.get? found name with
    | none => exact ih hnames seen
    | some b => simp only [ih hnames]

/-- A block that has been there before keeps its place among the candidates. It keeps out no other
one unless that has its id. -/
theorem headerCandidates_seen {found : FoundAnchors ν} {page : ν} {names : List String}
    {h : Block ν} (later earlier : List (Block ν))
    (hnew : h.isAmong (headerCandidates found page (later ++ earlier) names) = false) :
    ∃ pre post, headerCandidates found page (later ++ earlier) names = pre ++ post ∧
      headerCandidates found page (later ++ h :: earlier) names = pre ++ h :: post := by
  induction names generalizing later with
  | nil => exact ⟨earlier.reverse, later.reverse, by simp [headerCandidates]⟩
  | cons name names ih =>
    rw [headerCandidates] at hnew
    simp only [headerCandidates]
    cases hget : Members.get? found name with
    | none =>
      rw [hget] at hnew
      exact ih later hnew
    | some b =>
      rw [hget] at hnew
      simp only at hnew ⊢
      by_cases hskip : (!(b.box.page == page) || b.isAmong (later ++ earlier)) = true
      · have hskip' : (!(b.box.page == page) || b.isAmong (later ++ h :: earlier)) = true := by
          obtain hpage | hseen := Bool.or_eq_true_iff.1 hskip
          · rw [hpage, Bool.true_or]
          · have hmore : later ++ earlier ⊆ later ++ h :: earlier :=
              ((List.sublist_cons_self h earlier).append_left later).subset
            rw [Block.isAmong_mono hmore hseen, Bool.or_true]
        rw [if_pos hskip] at hnew ⊢
        rw [if_pos hskip']
        exact ih later hnew
      · rw [if_neg hskip] at hnew ⊢
        -- The new candidate stays one, so that its id is not that of `h`.
        have hother : h.id ≠ b.id := by
          intro hid
          have hseen : h.isAmong (b :: (later ++ earlier)) = true :=
            Block.isAmong_iff.2 ⟨b, List.mem_cons_self, hid.symm⟩
          rw [← Bool.not_eq_true, isAmong_headerCandidates] at hnew
          exact hnew (.inl hseen)
        have hskip' : ¬ (!(b.box.page == page) || b.isAmong (later ++ h :: earlier)) = true := by
          simpa [Block.isAmong, hother] using hskip
        rw [if_neg hskip']
        exact ih (b :: later) hnew

/-- A further header anchor is one more candidate, if none of them has its id. -/
theorem headerCandidates_addHeader {found found' : FoundAnchors ν} {region region' : Option Region}
    {anchors anchors' : List Anchor} {page : ν} {h : Block ν}
    (hadd : AddsHeader found found' region region' anchors anchors' page h)
    (hpage : (h.box.page == page) = true)
    (hnew : h.isAmong (headerCandidates found page [] (headerNames region anchors)) = false) :
    ∃ pre post, headerCandidates found page [] (headerNames region anchors) = pre ++ post ∧
      headerCandidates found' page [] (headerNames region' anchors') = pre ++ h :: post := by
  obtain ⟨before, name, after, hnames, hnames', hfound⟩ := hadd.names
  have hkept := hadd.kept
  rw [hnames] at hkept hnew ⊢
  rw [← headerCandidates_congr hkept page []] at hnew ⊢
  rw [headerCandidates_append] at hnew ⊢
  rw [hnames', headerCandidates_append, headerCandidates, hfound]
  have hfresh : h.isAmong (headerCandidates found' page [] before).reverse = false := by
    rw [← Bool.not_eq_true, isAmong_headerCandidates] at hnew
    exact Bool.not_eq_true _ ▸ fun hseen => hnew (.inl hseen)
  simp only [hpage, hfresh, Bool.not_true, Bool.or_false, Bool.false_eq_true, if_false]
  exact headerCandidates_seen [] _ hnew

end

/-! ### The anchors that head the columns -/

section

variable {tolerance : Rat} {h : Block Rat}

theorem lowestRow_eq (tolerance : Rat) (bs : List (Block Rat)) :
    lowestRow tolerance bs =
      bs.filter fun b => bs.all fun c => c.box.centerY ≤ b.box.centerY + tolerance := by
  cases bs with
  | nil => rfl
  | cons b bs =>
    refine List.filter_congr fun c _ => ?_
    rw [Bool.eq_iff_iff, decide_eq_true_iff, sub_le_iff_le_add', Numeric.greatest_le_iff]
    simp

/-- A block that is above another one and not level with it does not matter to the lowest row. -/
theorem lowestRow_insert (htolerance : 0 ≤ tolerance) {pre post : List (Block Rat)}
    {g : Block Rat} (hg : g ∈ pre ++ post) (habove : h.box.centerY + tolerance < g.box.centerY) :
    lowestRow tolerance (pre ++ h :: post) = lowestRow tolerance (pre ++ post) := by
  have hcons : ∀ p : Block Rat → Bool, (pre ++ h :: post).all p = ((pre ++ post).all p && p h) := by
    intro p
    simp only [List.all_append, List.all_cons]
    cases p h <;> simp
  have hnot : (pre ++ post).all (fun c => c.box.centerY ≤ h.box.centerY + tolerance) = false := by
    rw [List.all_eq_false]
    exact ⟨g, hg, by simpa using habove⟩
  rw [lowestRow_eq, lowestRow_eq, List.filter_append, List.filter_cons_of_neg, ← List.filter_append]
  · refine List.filter_congr fun b _ => ?_
    rw [hcons, Bool.and_eq_left_iff_imp]
    intro hb
    -- What is level with `g` or below it is below the block.
    have hlow := List.all_eq_true.1 hb g hg
    rw [decide_eq_true_iff] at hlow ⊢
    linarith
  · rw [hcons, hnot]
    exact Bool.false_ne_true

/-- Whether a block is more than a row below the highest of some data, or more than a row above an
anchor that heads their columns. -/
def IsApart (tolerance : Rat) (candidates : List (Block Rat)) (first : Block Rat)
    (more : List (Block Rat)) (h : Block Rat) : Prop :=
  rowTop (first :: more) + tolerance < h.box.centerY ∨
    ∃ g ∈ tableHeaders tolerance candidates first more,
      h.box.centerY + tolerance < g.box.centerY

section

variable {candidates pre post : List (Block Rat)} {first : Block Rat} {more : List (Block Rat)}

theorem tableHeaders_eq (tolerance : Rat) (candidates : List (Block Rat)) (first : Block Rat)
    (more : List (Block Rat)) :
    tableHeaders tolerance candidates first more =
      lowestRow tolerance (candidates.filter (isLevel tolerance (rowTop (first :: more)))) := rfl

/-- What heads the columns is level with the highest of the data or above it. -/
theorem level_of_mem_tableHeaders {g : Block Rat}
    (hg : g ∈ tableHeaders tolerance candidates first more) :
    g ∈ candidates ∧ g.box.centerY ≤ rowTop (first :: more) + tolerance := by
  rw [tableHeaders_eq, lowestRow_eq] at hg
  obtain ⟨hcandidate, hlevel⟩ := List.mem_filter.1 (List.mem_filter.1 hg).1
  exact ⟨hcandidate, isLevel_iff.1 hlevel⟩

/-- The highest of the data is another block. -/
theorem IsApart.ne (htolerance : 0 ≤ tolerance) (hapart : IsApart tolerance candidates first more h)
    {c : Block Rat} (hc : c.box.centerY = rowTop (first :: more)) : c ≠ h := by
  rintro rfl
  obtain hbelow | ⟨g, hg, habove⟩ := hapart
  · linarith
  · have hlevel := (level_of_mem_tableHeaders hg).2
    linarith

/-- A candidate that is apart leaves those that head the columns. -/
theorem tableHeaders_insert (htolerance : 0 ≤ tolerance)
    (hapart : IsApart tolerance (pre ++ post) first more h) :
    tableHeaders tolerance (pre ++ h :: post) first more =
      tableHeaders tolerance (pre ++ post) first more := by
  rw [tableHeaders_eq, tableHeaders_eq, List.filter_append, List.filter_append]
  by_cases hlevel : isLevel tolerance (rowTop (first :: more)) h = true
  · obtain hbelow | ⟨g, hg, habove⟩ := hapart
    · exact (hbelow.not_ge (isLevel_iff.1 hlevel)).elim
    · obtain ⟨hcandidate, hgtop⟩ := level_of_mem_tableHeaders hg
      rw [List.filter_cons_of_pos hlevel]
      refine lowestRow_insert htolerance ?_ habove
      rw [← List.filter_append]
      exact List.mem_filter.2 ⟨hcandidate, isLevel_iff.2 hgtop⟩
  · rw [List.filter_cons_of_neg hlevel]

end

/-! ### Data without a block -/

/-- Whether a table `t'` has the columns of `t` and its data without a block, both grouped by
rows. The data are some of `blocks`, in the same order. -/
structure Table.Omits (t t' : Table Rat) (tolerance : Rat) (blocks : List (Block Rat))
    (h : Block Rat) : Prop where
  columns : t'.columns = t.columns
  rows : ∃ data, data.Sublist blocks ∧ t.rows = groupRows tolerance data ∧
    t'.rows = groupRows tolerance (data.filter (· ≠ h))

/-- A block below the first row of some data is not among their headers, if no anchor is. -/
theorem omits_withoutAnchors (htolerance : 0 ≤ tolerance) (l : Layout Rat)
    (start : Option (Block Rat)) {data : List (Block Rat)} (hne : data ≠ []) (h : Block Rat)
    (hbelow : rowTop data + tolerance < h.box.centerY) :
    (Table.withoutAnchors l tolerance start data).Omits
      (Table.withoutAnchors l tolerance start (data.filter (· ≠ h))) tolerance data h := by
  unfold Table.withoutAnchors
  split
  · refine ⟨rfl, _, List.filter_sublist, rfl, ?_⟩
    rw [List.filter_comm]
    rfl
  · -- The first row has the blocks that are level with the highest one.
    obtain ⟨c, hc, htop⟩ := exists_rowTop hne
    have hcne : c ≠ h := by
      rintro rfl
      linarith
    have hc' : c ∈ data.filter (· ≠ h) := List.mem_filter.2 ⟨hc, decide_eq_true hcne⟩
    have hrow : (data.filter (· ≠ h)).filter (isLevel tolerance (rowTop data)) =
        data.filter (isLevel tolerance (rowTop data)) := by
      rw [List.filter_filter]
      refine List.filter_congr fun d _ => ?_
      rw [Bool.and_eq_left_iff_imp, isLevel_iff, decide_eq_true_iff]
      rintro hlevel rfl
      exact hbelow.not_ge hlevel
    rw [groupRows_eq htolerance hne, groupRows_eq htolerance (List.ne_nil_of_mem hc'),
      rowTop_filter hc htop (decide_eq_true hcne), hrow]
    refine ⟨rfl, _, List.filter_sublist, rfl, ?_⟩
    rw [List.filter_comm]
    rfl

/-- A candidate that is apart is no longer data, and nothing else changes. -/
theorem omits_ofData (htolerance : 0 ≤ tolerance) (l : Layout Rat) (start : Option (Block Rat))
    {pre post : List (Block Rat)} {first : Block Rat} {more : List (Block Rat)}
    (hapart : IsApart tolerance (pre ++ post) first more h) :
    (Table.ofData l tolerance start (pre ++ post) (first :: more)).Omits
      (Table.ofData l tolerance start (pre ++ h :: post) ((first :: more).filter (· ≠ h)))
      tolerance (first :: more) h := by
  obtain ⟨c, hc, htop⟩ := exists_rowTop (List.cons_ne_nil first more)
  have hcne := decide_eq_true (hapart.ne htolerance htop)
  have htop' : rowTop ((first :: more).filter (· ≠ h)) = rowTop (first :: more) :=
    rowTop_filter hc htop hcne
  have homits := omits_withoutAnchors htolerance l start (List.cons_ne_nil first more) h
  cases hdata : (first :: more).filter (· ≠ h) with
  | nil =>
    have hc' : c ∈ (first :: more).filter (· ≠ h) := List.mem_filter.2 ⟨hc, hcne⟩
    rw [hdata] at hc'
    cases hc'
  | cons first' more' =>
    rw [hdata] at htop' homits
    -- The headers depend on the data only by the top of these.
    have hheaders : tableHeaders tolerance (pre ++ h :: post) first' more' =
        tableHeaders tolerance (pre ++ post) first more := by
      rw [← tableHeaders_insert htolerance hapart, tableHeaders_eq, htop', ← tableHeaders_eq]
    rw [Table.ofData, Table.ofData, hheaders]
    cases hrow : tableHeaders tolerance (pre ++ post) first more with
    | nil =>
      obtain hbelow | ⟨g, hg, -⟩ := hapart
      · exact homits hbelow
      · rw [hrow] at hg
        cases hg
    | cons g gs => exact ⟨rfl, first :: more, .refl _, rfl, by rw [hdata]; rfl⟩

/-- With a further header anchor that is apart, the table of a region keeps its columns, and its
rows are those of the same data without the block of the anchor. -/
theorem inferTable_addHeader {l : Layout Rat} (hids : (l.blocks.map (·.id)).Nodup)
    {first : Block Rat} {more : List (Block Rat)} (hregion : first :: more ⊆ l.blocks)
    {found found' : FoundAnchors Rat} {region region' : Option Region}
    {anchors anchors' : List Anchor} (hh : h ∈ l.blocks)
    (hadd : AddsHeader found found' region region' anchors anchors' first.box.page h)
    (hpage : (h.box.page == first.box.page) = true) {candidates : List (Block Rat)}
    (hcandidates :
      headerCandidates found first.box.page [] (headerNames region anchors) = candidates)
    (hnew : h.isAmong candidates = false) {b : Block Rat} {bs : List (Block Rat)}
    (hdata : ((first :: more).filter fun c => !c.isAmong candidates) = b :: bs)
    (htolerance : 0 ≤ tolerance) (hapart : IsApart tolerance candidates b bs h) :
    (inferTable l (first :: more) region anchors found tolerance).Omits
      (inferTable l (first :: more) region' anchors' found' tolerance) tolerance (b :: bs) h := by
  subst hcandidates
  obtain ⟨pre, post, hbefore, hafter⟩ := headerCandidates_addHeader hadd hpage hnew
  rw [inferTable_cons, inferTable_cons, hadd.start]
  simp only
  rw [hbefore] at hdata hapart ⊢
  rw [hafter, hdata]
  -- As ids differ, no block but that of the anchor is no longer data.
  have hdata' : ((first :: more).filter fun c => !c.isAmong (pre ++ h :: post)) =
      (b :: bs).filter (· ≠ h) := by
    rw [← hdata, List.filter_filter]
    refine List.filter_congr fun c hc => ?_
    have hid : (h.id == c.id) = decide (c = h) := by
      rw [Bool.eq_iff_iff, beq_iff_eq, decide_eq_true_iff]
      exact ⟨fun hid => (List.inj_on_of_nodup_map hids hh (hregion hc) hid).symm,
        fun heq => heq ▸ rfl⟩
    rw [Block.isAmong_insert, hid, Bool.not_or, Bool.and_comm, ← decide_not]
  rw [hdata']
  exact omits_ofData htolerance l _ hapart

end

/-! ### Two tables on a page -/

/-- A block on a page, at a height. -/
def pageBlock (id text : String) (x0 x1 y : Rat) : Block Rat :=
  ⟨id, text, ⟨x0, y, x1, y + 0.02, 0⟩, 99, none, false, .text⟩

def homePlayer : Block Rat := pageBlock "home_player" "Player" 0.05 0.15 0.1

def homePoints : Block Rat := pageBlock "home_points" "Points" 0.4 0.5 0.1

def awayPlayer : Block Rat := pageBlock "away_player" "Player" 0.05 0.15 0.35

def awayPoints : Block Rat := pageBlock "away_points" "Points" 0.4 0.5 0.35

def homeRow : List (Block Rat) :=
  [pageBlock "a" "Ann" 0.05 0.12 0.15, pageBlock "b" "10" 0.4 0.43 0.15]

def awayRow : List (Block Rat) :=
  [pageBlock "c" "Bob" 0.05 0.12 0.4, pageBlock "d" "7" 0.4 0.42 0.4]

/-- A sheet with a table for each of two teams, under the same headers. -/
def teamSheet : Layout Rat :=
  ⟨none, 1, [(612, 792)],
    homePlayer :: homePoints :: homeRow ++ awayPlayer :: awayPoints :: awayRow, "", none⟩

/-- An anchor with a role. -/
def headerAnchor (name text : String) (hint : LocationHint) : Anchor :=
  ⟨name, [text], .exact, some hint, true, some .columnHeader⟩

/-- The headers of the home team, and that at which its rows end. -/
def homeAnchors : List Anchor :=
  [headerAnchor "home_player" "Player" .firstOccurrence,
    headerAnchor "home_points" "Points" .firstOccurrence,
    headerAnchor "away_player" "Player" .secondOccurrence]

def homeFound : FoundAnchors Rat :=
  [("home_player", homePlayer), ("home_points", homePoints), ("away_player", awayPlayer)]

/-- The last header of the away team. -/
def awayAnchor : Anchor := headerAnchor "away_points" "Points" .secondOccurrence

def teamFound : FoundAnchors Rat := Members.put homeFound awayAnchor.name awayPoints

def homeRegion : Region := ⟨"home", "home_player", "away_player", .table, none⟩

/-- The rows of the away team, under headers that are named. -/
def awayRegion : Region :=
  ⟨"away", "away_player", "end_of_document", .table, some ["away_player", "away_points"]⟩

/-- The same rows, for which a header of the home team is named as well. -/
def wideRegion : Region :=
  { awayRegion with headerAnchors := some ["home_points", "away_player", "away_points"] }

/-- In the sheet the last header of the away team is below the rows of the home team, and a header
of the home team is above those of the away team. -/
theorem inferTable_addHeader_team :
    (let region := homeRow ++ [awayPlayer, awayPoints]
    let t := inferTable teamSheet region (some homeRegion) homeAnchors homeFound 0.015
    let t' := inferTable teamSheet region (some homeRegion) (homeAnchors ++ [awayAnchor]) teamFound
      0.015
    t.Omits t' 0.015 (homeRow ++ [awayPoints]) awayPoints ∧
      t.rows = [homeRow, [awayPoints]] ∧ t'.rows = [homeRow]) ∧
    (let t := inferTable teamSheet awayRow (some awayRegion) homeAnchors teamFound 0.015
    let t' := inferTable teamSheet awayRow (some wideRegion) homeAnchors teamFound 0.015
    t.Omits t' 0.015 awayRow homePoints ∧ t'.columns = columnRanges [awayPlayer, awayPoints]) := by
  have hids : (teamSheet.blocks.map (·.id)).Nodup := by decide
  have htolerance : (0 : Rat) ≤ 0.015 := by norm_num
  constructor
  · have hadd : AddsHeader homeFound teamFound (some homeRegion) (some homeRegion)
        homeAnchors (homeAnchors ++ [awayAnchor]) 0 awayPoints :=
      addsHeader_anchor 0 rfl homeAnchors [] rfl (by decide) (by decide) rfl fun name hname => by
        rw [teamFound, Members.get?_put, if_neg hname.symm]
    refine ⟨?_, by decide +kernel, by decide +kernel⟩
    exact inferTable_addHeader hids (by decide +kernel) (by decide +kernel) hadd (by decide +kernel)
      rfl (by decide +kernel) (by decide +kernel) htolerance (.inl (by decide +kernel))
  · have hadd : AddsHeader teamFound teamFound (some awayRegion) (some wideRegion) homeAnchors
        homeAnchors 0 homePoints :=
      addsHeader_named homeAnchors 0 [] ["away_player", "away_points"] rfl rfl
    refine ⟨?_, by decide +kernel⟩
    exact inferTable_addHeader hids (by decide +kernel) (by decide +kernel) hadd (by decide +kernel)
      rfl (by decide +kernel) (by decide +kernel) htolerance
      (.inr ⟨awayPoints, by decide +kernel, by decide +kernel⟩)

/-! ### A header above the row of a start anchor -/

def saleTitle : Block Rat := pageBlock "a" "Summary" 0.1 0.3 0.05

def saleItem : Block Rat := pageBlock "b" "Item" 0.1 0.2 0.1

def salePrice : Block Rat := pageBlock "c" "Price" 0.5 0.6 0.1

def saleRow : List (Block Rat) :=
  [pageBlock "d" "Pen" 0.1 0.2 0.2, pageBlock "e" "2" 0.5 0.6 0.2]

/-- A sheet with a table under a title. -/
def saleSheet : Layout Rat :=
  ⟨none, 1, [(612, 792)], saleTitle :: saleItem :: salePrice :: saleRow, "", none⟩

def saleStart : Anchor := ⟨"item", ["Item"], .contains, none, true, none⟩

def saleHeader : Anchor := ⟨"summary", ["Summary"], .contains, none, true, some .columnHeader⟩

def saleRegion : Region := ⟨"table", "item", "end_of_document", .table, none⟩

/-- The title is more than a row above the row of the start anchor, which holds the headers. As an
anchor with a role it takes their place. -/
theorem columns_addHeader_summary :
    let found : FoundAnchors Rat := [("item", saleItem)]
    let found' := Members.put found saleHeader.name saleTitle
    let t := inferTable saleSheet saleRow (some saleRegion) [saleStart] found 0.015
    let t' := inferTable saleSheet saleRow (some saleRegion) [saleStart, saleHeader] found' 0.015
    (saleSheet.blocks.map (·.id)).Nodup ∧
      AddsHeader found found' (some saleRegion) (some saleRegion) [saleStart]
        [saleStart, saleHeader] 0 saleTitle ∧
      saleTitle ∈ saleSheet.blocks ∧
      headerCandidates found 0 [] (headerNames (some saleRegion) [saleStart]) = [] ∧
      (∀ h ∈ [saleItem, salePrice], saleTitle.box.centerY + 0.015 < h.box.centerY) ∧
      t.columns = columnRanges [saleItem, salePrice] ∧ t'.columns = columnRanges [saleTitle] ∧
      t'.columns ≠ t.columns := by
  refine ⟨by decide, ?_, by decide +kernel, rfl, by decide +kernel, by decide +kernel,
    by decide +kernel, by decide +kernel⟩
  exact addsHeader_anchor 0 rfl [saleStart] [] rfl (by decide) (by decide) rfl fun name hname => by
    rw [Members.get?_put, if_neg hname.symm]

end PageExtract
