/-
Records that are written column by column.

A column is a list that is written at one field of each record of a sequence. Columns of one table
have one length, so that each of them meets as many records as it has values.

* `Path.inRows` — the path of a field of each record at some names;
* `Record.HoldsRows` — there is one record for each row, or nothing yet;
* `Record.holdsRows_column` — a column adds its field to each record, and nothing is reported;
* `Record.holdsRows_write` — what is written below another name leaves the records as they are.
-/
import PageExtract.Proofs.Record.Supply

namespace PageExtract

variable {ν α : Type}

/-- The path of a field of each of the records that are at some names. -/
def Path.inRows (above : List String) (last field : String) : Path :=
  above.map (⟨·, false⟩) ++ [⟨last, true⟩, ⟨field, false⟩]

theorem Path.inRows_cons (name : String) (above : List String) (last field : String) :
    Path.inRows (name :: above) last field = ⟨name, false⟩ :: Path.inRows above last field := rfl

theorem Path.inRows_ne_nil (above : List String) (last field : String) :
    Path.inRows above last field ≠ [] := by
  simp [Path.inRows]

namespace Record

/-- Whether there is one record for each row at some names; without any fields nothing has to be
there, not even what leads there. -/
def HoldsRows (above : List String) (last : String) (rows : List α) (record : α → Record ν)
    (r : Record ν) : Prop :=
  (Node.map r).at? ((above ++ [last]).map .key) = some (.sequence (rows.map record)) ∨
    Members.get? r (above.headD last) = none ∧ ∀ row, record row = []

/-- The first name decides what is at some names. -/
theorem HoldsRows.congr {above : List String} {last : String} {rows : List α}
    {record : α → Record ν} {r r' : Record ν} (h : HoldsRows above last rows record r)
    (hget : Members.get? r' (above.headD last) = Members.get? r (above.headD last)) :
    HoldsRows above last rows record r' := by
  have hat : (Node.map r').at? ((above ++ [last]).map .key) =
      (Node.map r).at? ((above ++ [last]).map .key) := by
    cases above with
    | nil => exact congrArg (fun n : Option (Node ν) => n.bind (·.at? [])) hget
    | cons name above =>
      exact congrArg (fun n : Option (Node ν) => n.bind (·.at? ((above ++ [last]).map .key))) hget
  obtain hrows | ⟨hnone, hempty⟩ := h
  · exact .inl (hat.trans hrows)
  · exact .inr ⟨hget.trans hnone, hempty⟩

/-! ### One column -/

theorem eq_none_of_firstReplaced {gone more : List (Option Shape)} (hgone : ∀ x ∈ gone, x = none)
    (hmore : ∀ x ∈ more, x = none) : ∀ x ∈ firstReplaced gone more, x = none := by
  induction gone generalizing more with
  | nil => exact hmore
  | cons a as ih =>
    cases more with
    | nil => exact hgone
    | cons b bs =>
      intro x hx
      rcases List.mem_cons.1 hx with rfl | hx
      · rw [hgone a List.mem_cons_self, hmore b List.mem_cons_self]
        rfl
      · exact ih (fun y hy => hgone y (List.mem_cons_of_mem a hy))
          (fun y hy => hmore y (List.mem_cons_of_mem b hy)) x hx

/-- A column gives each record one more field. -/
theorem writeEach_column (field : String) (cell : α → Scalar ν) (record : α → Record ν)
    (rows : List α) (hfield : ∀ row ∈ rows, Members.get? (record row) field = none) :
    let w := writeEach (writeLeaf field) (.deal (rows.map cell)) (rows.map record)
    w.result = rows.map (fun row => record row ++ [(field, .scalar (cell row))]) ∧
      w.reached = rows.length ∧ ∀ gone ∈ w.replaced, gone = none := by
  induction rows with
  | nil => exact ⟨rfl, rfl, fun gone hgone => (List.not_mem_nil hgone).elim⟩
  | cons row rows ih =>
    have hfirst := hfield row List.mem_cons_self
    obtain ⟨hresult, hreached, hreplaced⟩ :=
      ih fun row' hrow' => hfield row' (List.mem_cons_of_mem row hrow')
    have hconflict : leafConflict (record row) field = none := by
      rw [leafConflict, hfirst]
    refine ⟨?_, ?_, ?_⟩
    · show Members.put (record row) field (.scalar (cell row)) :: _ = _
      rw [Members.put_of_get?_eq_none _ hfirst]
      exact congrArg (_ :: ·) hresult
    · show 1 + _ = rows.length + 1
      rw [Nat.add_comm]
      exact congrArg (· + 1) hreached
    · refine eq_none_of_firstReplaced ?_ hreplaced
      intro gone hgone
      rw [List.mem_singleton.1 hgone, hconflict]

/-- Before a column is written, the sequence at its name is made as long as the column. -/
theorem childSequence_of_holdsRows {last : String} {rows : List α} {record : α → Record ν}
    {r : Record ν} (h : HoldsRows [] last rows record r) :
    childSequence r last rows.length = (rows.map record, none) := by
  -- Either the records are there, and as many as rows, or they are added now.
  obtain hrows | ⟨hnone, hempty⟩ := h
  · have hget : Members.get? r last = some (.sequence (rows.map record)) := by
      simpa using hrows
    simp [childSequence, hget]
  · have hget : Members.get? r last = none := hnone
    have hrecords : rows.map record = List.replicate rows.length [] := by
      rw [← List.map_const', List.map_congr_left fun row _ => hempty row]
    rw [childSequence, hget, hrecords]

/-- One level down, the records are at the other names. -/
theorem childMap_of_holdsRows {name last : String} {above : List String} {rows : List α}
    {record : α → Record ν} {r : Record ν} (h : HoldsRows (name :: above) last rows record r) :
    HoldsRows above last rows record (childMap r name).1 ∧ (childMap r name).2 = none := by
  obtain hrows | ⟨hnone, hempty⟩ := h
  · have hrows : (Members.get? r name).bind (·.at? ((above ++ [last]).map .key)) =
        some (.sequence (rows.map record)) := hrows
    obtain ⟨n, hget, hat⟩ := Option.bind_eq_some_iff.1 hrows
    -- Only a record has something below a name.
    cases n with
    | map entries =>
      rw [childMap, hget]
      exact ⟨.inl hat, rfl⟩
    | scalar v => cases above <;> cases hat
    | list vs => cases above <;> cases hat
    | sequence rs => cases above <;> cases hat
  · have hget : Members.get? r name = none := hnone
    rw [childMap, hget]
    exact ⟨.inr ⟨rfl, hempty⟩, rfl⟩

/-- A column that is written at a new field adds it to each record. -/
theorem writeBelow_column {above : List String} {last field : String} {rows : List α}
    {record : α → Record ν} (cell : α → Scalar ν)
    (hfield : ∀ row ∈ rows, Members.get? (record row) field = none) {r : Record ν}
    (h : HoldsRows above last rows record r) :
    let w := writeBelow rows.length (Path.inRows above last field) (.deal (rows.map cell)) r
    (Node.map w.result).at? ((above ++ [last]).map .key) = some (.sequence
        (rows.map fun row => record row ++ [(field, .scalar (cell row))])) ∧
      w.reached = rows.length ∧ ∀ gone ∈ w.replaced, gone = none := by
  -- Above the last name no level is a sequence, so that one record is entered at each of them.
  induction above generalizing r with
  | nil =>
    obtain ⟨hresult, hreached, hreplaced⟩ := writeEach_column field cell record rows hfield
    have hwrite := writeBelow_cons rows.length ⟨last, true⟩ (List.cons_ne_nil ⟨field, false⟩ [])
      (.deal (rows.map cell)) r
    rw [if_pos rfl, childSequence_of_holdsRows h] at hwrite
    have hpath : Path.inRows [] last field = [⟨last, true⟩, ⟨field, false⟩] := rfl
    rw [hpath, hwrite]
    refine ⟨?_, hreached, ?_⟩
    · rw [← hresult]
      exact Node.at?_put_self r last _ []
    · intro gone hgone
      rcases List.mem_cons.1 hgone with rfl | hgone
      · rfl
      · exact hreplaced gone hgone
  | cons name above ih =>
    obtain ⟨hchild, hgone⟩ := childMap_of_holdsRows h
    obtain ⟨hresult, hreached, hreplaced⟩ := ih hchild
    rw [Path.inRows_cons, writeBelow_cons _ _ (Path.inRows_ne_nil above last field)]
    refine ⟨?_, hreached, ?_⟩
    · rw [← hresult]
      exact Node.at?_put_self r name _ _
    · intro gone hmem
      rcases List.mem_cons.1 hmem with rfl | hmem
      · exact hgone
      · exact hreplaced gone hmem

theorem replacedPaths_eq_nil {gone : List (Option Shape)} (hgone : ∀ x ∈ gone, x = none)
    (above path : Path) : replacedPaths above path gone = [] := by
  induction path generalizing above gone with
  | nil => rfl
  | cons seg path ih =>
    cases gone with
    | nil => rfl
    | cons first gone =>
      have hfirst := hgone first List.mem_cons_self
      subst hfirst
      exact ih (fun x hx => hgone x (List.mem_cons_of_mem none hx)) (above ++ [seg])

theorem spreads_inRows (above : List String) (last field : String) :
    spreads (Path.inRows above last field) = true := by
  have hlast : (Path.inRows above last field).dropLast =
      above.map (⟨·, false⟩) ++ [⟨last, true⟩] := by
    rw [Path.inRows, List.dropLast_append_cons]
    rfl
  simp [spreads, hlast]

/-- A column adds its field to the record of each row, and nothing is reported. -/
theorem holdsRows_column {above : List String} {last field : String} {rows : List α}
    {record : α → Record ν} (cell : α → Scalar ν)
    (hfield : ∀ row ∈ rows, Members.get? (record row) field = none) {r : Record ν}
    (h : HoldsRows above last rows record r) :
    let written := write r (Path.inRows above last field) (.many (rows.map cell))
    (Node.map written.1).at? ((above ++ [last]).map .key) = some (.sequence
        (rows.map fun row => record row ++ [(field, .scalar (cell row))])) ∧
      written.2.mismatch = none ∧ written.2.replaced = [] := by
  have hspreads := spreads_inRows above last field
  have hsize : sizeFor (.many (rows.map cell)) = rows.length := List.length_map ..
  obtain ⟨hresult, hreached, hreplaced⟩ := writeBelow_column cell hfield h
  rw [write, supplyFor, if_pos hspreads, hsize]
  refine ⟨hresult, ?_, replacedPaths_eq_nil hreplaced [] _⟩
  rw [mismatchOf, hreached, List.length_map]
  simp

/-! ### Other writes -/

/-- A write changes nothing below another name than its first. -/
theorem get?_writeBelow {path : Path} {name : String} (h : path.names.head? ≠ some name)
    (size : Nat) (s : Supply ν) (r : Record ν) :
    Members.get? (writeBelow size path s r).result name = Members.get? r name := by
  cases path with
  | nil => rfl
  | cons seg path =>
    have hne : seg.name ≠ name := fun heq => h (congrArg some heq)
    cases path with
    | nil =>
      show Members.get? (writeLeaf seg.name s r).result name = _
      unfold writeLeaf
      split
      · rw [Members.get?_put, if_neg hne]
      · rfl
    | cons next path =>
      rw [writeBelow_cons _ _ (List.cons_ne_nil next path)]
      split
      · rw [Members.get?_put, if_neg hne]
      · rw [Members.get?_put, if_neg hne]

/-- What is written below another name leaves the records as they are. -/
theorem holdsRows_write {above : List String} {last : String} {rows : List α}
    {record : α → Record ν} {r : Record ν} (h : HoldsRows above last rows record r) {path : Path}
    (hpath : path.names.head? ≠ some (above.headD last)) (value : Extracted ν) :
    HoldsRows above last rows record (write r path value).1 :=
  h.congr (get?_writeBelow hpath _ _ r)

end Record

end PageExtract
