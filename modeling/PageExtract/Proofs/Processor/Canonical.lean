/-
Equal processors and their texts.

The members of a written processor have a fixed order, but for the columns, which keep the order in
which they were read. So two processors that agree in every field, the columns compared as a map,
are written as the same text exactly if their columns come in the same order.

* `Members.Alike`, `Processor.Alike` — agreement without regard to the order of members;
* `Members.Alike.eq` — what agrees and has its names in the same order is equal;
* `Processor.Kept` — the processors that can be written and read back;
* `Processor.Kept.eq_of_serialize` — one text is the text of one processor only;
* `written_eq_iff_columnNames` — when two texts are the same;
* `written_by_column_order` — two processors that agree and have different texts.
-/
import PageExtract.Proofs.Processor.RoundTrip
import PageExtract.Proofs.Value.Members

namespace PageExtract

open Reader Checked

/-! ### Agreement -/

namespace Members

variable {α : Type}

/-- Whether two maps have the same values under the same names, in whatever order. -/
def Alike (ms ns : Members α) : Prop := ∀ name, get? ms name = get? ns name

/-- Two maps that agree are equal if their names come in the same order, each once. -/
theorem Alike.eq {ms ns : Members α} (h : Alike ms ns) (hnodup : (names ms).Nodup)
    (hnames : names ms = names ns) : ms = ns := by
  induction ms generalizing ns with
  | nil =>
    cases ns with
    | nil => rfl
    | cons n ns => cases hnames
  | cons m ms ih =>
    cases ns with
    | nil => cases hnames
    | cons n ns =>
      obtain ⟨k, v⟩ := m
      obtain ⟨k', w⟩ := n
      obtain ⟨rfl, hrest⟩ : k = k' ∧ names ms = names ns := List.cons.inj hnames
      obtain ⟨hk, hnodup'⟩ := List.nodup_cons.1 hnodup
      have hv : v = w := by simpa [get?] using h k
      have htail : Alike ms ns := by
        intro name
        by_cases hname : k = name
        · subst hname
          rw [get?_of_not_mem hk, get?_of_not_mem (hrest ▸ hk)]
        · simpa [get?, hname] using h name
      rw [hv, ih htail hnodup' hrest]

end Members

/-- Whether two processors agree in every field, the columns compared as maps. -/
def Processor.Alike (p q : Processor) : Prop :=
  { p with fieldColumns := none } = { q with fieldColumns := none } ∧
    Option.Rel Members.Alike p.fieldColumns q.fieldColumns

/-- The names of the fields that have a column, in order. -/
def Processor.columnNames (p : Processor) : List String := Members.names (p.fieldColumns.getD [])

/-- Processors that agree and have their columns in the same order are equal. -/
theorem Processor.Alike.eq {p q : Processor} (h : p.Alike q) (hnodup : p.columnNames.Nodup)
    (hnames : p.columnNames = q.columnNames) : p = q := by
  obtain ⟨hfields, hcolumns⟩ := h
  have hsame : p.fieldColumns = q.fieldColumns := by
    unfold Processor.columnNames at hnodup hnames
    generalize p.fieldColumns = columns at hcolumns hnodup hnames
    generalize q.fieldColumns = columns' at hcolumns hnames
    cases hcolumns with
    | none => rfl
    | some halike => exact congrArg some (halike.eq hnodup hnames)
  calc
    p = { ({ p with fieldColumns := none } : Processor) with fieldColumns := p.fieldColumns } := rfl
    _ = { ({ q with fieldColumns := none } : Processor) with fieldColumns := q.fieldColumns } := by
      rw [hfields, hsame]
    _ = q := rfl

/-! ### Texts -/

/-- Whether a processor reads back from its own members, whatever the time is, and what is written
of it can be data. -/
structure Processor.Kept (p : Processor) : Prop where
  read : ∀ later, Processor.ofMembers later (present p.fields) = pure p
  plain : (Value.map (present p.fields)).IsPlain

/-- Every processor that is read from data is kept. -/
theorem Processor.kept_of_ofInput {now : String} (hnow : Text.joined now = now)
    {v : Option (Value Float)} (hv : ∀ w ∈ v, w.IsData) {p : Processor}
    (hp : Processor.ofInput now v = .ok p) : p.Kept := by
  obtain ⟨ms, hms, hread⟩ := Processor.exists_members_of_ofInput hv hp
  obtain ⟨hback, hwhole⟩ := Processor.ofMembers_fields hnow (isData_modernMembers hms) hread
  exact ⟨hback, hwhole⟩

namespace Processor.Kept

variable {p q : Processor}

theorem written_eq (hp : p.Kept) (later : String) : p.written later = .ok p.serialize := by
  rw [Processor.written, p.toValue_eq, object, hp.read]
  rfl

theorem parse_serialize (hp : p.Kept) :
    Value.parse? p.serialize = some (.map (present p.fields)) := by
  rw [Processor.serialize, p.toValue_eq]
  exact Value.parse_indented hp.plain

/-- Two processors with one text are the same. -/
theorem eq_of_serialize (hp : p.Kept) (hq : q.Kept) (h : p.serialize = q.serialize) : p = q := by
  have hfields : some (Value.map (present p.fields)) = some (.map (present q.fields)) := by
    rw [← hp.parse_serialize, ← hq.parse_serialize, h]
  obtain hfields : present p.fields = present q.fields := by simpa using hfields
  have hpure : (pure p : Checked Processor) = pure q := by
    rw [← hp.read "", ← hq.read "", hfields]
  exact Option.some.inj (congrArg Checked.value? hpure)

/-- No field has two columns. -/
theorem nodup_columnNames (hp : p.Kept) : p.columnNames.Nodup := by
  unfold Processor.columnNames
  cases hcolumns : p.fieldColumns with
  | none => exact List.nodup_nil
  | some ms =>
    have hget : Members.get? (present p.fields) "field_column_map" =
        p.fieldColumns.map fun ms => .map (ms.map fun m => (m.1, .str m.2)) :=
      get?_present p.fixed_fields.1 _
    rw [hcolumns] at hget
    cases hp.plain.get hget with
    | map hordered _ _ =>
      have hnames : Members.names (ms.map fun m => (m.1, (.str m.2 : Value Float))) =
          Members.names ms := by simp [Members.names]
      rw [Members.Ordered, hnames] at hordered
      exact hordered.imp And.left

end Processor.Kept

/-- Two processors that were read and that agree in every field, the columns compared as maps, can
both be written, whatever the time is. Their texts are the same exactly if their columns come in
the same order. -/
theorem written_eq_iff_columnNames {now₁ now₂ : String} (hnow₁ : Text.joined now₁ = now₁)
    (hnow₂ : Text.joined now₂ = now₂) {v w : Option (Value Float)} (hv : ∀ u ∈ v, u.IsData)
    (hw : ∀ u ∈ w, u.IsData) {p q : Processor} (hp : Processor.ofInput now₁ v = .ok p)
    (hq : Processor.ofInput now₂ w = .ok q) (halike : p.Alike q) (later₁ later₂ : String) :
    ∃ s t, p.written later₁ = .ok s ∧ q.written later₂ = .ok t ∧
      (s = t ↔ p.columnNames = q.columnNames) := by
  have hkept := Processor.kept_of_ofInput hnow₁ hv hp
  have hkept' := Processor.kept_of_ofInput hnow₂ hw hq
  refine ⟨p.serialize, q.serialize, hkept.written_eq later₁, hkept'.written_eq later₂, ?_⟩
  constructor
  · intro h
    rw [hkept.eq_of_serialize hkept' h]
  · intro h
    rw [halike.eq hkept.nodup_columnNames h]

/-- An order as a plain value, with the headers of its columns. -/
def orderSpec (columns : Members String) : Value Float :=
  .map [("id", .str "order"), ("name", .str "Order"),
    ("field_column_map", .map (columns.map fun m => (m.1, .str m.2)))]

/-- The processor that `orderSpec` holds. -/
def order (columns : Members String) : Processor where
  id := "order"
  name := "Order"
  documentType := "generic"
  version := 1.0
  createdAt := ""
  updatedAt := ""
  fingerprint := none
  textPatterns := []
  anchors := []
  regions := []
  extractions := []
  calculations := []
  validations := []
  fieldColumns := some columns

/-- The headers of prices and of amounts. -/
def priceFirst : Members String := [("price", "Unit price"), ("amount", "Quantity")]

/-- The same headers, the other way round. -/
def amountFirst : Members String := [("amount", "Quantity"), ("price", "Unit price")]

theorem alike_order : (order priceFirst).Alike (order amountFirst) := by
  refine ⟨rfl, .some fun name => ?_⟩
  simp only [priceFirst, amountFirst, Members.get?]
  grind

theorem isData_orderSpec {columns : Members String} (hnames : Fixed (Members.names columns))
    (hheaders : ∀ m ∈ columns, m.2.toList.any Text.isHalf = false) :
    (orderSpec columns).IsData := by
  have htext : ∀ {s : String}, s.toList.any Text.isHalf = false →
      (Value.str s : Value Float).IsData := fun hs => .str (Text.joined_of_whole hs)
  have hcolumns : (Value.map (columns.map fun m => (m.1, .str m.2)) : Value Float).IsData := by
    refine Fixed.proper (by rwa [Members.names, List.map_map]) ?_
    exact List.forall_mem_map.2 fun m hm => htext (hheaders m hm)
  have hfixed : Fixed ["id", "name", "field_column_map"] := by decide +kernel
  refine Fixed.proper hfixed ?_
  simp only [List.forall_mem_cons]
  exact ⟨htext (by decide), htext (by decide), hcolumns, List.forall_mem_nil _⟩

theorem isData_priceFirst : ∀ u ∈ some (orderSpec priceFirst), u.IsData :=
  fun _ hu => Option.some.inj hu ▸ isData_orderSpec (by decide +kernel) (by decide)

theorem isData_amountFirst : ∀ u ∈ some (orderSpec amountFirst), u.IsData :=
  fun _ hu => Option.some.inj hu ▸ isData_orderSpec (by decide +kernel) (by decide)

theorem ofInput_priceFirst :
    Processor.ofInput "" (some (orderSpec priceFirst)) = .ok (order priceFirst) := by rfl

theorem ofInput_amountFirst :
    Processor.ofInput "" (some (orderSpec amountFirst)) = .ok (order amountFirst) := by rfl

theorem written_eq_iff_columnNames_order :
    Processor.ofInput "" (some (orderSpec priceFirst)) = .ok (order priceFirst) ∧
      Processor.ofInput "" (some (orderSpec amountFirst)) = .ok (order amountFirst) ∧
      (order priceFirst).Alike (order amountFirst) ∧
      ∃ s t, (order priceFirst).written "" = .ok s ∧ (order amountFirst).written "" = .ok t ∧
        s ≠ t := by
  have hnow : Text.joined "" = "" := Text.joined_of_whole (by decide)
  obtain ⟨s, t, hs, ht, h⟩ := written_eq_iff_columnNames hnow hnow isData_priceFirst
    isData_amountFirst ofInput_priceFirst ofInput_amountFirst alike_order "" ""
  exact ⟨ofInput_priceFirst, ofInput_amountFirst, alike_order, s, t, hs, ht,
    fun hst => absurd (h.1 hst) (by decide)⟩

/-- Not all processors that agree in every field have one text: those of the two orders differ. -/
theorem written_by_column_order :
    ¬ ∀ v w p q, Processor.ofInput "" v = .ok p → Processor.ofInput "" w = .ok q → p.Alike q →
      p.written "" = q.written "" := by
  intro h
  have hsame := h _ _ _ _ ofInput_priceFirst ofInput_amountFirst alike_order
  have hnow : Text.joined "" = "" := Text.joined_of_whole (by decide)
  have hprice := Processor.kept_of_ofInput hnow isData_priceFirst ofInput_priceFirst
  have hamount := Processor.kept_of_ofInput hnow isData_amountFirst ofInput_amountFirst
  rw [hprice.written_eq, hamount.written_eq] at hsame
  have hequal := hprice.eq_of_serialize hamount (Except.ok.inj hsame)
  exact absurd (congrArg Processor.columnNames hequal) (by decide)

end PageExtract
