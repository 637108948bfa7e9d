/-
Readers that read what was written of what they read.

A value that was read from data is written as a value again. The reader is faithful if it reads the
written value as the same, and if what was written is data with plain numbers only.

* `ReadsBack`, `Faithful` — what is written of one value, and of all values that are read;
* `faithful_text`, `Faithful.list`, `Faithful.nullable`, … — the readers one by one;
* `present`, `Fixed` — the members of a record whose fields have fixed names;
* `Faithful.last`, `ReadsBack.member`, `faithful_object` — records that are read and written field
  by field.
-/
import PageExtract.Layout.Reader
import PageExtract.Proofs.Schema.Accepted
import PageExtract.Proofs.Text.Units
import PageExtract.Proofs.Value.Proper

namespace PageExtract

/-! ### Faithful readers -/

namespace Reader

open Checked

variable {α β : Type}

/-- What is written of a value reads as that value, and is data with plain numbers. -/
structure ReadsBack (r : Reader Float α) (write : α → Option (Value Float)) (a : α) : Prop where
  read : r (write a) = pure a
  proper : ∀ w ∈ write a, w.IsPlain

/-- Everything that is read from data reads back. -/
def Faithful (r : Reader Float α) (write : α → Option (Value Float)) : Prop :=
  ∀ ⦃v : Option (Value Float)⦄ ⦃a : α⦄, (∀ w ∈ v, w.IsData) → r v = pure a → ReadsBack r write a

variable {r : Reader Float α} {write : α → Option (Value Float)} {out : α → Value Float}

theorem readsBack_some {a : α} (hread : r (some (out a)) = pure a) (hproper : (out a).IsPlain) :
    ReadsBack r (fun a => some (out a)) a := by
  refine ⟨hread, fun w hw => ?_⟩
  cases hw
  exact hproper

theorem readsBack_text {s : String} (hs : Text.joined s = s) :
    ReadsBack text (fun s => some (.str s)) s := readsBack_some rfl (.str hs)

theorem faithful_text : Faithful text fun s => some (.str s) := by
  intro v s hv h
  obtain rfl := text_eq_pure_iff.1 h
  cases hv _ rfl with
  | str hs => exact readsBack_text hs

theorem readsBack_flag (b : Bool) : ReadsBack flag (fun b => some (.bool b)) b :=
  readsBack_some rfl (.bool b)

theorem faithful_flag : Faithful flag fun b => some (.bool b) := by
  intro v b _ h
  obtain rfl := flag_eq_pure_iff.1 h
  exact readsBack_flag b

/-- A further test does not matter for what passes it. -/
theorem Faithful.flagIf (hr : Faithful r write) (test : α → Bool) (fault : Fault) :
    Faithful (fun v => (r v).flagIf test fault) write := by
  intro v a hv h
  obtain ⟨hread, htest⟩ := flagIf_eq_pure_iff.1 h
  have hback := hr hv hread
  exact ⟨flagIf_eq_pure_iff.2 ⟨hback.read, htest⟩, hback.proper⟩

theorem faithful_name : Faithful name fun s => some (.str s) := faithful_text.flagIf _ _

theorem readsBack_positiveCount {x : Float} (hinteger : Numeric.isInteger x = true)
    (hpositive : ¬ x ≤ 0.0) : ReadsBack positiveCountReader (fun x => some (.num x)) x := by
  have hplain := Double.plain_of_positive (Double.isFinite_of_isInteger hinteger) hpositive
  refine readsBack_some ?_ (.num hplain)
  refine flagIf_eq_pure_iff.2 ⟨flagIf_eq_pure_iff.2 ⟨rfl, ?_⟩, decide_eq_false hpositive⟩
  rw [hinteger]
  rfl

theorem faithful_positiveCount :
    Faithful (positiveCountReader (ν := Float)) fun x => some (.num x) := by
  intro v x _ h
  obtain ⟨hwhole, hpositive⟩ := flagIf_eq_pure_iff.1 h
  obtain ⟨hnumber, hinteger⟩ := flagIf_eq_pure_iff.1 hwhole
  obtain rfl := number_eq_pure_iff.1 hnumber
  exact readsBack_positiveCount (by simpa using hinteger) (of_decide_eq_false hpositive)

/-- A choice is written by its name, and is the first of that name. -/
theorem readsBack_oneOf {choices : List α} {nameOf : α → String} {a : α}
    (hfind : choices.find? (fun c => nameOf c == nameOf a) = some a)
    (hname : Text.joined (nameOf a) = nameOf a) :
    ReadsBack (oneOf choices nameOf) (fun a => some (.str (nameOf a))) a := by
  refine readsBack_some ?_ (.str hname)
  unfold oneOf
  simp only [hfind]

theorem faithful_oneOf (choices : List α) (nameOf : α → String) :
    Faithful (oneOf choices nameOf) fun a => some (.str (nameOf a)) := by
  intro v a hv h
  unfold oneOf at h
  split at h
  · rename_i s
    split at h
    · rename_i hfind
      cases h
      obtain rfl : nameOf a = s := by simpa using List.find?_some hfind
      cases hv _ rfl with
      | str hs => exact readsBack_oneOf hfind hs
    · exact absurd h bad_ne_pure
  · exact absurd h bad_ne_pure

/-! ### Lists -/

theorem Faithful.forall₂ (hr : Faithful r fun a => some (out a)) {vs : List (Value Float)}
    {as : List α} (hvs : ∀ v ∈ vs, v.IsData)
    (h : List.Forall₂ (fun v a => r (some v) = pure a) vs as) :
    List.Forall₂ (fun v a => r (some v) = pure a) (as.map out) as ∧
      ∀ a ∈ as, (out a).IsPlain := by
  rw [List.forall₂_map_left_iff, List.forall₂_same, ← forall₂_and]
  intro a ha
  obtain ⟨v, hv, hread⟩ := exists_of_mem_right h ha
  have hback := hr (fun w hw => Option.some.inj hw ▸ hvs v hv) hread
  exact ⟨hback.read, hback.proper _ rfl⟩

theorem Faithful.listOf (hr : Faithful r fun a => some (out a)) (least : Nat) :
    Faithful (listOf least r) fun as => some (.list (as.map out)) := by
  intro v as hv h
  obtain ⟨vs, rfl, hlength, hitems⟩ := listOf_eq_pure_iff.1 h
  cases hv _ rfl with
  | list hvs =>
    obtain ⟨hback, hproper⟩ := hr.forall₂ hvs hitems
    have hshort : least ≤ (as.map out).length := by
      rwa [List.length_map, ← hitems.length_eq]
    exact readsBack_some (listOf_eq_pure_iff.2 ⟨_, rfl, hshort, hback⟩)
      (.list (List.forall_mem_map.2 hproper))

theorem readsBack_nil : ReadsBack (list r) (fun as => some (.list (as.map out))) [] :=
  readsBack_some rfl (.list (List.forall_mem_nil _))

theorem Faithful.list (hr : Faithful r fun a => some (out a)) :
    Faithful (list r) fun as => some (.list (as.map out)) := hr.listOf 0

/-! ### Values that may be missing -/

theorem ReadsBack.map_out {a? : Option α}
    (h : ∀ a ∈ a?, ReadsBack r (fun a => some (out a)) a) : ∀ w ∈ a?.map out, w.IsPlain := by
  intro w hw
  obtain ⟨a, ha, rfl⟩ := Option.map_eq_some_iff.1 hw
  exact (h a ha).proper _ rfl

theorem Faithful.optional (hr : Faithful r fun a => some (out a)) :
    Faithful (optional r) fun a? => a?.map out := by
  intro v a? hv h
  obtain ⟨rfl, rfl⟩ | ⟨w, a, rfl, ha, rfl⟩ := optional_eq_pure_iff.1 h
  · exact ⟨rfl, ReadsBack.map_out (r := r) nofun⟩
  · have hback := hr hv ha
    exact ⟨optional_eq_pure_iff.2 (.inr ⟨_, a, rfl, hback.read, rfl⟩),
      ReadsBack.map_out fun b hb => Option.some.inj hb ▸ hback⟩

/-- Nothing that is there may be written as null, since that reads as missing. -/
theorem Faithful.nullable (hr : Faithful r fun a => some (out a)) (hnull : ∀ a, out a ≠ .null) :
    Faithful (nullable r) fun a? => a?.map out := by
  intro v a? hv h
  obtain ⟨-, rfl⟩ | ⟨w, a, rfl, -, ha, rfl⟩ := nullable_eq_pure_iff.1 h
  · exact ⟨rfl, ReadsBack.map_out (r := r) nofun⟩
  · have hback := hr hv ha
    exact ⟨nullable_eq_pure_iff.2 (.inr ⟨_, a, rfl, hnull a, hback.read, rfl⟩),
      ReadsBack.map_out fun b hb => Option.some.inj hb ▸ hback⟩

/-- What is written is there, so that no value stands in for it. -/
theorem ReadsBack.orElse {a : α} (h : ReadsBack r (fun a => some (out a)) a) (missing : α) :
    ReadsBack (orElse missing r) (fun a => some (out a)) a := ⟨h.read, h.proper⟩

theorem ReadsBack.of_orElse {a missing : α}
    (h : ReadsBack (Reader.orElse missing r) (fun a => some (out a)) a) :
    ReadsBack r (fun a => some (out a)) a := ⟨h.read, h.proper⟩

/-- The value that stands in for a missing one has to read back as well. -/
theorem Faithful.orElse (hr : Faithful r fun a => some (out a)) {missing : α}
    (hmissing : ReadsBack r (fun a => some (out a)) missing) :
    Faithful (orElse missing r) fun a => some (out a) := by
  intro v a hv h
  obtain ⟨rfl, rfl⟩ | ⟨w, rfl, ha⟩ := orElse_eq_pure_iff.1 h
  · exact hmissing.orElse _
  · exact (hr hv ha).orElse _

/-! ### Maps -/

theorem textMembers_map {ms : Members (Value Float)} {ss : Members String}
    (hms : ∀ m ∈ ms, m.2.IsData) (h : textMembers ms = pure ss) :
    textMembers (ss.map fun m => (m.1, (.str m.2 : Value Float))) = pure ss ∧
      Members.names ss = Members.names ms ∧ ∀ m ∈ ss, Text.joined m.2 = m.2 := by
  induction ms generalizing ss with
  | nil =>
    cases h
    exact ⟨rfl, rfl, List.forall_mem_nil _⟩
  | cons m ms ih =>
    obtain ⟨k, v⟩ := m
    obtain ⟨hv, hms⟩ := List.forall_mem_cons.1 hms
    obtain ⟨g, hg, ss', hss, rfl⟩ := seq_eq_pure_iff.1 h
    obtain ⟨s, hs, rfl⟩ := map_eq_pure_iff.1 hg
    have hback := faithful_text (fun w hw => Option.some.inj hw ▸ hv) (below_eq_pure_iff.1 hs)
    obtain ⟨htail, hnames, hjoined⟩ := ih hms hss
    refine ⟨seq_eq_pure_iff.2 ⟨_, map_eq_pure_iff.2 ⟨s, ?_, rfl⟩, ss', htail, rfl⟩,
      congrArg (k :: ·) hnames, List.forall_mem_cons.2 ⟨?_, hjoined⟩⟩
    · exact below_eq_pure_iff.2 hback.read
    · cases hback.proper _ rfl with
      | str hs => exact hs

theorem faithful_textMap :
    Faithful textMap fun ss => some (.map (ss.map fun m => (m.1, .str m.2))) := by
  intro v ss hv h
  unfold textMap object at h
  split at h
  · cases hv _ rfl with
    | map hordered hnames hvalues =>
      obtain ⟨hread, hsame, hjoined⟩ := textMembers_map hvalues h
      have hwritten : Members.names (ss.map fun m => (m.1, (.str m.2 : Value Float))) =
          Members.names ss := by simp [Members.names]
      have hname : ∀ k ∈ Members.names ss, Text.joined k = k :=
        hsame ▸ List.forall_mem_map.2 hnames
      refine readsBack_some hread (.map ?_ (List.forall_mem_map.2 fun m hm => ?_)
        (List.forall_mem_map.2 fun m hm => .str (hjoined m hm)))
      · unfold Members.Ordered
        rwa [hwritten, hsame]
      · exact hname m.1 (List.mem_map_of_mem hm)
  · exact absurd h refuse_ne_pure

/-! ### Records -/

/-- The members of a record: a field that has no value is left out. -/
def present (fields : Members (Option (Value Float))) : Members (Value Float) :=
  fields.filterMap fun f => f.2.map (Prod.mk f.1)

/-- Names that the fields of a record can have: they differ, none is an array index, and they
consist of whole characters. -/
def Fixed (names : List String) : Prop :=
  names.Nodup ∧ ∀ k ∈ names, indexOf? k = none ∧ k.toList.any Text.isHalf = false

instance (names : List String) : Decidable (Fixed names) := inferInstanceAs (Decidable (_ ∧ _))

theorem Fixed.sublist {ks ls : List String} (hls : Fixed ls) (h : ks.Sublist ls) : Fixed ks :=
  ⟨hls.1.sublist h, fun k hk => hls.2 k (h.subset hk)⟩

/-- Members with fixed names are data if their values are. -/
theorem Fixed.proper {ν : Type} {good : ν → Prop} {ms : Members (Value ν)}
    (hms : Fixed (Members.names ms)) (hvalues : ∀ m ∈ ms, m.2.Proper good) :
    (Value.map ms).Proper good := by
  obtain ⟨hnodup, hfixed⟩ := hms
  refine .map ?_ (fun m hm => ?_) hvalues
  · refine hnodup.imp_of_mem fun _ hb hne => ⟨hne, fun j hj => ?_⟩
    rw [(hfixed _ hb).1] at hj
    cases hj
  · exact Text.joined_of_whole (hfixed m.1 (List.mem_map_of_mem hm)).2

variable {fields : Members (Option (Value Float))}

theorem get?_present (hfields : (Members.names fields).Nodup) (key : String) :
    Members.get? (present fields) key = (Members.get? fields key).join := by
  induction fields with
  | nil => rfl
  | cons f fields ih =>
    obtain ⟨k, value?⟩ := f
    obtain ⟨hk, hfields⟩ := List.nodup_cons.1 hfields
    have hrest := ih hfields
    have habsent : Members.get? fields k = none := by
      simpa [Members.has] using (Members.has_eq_false_iff fields k).2 hk
    cases value? with
    | some v =>
      have hstep : present ((k, some v) :: fields) = (k, v) :: present fields := rfl
      rw [hstep, Members.get?, Members.get?, hrest]
      split <;> rfl
    | none =>
      -- The name does not occur again, so a field that is left out reads as missing.
      have hstep : present ((k, none) :: fields) = present fields := rfl
      rw [hstep, hrest, Members.get?]
      split
      · rename_i hkey
        rw [← hkey, habsent]
        rfl
      · rfl

theorem exists_of_mem_present {m : String × Value Float} (hm : m ∈ present fields) :
    ∃ f ∈ fields, f.2 = some m.2 := by
  obtain ⟨f, hf, hvalue⟩ := List.mem_filterMap.1 hm
  obtain ⟨w, hw, rfl⟩ := Option.map_eq_some_iff.1 hvalue
  exact ⟨f, hf, hw⟩

theorem names_present_sublist :
    (Members.names (present fields)).Sublist (Members.names fields) := by
  induction fields with
  | nil => exact .slnil
  | cons f fields ih =>
    obtain ⟨k, value?⟩ := f
    cases value? with
    | some v => exact ih.cons_cons k
    | none => exact ih.cons k

/-- The members of a record are data if the values of its fields are. -/
theorem proper_present (hfields : Fixed (Members.names fields))
    (hvalues : ∀ f ∈ fields, ∀ w ∈ f.2, w.IsPlain) : (Value.map (present fields)).IsPlain := by
  refine (hfields.sublist names_present_sublist).proper fun m hm => ?_
  obtain ⟨f, hf, hvalue⟩ := exists_of_mem_present hm
  exact hvalues f hf m.2 hvalue

/-- A field reads back from the members of its record. -/
theorem ReadsBack.member {a : α} (h : ReadsBack r write a) (key : String)
    (hfields : Fixed (Members.names fields)) (hkey : Members.get? fields key = some (write a)) :
    member key r (present fields) = pure a := by
  unfold Reader.member
  rw [get?_present hfields.1, hkey]
  exact below_eq_pure_iff.2 h.read

/-- What is read of the first field reads back. -/
theorem Faithful.first (hr : Faithful r write) {ms : Members (Value Float)}
    (hms : (Value.map ms).IsData) {key : String} {f : α → β} {b : β}
    (h : f <$> member key r ms = pure b) : ∃ a, ReadsBack r write a ∧ f a = b := by
  obtain ⟨a, ha, hb⟩ := map_eq_pure_iff.1 h
  exact ⟨a, hr (fun _ => hms.get) (below_eq_pure_iff.1 ha), hb⟩

/-- What is read of the last field reads back, and the fields before it can be read. -/
theorem Faithful.last (hr : Faithful r write) {ms : Members (Value Float)}
    (hms : (Value.map ms).IsData) {key : String} {f : Checked (α → β)} {b : β}
    (h : f <*> member key r ms = pure b) : ∃ g a, f = pure g ∧ ReadsBack r write a ∧ g a = b := by
  obtain ⟨g, hg, a, ha, hb⟩ := seq_eq_pure_iff.1 h
  exact ⟨g, a, hg, hr (fun _ => hms.get) (below_eq_pure_iff.1 ha), hb⟩

/-- A record reads back if each of its fields does. -/
theorem faithful_object {read : Members (Value Float) → Checked α}
    {fieldsOf : α → Members (Option (Value Float))}
    (hfixed : ∀ a, Fixed (Members.names (fieldsOf a)))
    (hread : ∀ {ms a}, (Value.map ms).IsData → read ms = pure a →
      read (present (fieldsOf a)) = pure a ∧ ∀ f ∈ fieldsOf a, ∀ w ∈ f.2, w.IsPlain) :
    Faithful (object read) fun a => some (.map (present (fieldsOf a))) := by
  intro v a hv h
  unfold object at h
  split at h
  · obtain ⟨hback, hvalues⟩ := hread (hv _ rfl) h
    exact readsBack_some hback (proper_present (hfixed a) hvalues)
  · exact absurd h refuse_ne_pure

end Reader

end PageExtract
