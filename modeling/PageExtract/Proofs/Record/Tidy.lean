/-
Trees that become JSON.

Paths consist of names only, and a name is put into a record once. So in every record of a tree that
writes have filled the names are distinct, and none of them is an array index or has characters that
JSON would join. The plain value of such a tree differs from what JSON makes of it in its numbers
only, and each of these was written:

* `Node.Tidy` — trees with such records, whose scalars are of some kind;
* `Record.tidy_write` — writes keep them tidy;
* `Node.Tidy.good_of_mem_numbers` — their numbers are of that kind;
* `Node.Tidy.isPlain_reread` — what JSON makes of them is read from their text.
-/
import Mathlib.Data.List.Nodup
import PageExtract.Proofs.Expr.Spelled
import PageExtract.Proofs.Record.ReadBack
import PageExtract.Proofs.Record.Spelling
import PageExtract.Proofs.Value.Members
import PageExtract.Proofs.Value.Reread

namespace PageExtract

variable {ν : Type} {good : Scalar ν → Prop}

/-! ### Names -/

theorem toNat_lt_of_isNameChar {c : Char} (h : isNameChar c = true) : c.toNat < 128 := by
  unfold isNameChar Char.isAlphanum Char.isAlpha Char.isUpper Char.isLower Char.isDigit at h
  simp only [Bool.or_eq_true, Bool.and_eq_true, decide_eq_true_eq, beq_iff_eq,
    UInt32.le_iff_toNat_le, ge_iff_le] at h
  obtain (((h | h) | h) | rfl) := h
  · exact Nat.lt_of_le_of_lt h.2 (by decide)
  · exact Nat.lt_of_le_of_lt h.2 (by decide)
  · exact Nat.lt_of_le_of_lt h.2 (by decide)
  · decide

/-- A name has no characters that JSON would join. -/
theorem joined_of_isName {name : String} (h : isName name = true) : Text.joined name = name := by
  refine Text.joined_of_whole (List.any_eq_false.2 fun c hc => ?_)
  have hlow := toNat_lt_of_isNameChar (isNameChar_of_isName h hc)
  rw [Text.isHalf_iff]
  omega

/-- A name does not begin with a digit, so it is no array index. -/
theorem indexOf_of_isName {name : String} (h : isName name = true) : indexOf? name = none := by
  unfold isName at h
  cases hname : name.toList with
  | nil =>
    rw [hname] at h
    cases h
  | cons c cs =>
    rw [hname, isNameChars, Bool.and_eq_true] at h
    simp [indexOf?, hname, not_isDigit_of_isNameStart h.1]

namespace Members

variable {α : Type} {ms : Members α}

theorem nodup_put (hms : (names ms).Nodup) (name : String) (v : α) :
    (names (put ms name v)).Nodup := by
  rw [names_put]
  split
  · exact hms
  · rename_i habsent
    rw [← List.concat_eq_append]
    exact hms.concat habsent

/-- Distinct names that are no array indexes are in order. -/
theorem ordered_of_nodup (hms : (names ms).Nodup) (hnames : ∀ m ∈ ms, isName m.1 = true) :
    Ordered ms := by
  refine List.Pairwise.imp_of_mem (fun {a b} _ hb hne => ⟨hne, fun j hj => ?_⟩) hms
  obtain ⟨m, hm, rfl⟩ := List.mem_map.1 hb
  rw [indexOf_of_isName (hnames m hm)] at hj
  cases hj

end Members

/-! ### Tidy trees -/

/-- A tree whose records have distinct names, and whose scalars are of some kind. -/
inductive Node.Tidy (good : Scalar ν → Prop) : Node ν → Prop
  | scalar {v : Scalar ν} (hv : good v) : Tidy good (.scalar v)
  | list {vs : List (Scalar ν)} (hvs : ∀ v ∈ vs, good v) : Tidy good (.list vs)
  | map {r : Record ν} (hnodup : (Members.names r).Nodup) (hnames : ∀ m ∈ r, isName m.1 = true)
      (hnodes : ∀ m ∈ r, Tidy good m.2) : Tidy good (.map r)
  | sequence {rs : List (Record ν)} (hrecords : ∀ r ∈ rs, Tidy good (.map r)) :
      Tidy good (.sequence rs)

/-- A record that is tidy as the root of a tree. -/
abbrev Record.Tidy (good : Scalar ν → Prop) (r : Record ν) : Prop := (Node.map r).Tidy good

namespace Record

theorem tidy_empty : Tidy good [] :=
  .map List.nodup_nil (List.forall_mem_nil _) (List.forall_mem_nil _)

theorem Tidy.put {r : Record ν} (hr : Tidy good r) {name : String} (hname : isName name = true)
    {n : Node ν} (hn : n.Tidy good) : Tidy good (Members.put r name n) := by
  cases hr with
  | map hnodup hnames hnodes =>
    refine .map (Members.nodup_put hnodup name n) (fun m hm => ?_) fun m hm => ?_
    · obtain rfl | hm := Members.mem_put hm
      · exact hname
      · exact hnames m hm
    · obtain rfl | hm := Members.mem_put hm
      · exact hn
      · exact hnodes m hm

theorem Tidy.get {r : Record ν} (hr : Tidy good r) {name : String} {n : Node ν}
    (hn : Members.get? r name = some n) : n.Tidy good := by
  cases hr with
  | map _ _ hnodes => exact hnodes (name, n) (Members.mem_of_get hn)

theorem Tidy.childMap {r : Record ν} (hr : Tidy good r) (name : String) :
    Tidy good (childMap r name).1 := by
  unfold Record.childMap
  split
  · exact hr.get ‹_›
  · exact tidy_empty
  · exact tidy_empty

theorem Tidy.childSequence {r : Record ν} (hr : Tidy good r) (name : String) (size : Nat) :
    ∀ r' ∈ (childSequence r name size).1, Tidy good r' := by
  have hnew : ∀ n, ∀ r' ∈ List.replicate n ([] : Record ν), Tidy good r' := fun n r' hr' =>
    List.eq_of_mem_replicate hr' ▸ tidy_empty
  unfold Record.childSequence
  split
  · rename_i records hget
    cases hr.get hget with
    | sequence hrecords => exact List.forall_mem_append.2 ⟨hrecords, hnew _⟩
  · exact hnew _
  · exact hnew _

end Record

/-! ### Writes -/

/-- A supply of tidy nodes. -/
def Supply.Tidy (good : Scalar ν → Prop) : Supply ν → Prop
  | same node => node.Tidy good
  | deal vs => ∀ v ∈ vs, good v

namespace Supply

variable {s : Supply ν}

theorem Tidy.skip (hs : s.Tidy good) (n : Nat) : (s.skip n).Tidy good := by
  cases s with
  | same node => exact hs
  | deal vs => exact fun v hv => hs v (List.mem_of_mem_drop hv)

theorem Tidy.next (hs : s.Tidy good) {n : Node ν} (hn : s.next = some n) : n.Tidy good := by
  cases s with
  | same node =>
    cases hn
    exact hs
  | deal vs =>
    cases vs with
    | nil => cases hn
    | cons v vs =>
      cases hn
      exact .scalar (hs v List.mem_cons_self)

end Supply

namespace Record

theorem tidy_supplyFor (path : Path) {value : Extracted ν} (hvalue : ∀ v ∈ value.items, good v) :
    (supplyFor path value).Tidy good := by
  cases value with
  | one v =>
    have hv : good v := hvalue v List.mem_cons_self
    have hscalar : (Supply.same (.scalar v)).Tidy good := Node.Tidy.scalar hv
    simp only [supplyFor]
    split
    · exact hscalar
    · split
      · exact Node.Tidy.list (List.forall_mem_singleton.2 hv)
      · exact hscalar
  | many vs =>
    simp only [supplyFor]
    split
    · exact hvalue
    · exact Node.Tidy.list hvalue

theorem tidy_writeLeaf {name : String} (hname : isName name = true) {s : Supply ν}
    (hs : s.Tidy good) {r : Record ν} (hr : Tidy good r) :
    Tidy good (writeLeaf name s r).result := by
  unfold writeLeaf
  split
  · exact hr.put hname (hs.next ‹_›)
  · exact hr

theorem tidy_writeEach {f : Supply ν → Record ν → Written ν (Record ν)}
    (hsupply : ∀ s r, (f s r).supply = s.skip (f s r).reached)
    (hf : ∀ s r, s.Tidy good → Tidy good r → Tidy good (f s r).result) {s : Supply ν}
    (hs : s.Tidy good) {rs : List (Record ν)} (hrs : ∀ r ∈ rs, Tidy good r) :
    ∀ r ∈ (writeEach f s rs).result, Tidy good r := by
  induction rs generalizing s with
  | nil => exact hrs
  | cons r rs ih =>
    obtain ⟨hr, hrest⟩ := List.forall_mem_cons.1 hrs
    have hleft : (f s r).supply.Tidy good := hsupply s r ▸ hs.skip _
    exact List.forall_mem_cons.2 ⟨hf s r hs hr, ih hleft hrest⟩

theorem tidy_writeBelow (size : Nat) {path : Path} (hpath : ∀ seg ∈ path, isName seg.name = true)
    {s : Supply ν} (hs : s.Tidy good) {r : Record ν} (hr : Tidy good r) :
    Tidy good (writeBelow size path s r).result := by
  induction path generalizing s r with
  | nil => exact hr
  | cons seg path ih =>
    obtain ⟨hname, hpath⟩ := List.forall_mem_cons.1 hpath
    cases path with
    | nil => exact tidy_writeLeaf hname hs hr
    | cons next path =>
      rw [writeBelow_cons size seg (List.cons_ne_nil next path)]
      split
      · exact hr.put hname (.sequence (tidy_writeEach (supply_writeBelow size (next :: path))
          (fun s r hs hr => ih hpath hs hr) hs (hr.childSequence seg.name size)))
      · exact hr.put hname (ih hpath hs (hr.childMap seg.name))

/-- What is written at a path of names keeps a tree tidy. -/
theorem tidy_write {path : Path} (hpath : ∀ seg ∈ path, isName seg.name = true)
    {value : Extracted ν} (hvalue : ∀ v ∈ value.items, good v) {r : Record ν}
    (hr : Tidy good r) : Tidy good (write r path value).1 :=
  tidy_writeBelow (sizeFor value) hpath (tidy_supplyFor path hvalue) hr

end Record

/-! ### Plain values -/

theorem entriesToValues_eq_map (r : Record ν) :
    entriesToValues r = r.map fun m => (m.1, m.2.toValue) := by
  induction r with
  | nil => rfl
  | cons m r ih =>
    rw [entriesToValues, ih]
    rfl

namespace Node

theorem mem_numbers_toValue {v : Scalar ν} {x : ν} (hx : x ∈ v.toValue.numbers) : v = .num x := by
  cases v with
  | num y => rw [List.mem_singleton.1 hx]
  | null => cases hx
  | bool b => cases hx
  | str s => cases hx

/-- The numbers of a tidy tree are scalars of its kind. -/
theorem Tidy.good_of_mem_numbers {n : Node ν} (hn : n.Tidy good) {x : ν}
    (hx : x ∈ n.toValue.numbers) : good (.num x) := by
  induction hn with
  | scalar hv => exact mem_numbers_toValue hx ▸ hv
  | list hvs =>
    rw [toValue, Value.numbers_list] at hx
    obtain ⟨w, hw, hx⟩ := List.mem_flatMap.1 hx
    obtain ⟨v, hv, rfl⟩ := List.mem_map.1 hw
    exact mem_numbers_toValue hx ▸ hvs v hv
  | map _ _ _ ih =>
    rw [toValue, Value.numbers_map, entriesToValues_eq_map] at hx
    obtain ⟨w, hw, hx⟩ := List.mem_flatMap.1 hx
    obtain ⟨m, hm, rfl⟩ := List.mem_map.1 hw
    exact ih m hm hx
  | sequence _ ih =>
    rw [toValue, Value.numbers_list, recordsToValues_eq_map] at hx
    obtain ⟨w, hw, hx⟩ := List.mem_flatMap.1 hx
    obtain ⟨r, hr, rfl⟩ := List.mem_map.1 hw
    exact ih r hr hx

theorem isPlain_reread_scalar (v : Scalar Float) : v.toValue.reread.IsPlain := by
  cases v with
  | null => exact .null
  | bool b => exact .bool b
  | num x =>
    show Value.IsPlain (if Numeric.isFinite x then .num (Double.unsigned x) else .null)
    split
    · exact .num (Double.plain_unsigned ‹_›)
    · exact .null
  | str s => exact .str (Text.joined_joined s)

/-- What JSON makes of a tidy tree is read from its text. -/
theorem Tidy.isPlain_reread {good : Scalar Float → Prop} {n : Node Float} (hn : n.Tidy good) :
    n.toValue.reread.IsPlain := by
  induction hn with
  | scalar _ => exact isPlain_reread_scalar _
  | list _ =>
    rw [toValue, Value.reread_list, List.map_map]
    refine .list fun w hw => ?_
    obtain ⟨v, -, rfl⟩ := List.mem_map.1 hw
    exact isPlain_reread_scalar v
  | @map r hnodup hnames _ ih =>
    have hmembers : (entriesToValues r).map (fun m => (Text.joined m.1, m.2.reread)) =
        r.map fun m => (m.1, m.2.toValue.reread) := by
      rw [entriesToValues_eq_map, List.map_map]
      exact List.map_congr_left fun m hm => by simp [joined_of_isName (hnames m hm)]
    rw [toValue, Value.reread_map, hmembers]
    refine .map ?_ (fun w hw => ?_) fun w hw => ?_
    · unfold Members.Ordered
      rw [Members.names_map fun n : Node Float => n.toValue.reread]
      exact Members.ordered_of_nodup hnodup hnames
    · obtain ⟨m, hm, rfl⟩ := List.mem_map.1 hw
      exact joined_of_isName (hnames m hm)
    · obtain ⟨m, hm, rfl⟩ := List.mem_map.1 hw
      exact ih m hm
  | sequence _ ih =>
    rw [toValue, recordsToValues_eq_map, Value.reread_list, List.map_map]
    refine .list fun w hw => ?_
    obtain ⟨r, hr, rfl⟩ := List.mem_map.1 hw
    exact ih r hr

end Node

end PageExtract
