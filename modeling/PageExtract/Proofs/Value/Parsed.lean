/-
What is read from JSON text.

Whatever a text holds, it is a value that data can have: its texts are joined, since they are made
of code units, and its members are ordered, since they are set one by one.

* `readUnits_lt`, `joined_of_readString` — texts that are read are joined;
* `ProperBelow`, `properBelow` — values, items and members, by the length of the text;
* `Value.isData_of_parse` — a value that a text holds.
-/
import PageExtract.Proofs.Value.Json

namespace PageExtract

namespace Json

theorem basedDigit_lt {c : Char} {k : Nat} (h : Numeral.basedDigit? 16 c = some k) : k < 16 := by
  unfold Numeral.basedDigit? at h
  simp only [Option.ite_none_right_eq_some, Option.some.injEq] at h
  obtain ⟨hlt, rfl⟩ := h
  exact hlt

/-- Four digits of base sixteen write at most sixteen bits. -/
theorem hex4_lt {a b c d : Char} {n : Nat} (h : hex4? a b c d = some n) : n < 0x10000 := by
  simp only [hex4?, Numeral.basedNat?, List.isEmpty_cons, Bool.false_eq_true, ↓reduceIte,
    List.foldl_cons, List.foldl_nil, Option.pure_def, Option.bind_eq_bind, Option.bind_some,
    Option.bind_eq_some_iff, Option.some.injEq] at h
  obtain ⟨n3, ⟨n2, ⟨n1, ⟨ka, ha, rfl⟩, kb, hb, rfl⟩, kc, hc, rfl⟩, kd, hd, rfl⟩ := h
  have := basedDigit_lt ha
  have := basedDigit_lt hb
  have := basedDigit_lt hc
  have := basedDigit_lt hd
  omega

theorem shortEscape_lt {e c : Char} (h : shortEscape? e = some c) : c.toNat < 0x10000 := by
  unfold shortEscape? at h
  split at h <;> cases h <;> decide

/-- Code units that are read have sixteen bits. -/
theorem readUnits_lt {acc : List Nat} (hacc : ∀ n ∈ acc, n < 0x10000) {cs : List Char}
    {p : List Nat × List Char} (h : readUnits? acc cs = some p) : ∀ n ∈ p.1, n < 0x10000 := by
  fun_induction readUnits? acc cs with
  | case1 => cases h
  | case2 acc rest =>
    cases h
    simpa using hacc
  | case3 acc a b c d rest n hn ih =>
    exact ih (List.forall_mem_cons.2 ⟨hex4_lt hn, hacc⟩) h
  | case4 => cases h
  | case5 acc e rest _ c hc ih =>
    exact ih (List.forall_mem_cons.2 ⟨shortEscape_lt hc, hacc⟩) h
  | case6 => cases h
  | case7 => cases h
  | case8 acc c rest _ _ _ _ ih =>
    refine ih (List.forall_mem_append.2 ⟨fun n hn => ?_, hacc⟩) h
    exact Text.charUnits_lt c n (List.mem_reverse.1 hn)

/-- Texts that are read are joined. -/
theorem joined_of_readString {cs : List Char} {p : String × List Char}
    (h : readString? cs = some p) : Text.joined p.1 = p.1 := by
  unfold readString? at h
  cases hunits : readUnits? [] cs with
  | none =>
    rw [hunits] at h
    cases h
  | some q =>
    rw [hunits] at h
    cases h
    exact Text.joined_ofUnits (readUnits_lt (List.forall_mem_nil _) hunits)

/-- Values, items and members that are read from texts below some length can be data. -/
structure ProperBelow (n : Nat) : Prop where
  value : ∀ {cs : List Char} {r : Reading Char (Value Float) cs.length}, cs.length < n →
    readValue? cs = some r → r.value.IsData
  items : ∀ {cs : List Char} {r : Reading Char (List (Value Float)) cs.length}, cs.length < n →
    readItems? cs = some r → ∀ v ∈ r.value, v.IsData
  members : ∀ {ms} {cs : List Char} {r : Reading Char (Members (Value Float)) cs.length},
    cs.length < n → readMembers? ms cs = some r → (Value.map ms).IsData → (Value.map r.value).IsData

theorem value_of_shorter {α : Type} {cs : List Char} {p : α × List Char}
    {r : Reading Char α cs.length} (h : shorter? cs p = some r) : r.value = p.1 := by
  unfold shorter? at h
  split at h <;> cases h
  rfl

theorem joined_of_readName {cs : List Char} {r : Reading Char String cs.length}
    (h : readName? cs = some r) : Text.joined r.value = r.value := by
  unfold readName? at h
  split at h
  · split at h
    · rename_i hstring
      have hjoined := joined_of_readString hstring
      split at h
      · rw [value_of_shorter h]
        exact hjoined
      · cases h
    · cases h
  · cases h

theorem isData_of_readWord {cs : List Char} {p : Value Float × List Char}
    (h : readWord? cs = some p) : p.1.IsData := by
  unfold readWord? at h
  split at h
  · cases h
    exact .bool true
  · cases h
    exact .bool false
  · cases h
    exact .null
  · cases h

variable {n : Nat} {cs : List Char}

theorem ProperBelow.readValue (hn : ProperBelow n) (hcs : cs.length ≤ n)
    {r : Reading Char (Value Float) cs.length} (h : readValue? cs = some r) : r.value.IsData := by
  rw [readValue?] at h
  split at h
  · obtain ⟨p, hp, hr⟩ := Option.bind_eq_some_iff.1 h
    obtain ⟨r', hr', rfl⟩ := Option.map_eq_some_iff.1 hr
    rw [Reading.value_map, value_of_shorter hr']
    exact .str (joined_of_readString hp)
  · rename_i rest heq
    have hlt := (length_lt_of_skip heq).trans_le hcs
    split at h
    · rw [value_of_shorter h]
      exact .list (List.forall_mem_nil _)
    · obtain ⟨r', hr', hr⟩ := Option.bind_eq_some_iff.1 h
      rw [value_of_shorter hr]
      exact .list (hn.items hlt hr')
  · rename_i rest heq
    have hlt := (length_lt_of_skip heq).trans_le hcs
    have hempty : (Value.map [] : Value Float).IsData :=
      .map List.Pairwise.nil (List.forall_mem_nil _) (List.forall_mem_nil _)
    split at h
    · rw [value_of_shorter h]
      exact hempty
    · obtain ⟨r', hr', hr⟩ := Option.bind_eq_some_iff.1 h
      rw [value_of_shorter hr]
      exact hn.members hlt hr' hempty
  · split at h
    · rename_i p hword
      rw [value_of_shorter h]
      exact isData_of_readWord hword
    · obtain ⟨p, -, hr⟩ := Option.bind_eq_some_iff.1 h
      obtain ⟨r', -, rfl⟩ := Option.map_eq_some_iff.1 hr
      exact .num trivial

theorem ProperBelow.readItems (hn : ProperBelow n) (hcs : cs.length ≤ n)
    {r : Reading Char (List (Value Float)) cs.length} (h : readItems? cs = some r) :
    ∀ v ∈ r.value, v.IsData := by
  rw [readItems?] at h
  obtain ⟨v, hv, h⟩ := Option.bind_eq_some_iff.1 h
  have hvalue := hn.readValue hcs hv
  have hshort := v.short
  split at h
  · rename_i rest heq
    have hlt := (length_lt_of_skip heq).trans (hshort.trans_le hcs)
    obtain ⟨vs, hvs, hr⟩ := Option.bind_eq_some_iff.1 h
    rw [value_of_shorter hr]
    exact List.forall_mem_cons.2 ⟨hvalue, hn.items hlt hvs⟩
  · rw [value_of_shorter h]
    exact List.forall_mem_singleton.2 hvalue
  · cases h

theorem ProperBelow.readMembers (hn : ProperBelow n) (hcs : cs.length ≤ n)
    {ms : Members (Value Float)} (hms : (Value.map ms).IsData)
    {r : Reading Char (Members (Value Float)) cs.length} (h : readMembers? ms cs = some r) :
    (Value.map r.value).IsData := by
  rw [readMembers?] at h
  obtain ⟨k, hk, h⟩ := Option.bind_eq_some_iff.1 h
  obtain ⟨v, hv, h⟩ := Option.bind_eq_some_iff.1 h
  have hname := k.short
  have hshort := v.short
  have hvalue := hn.value (hname.trans_le hcs) hv
  have hset := hms.set (joined_of_readName hk) hvalue
  simp only at h
  split at h
  · rename_i rest heq
    have hlt := ((length_lt_of_skip heq).trans hshort).trans (hname.trans_le hcs)
    obtain ⟨r', hr', hr⟩ := Option.bind_eq_some_iff.1 h
    rw [value_of_shorter hr]
    exact hn.members hlt hr' hset
  · rw [value_of_shorter h]
    exact hset
  · cases h

/-- Whatever is read from a text can be data. -/
theorem properBelow (n : Nat) : ProperBelow n := by
  -- What follows a first character or a first part is shorter than the whole.
  induction n with
  | zero =>
    refine ⟨?_, ?_, ?_⟩
    all_goals exact fun h => absurd h (Nat.not_lt_zero _)
  | succ n ih =>
    exact ⟨fun hcs h => ih.readValue (Nat.le_of_lt_succ hcs) h,
      fun hcs h => ih.readItems (Nat.le_of_lt_succ hcs) h,
      fun hcs h hms => ih.readMembers (Nat.le_of_lt_succ hcs) hms h⟩

end Json

/-- The value that a text holds can be data. -/
theorem Value.isData_of_parse {s : String} {v : Value Float} (h : Value.parse? s = some v) :
    v.IsData := by
  unfold Value.parse? at h
  split at h
  · rename_i r hr
    split at h
    · cases h
      exact (Json.properBelow _).value (Nat.lt_succ_self _) hr
    · cases h
  · cases h

end PageExtract
