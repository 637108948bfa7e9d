/-
Old names of members.

A processor may have old names in place of present ones: for the header map, and for a member of any
calculations and validations. Nothing depends on which of them are used:

* `Members.rename`, `Value.renameAt`, `oldMembers` — members under old names;
* `IsModern` — members without old names;
* `get?_renameMember_rename` — what a renamed member reads as;
* `Ignores.list` — lists of which some items have a renamed member;
* `get?_modernMembers` — the members under their present names;
* `Processor.ofInput_oldMembers` — the same outcome under old names.
-/
import PageExtract.Processor.Reader
import PageExtract.Proofs.Value.Members

namespace PageExtract

/-! ### Members under old names -/

/-- Gives the members of one name another name. -/
def Members.rename {α : Type} (old new : String) (ms : Members α) : Members α :=
  ms.map fun m => (if m.1 = old then new else m.1, m.2)

/-- Changes the values of the members of one name. -/
def Members.change {α : Type} (name : String) (f : α → α) (ms : Members α) : Members α :=
  ms.map fun m => (m.1, if m.1 = name then f m.2 else m.2)

section

variable {ν : Type}

/-- Gives the members of one name in a map another name. -/
def Value.rename (old new : String) : Value ν → Value ν
  | .map ms => .map (Members.rename old new ms)
  | v => v

/-- Does so in the items of a list at chosen positions. -/
def Value.renameAt (chosen : Nat → Bool) (old new : String) : Value ν → Value ν
  | .list vs => .list (vs.mapIdx fun i v => if chosen i then v.rename old new else v)
  | v => v

/-- The members of a processor with old names for a member of the calculations and of the
validations at chosen positions. -/
def oldItems (calculations validations : Nat → Bool) (ms : Members (Value ν)) :
    Members (Value ν) :=
  Members.change "validations" (.renameAt validations "predicate" "check")
    (Members.change "calculations" (.renameAt calculations "field_path" "field") ms)

/-- The same with the old name for the header map, too, if `columns` says so. -/
def oldMembers (columns : Bool) (calculations validations : Nat → Bool)
    (ms : Members (Value ν)) : Members (Value ν) :=
  if columns then
    Members.rename "field_column_map" "field_column_mapping" (oldItems calculations validations ms)
  else oldItems calculations validations ms

/-- Members of a processor without old names. -/
structure IsModern (ms : Members (Value ν)) : Prop where
  columns : Members.get? ms "field_column_mapping" = none
  calculations : ∀ vs, Members.get? ms "calculations" = some (.list vs) →
    ∀ cs, .map cs ∈ vs → Members.get? cs "field" = none
  validations : ∀ vs, Members.get? ms "validations" = some (.list vs) →
    ∀ cs, .map cs ∈ vs → Members.get? cs "check" = none

end

/-! ### What is read after a member is renamed -/

namespace Members

variable {α : Type} {ms : Members α} {old new : String}

theorem get?_rename (hne : old ≠ new) (hnew : get? ms new = none) (key : String) :
    get? (rename old new ms) key =
      if key = new then get? ms old else if key = old then none else get? ms key := by
  induction ms with
  | nil => simp [rename, get?]
  | cons m ms ih =>
    obtain ⟨k, v⟩ := m
    have hk : k ≠ new := by
      rintro rfl
      simp [get?] at hnew
    have hrest : get? ms new = none := by
      rw [get?, if_neg hk] at hnew
      exact hnew
    have hstep : rename old new ((k, v) :: ms) =
      (if k = old then new else k, v) :: rename old new ms := rfl
    rw [hstep, get?, ih hrest, get?, get?]
    grind

theorem get?_change (name : String) (f : α → α) (ms : Members α) (key : String) :
    get? (change name f ms) key = if key = name then (get? ms key).map f else get? ms key := by
  induction ms with
  | nil => simp [change, get?]
  | cons m ms ih =>
    obtain ⟨k, v⟩ := m
    have hstep : change name f ((k, v) :: ms) =
      (k, if k = name then f v else v) :: change name f ms := rfl
    rw [hstep, get?, ih, get?]
    grind

end Members

section

variable {ν : Type} {old new : String}

theorem get?_renameMember (ms : Members (Value ν)) (key : String) :
    Members.get? (renameMember old new ms) key =
      if key = new then (Members.get? ms new).or (Members.get? ms old)
      else Members.get? ms key := by
  unfold renameMember
  split
  · rename_i v hnew hold
    rw [Members.get?_put, hnew, hold]
    grind
  · rename_i hother
    by_cases hkey : key = new
    · subst hkey
      cases hnew : Members.get? ms key with
      | some v => simp
      | none =>
        cases hold : Members.get? ms old with
        | some w => exact absurd hold (hother w hnew)
        | none => simp
    · simp [hkey]

/-- A member that is given its old name and then its new name reads as before. -/
theorem get?_renameMember_rename {ms : Members (Value ν)} (hne : old ≠ new)
    (hold : Members.get? ms old = none) {key : String} (hkey : key ≠ old) :
    Members.get? (renameMember old new (Members.rename new old ms)) key = Members.get? ms key := by
  rw [get?_renameMember]
  simp only [Members.get?_rename hne.symm hold]
  grind

end

/-! ### Items of lists -/

namespace Reader

variable {ν α : Type} {r : Reader ν α} {old new : String}

/-- A reader of maps takes no notice of the members of a name. -/
def Ignores (r : Reader ν α) (name : String) : Prop :=
  ∀ ms ms' : Members (Value ν), (∀ key, key ≠ name → Members.get? ms key = Members.get? ms' key) →
    r (some (.map ms)) = r (some (.map ms'))

/-- A value reads the same under an old name. -/
theorem Ignores.renameIn (hr : Ignores r old) (hne : old ≠ new) {v : Value ν}
    (hv : ∀ ms, v = .map ms → Members.get? ms old = none) :
    r (some (renameIn old new (v.rename new old))) = r (some (renameIn old new v)) := by
  cases v with
  | map ms =>
    refine hr _ _ fun key hkey => ?_
    have hold := hv ms rfl
    have hkept := get?_renameMember_rename hne hold hkey
    rw [hkept, get?_renameMember, hold, Option.or_none]
    grind
  | null => rfl
  | bool b => rfl
  | num n => rfl
  | str s => rfl
  | list vs => rfl

/-- Items that read the same, each at its place, make the same list. -/
theorem items_mapIdx {f : Nat → Value ν → Value ν} {g : Value ν → Value ν} {vs : List (Value ν)}
    (h : ∀ i, ∀ v ∈ vs, r (some (g (f i v))) = r (some (g v))) (position : Nat) :
    items r position ((vs.mapIdx f).map g) = items r position (vs.map g) := by
  induction vs generalizing f position with
  | nil => rfl
  | cons v vs ih =>
    rw [List.mapIdx_cons, List.map_cons, List.map_cons, items, items, h 0 v List.mem_cons_self,
      ih fun i w hw => h (i + 1) w (List.mem_cons_of_mem v hw)]

/-- Changes the items of a value that is a list. -/
def mapItems (change : Value ν → Value ν) : Value ν → Value ν
  | .list vs => .list (vs.map change)
  | v => v

/-- A list reads the same if some of its items use an old name. -/
theorem Ignores.list (hr : Ignores r old) (hne : old ≠ new) (chosen : Nat → Bool) (missing : List α)
    {v? : Option (Value ν)} (hv : ∀ vs, v? = some (.list vs) →
      ∀ ms, .map ms ∈ vs → Members.get? ms old = none) :
    orElse missing (list r)
        ((v?.map (.renameAt chosen new old)).map (mapItems (PageExtract.renameIn old new))) =
      orElse missing (list r) (v?.map (mapItems (PageExtract.renameIn old new))) := by
  cases v? with
  | none => rfl
  | some v =>
    cases v with
    | list vs =>
      have hsame : ∀ i, ∀ v ∈ vs,
          r (some (PageExtract.renameIn old new (if chosen i then v.rename new old else v))) =
            r (some (PageExtract.renameIn old new v)) := by
        intro i v hmem
        split
        · exact hr.renameIn hne fun ms hms => hv vs rfl ms (hms ▸ hmem)
        · rfl
      have hitems := items_mapIdx hsame 0
      show Reader.list r _ = Reader.list r _
      unfold Reader.list listOf
      simpa [mapItems, Value.renameAt] using hitems
    | null => rfl
    | bool b => rfl
    | num n => rfl
    | str s => rfl
    | map ms => rfl

end Reader

/-! ### Members of processors -/

section

variable {ν : Type}

theorem ignores_calculation : Reader.Ignores (Calculation.reader (ν := ν)) "field" := by
  intro ms ms' h
  simp only [Calculation.reader, Reader.object, Reader.member, h "field_path" (by decide),
    h "formula" (by decide), h "description" (by decide)]

theorem ignores_validation : Reader.Ignores (Validation.reader (ν := ν)) "check" := by
  intro ms ms' h
  simp only [Validation.reader, Reader.object, Reader.member, h "name" (by decide),
    h "predicate" (by decide), h "severity" (by decide)]

theorem get?_changeItems (name : String) (change : Value ν → Value ν) (ms : Members (Value ν))
    (key : String) : Members.get? (changeItems name change ms) key =
      if key = name then (Members.get? ms key).map (Reader.mapItems change)
      else Members.get? ms key := by
  unfold changeItems
  split
  · rename_i vs hvs
    rw [Members.get?_put]
    by_cases hkey : key = name
    · subst hkey
      simp [hvs, Reader.mapItems]
    · simp [hkey, Ne.symm hkey]
  · rename_i hother
    split
    · rename_i hkey
      subst hkey
      cases hget : Members.get? ms key with
      | none => rfl
      | some v =>
        cases v with
        | list vs => exact absurd hget (hother vs)
        | null => rfl
        | bool b => rfl
        | num n => rfl
        | str s => rfl
        | map ms' => rfl
    · rfl

/-- What the members of a processor are under their present names. -/
theorem get?_modernMembers (ms : Members (Value ν)) {key : String}
    (hkey : key ≠ "field_column_mapping") : Members.get? (modernMembers ms) key =
      if key = "validations" then
        (Members.get? ms key).map (Reader.mapItems (renameIn "check" "predicate"))
      else if key = "calculations" then
        (Members.get? ms key).map (Reader.mapItems (renameIn "field" "field_path"))
      else if key = "field_column_map" then
        (Members.get? ms key).or (Members.get? ms "field_column_mapping")
      else Members.get? ms key := by
  rw [modernMembers, get?_changeItems, get?_changeItems, Members.get?_erase_of_ne hkey,
    get?_renameMember]
  grind

theorem get?_oldItems (calculations validations : Nat → Bool) (ms : Members (Value ν))
    (key : String) : Members.get? (oldItems calculations validations ms) key =
      if key = "validations" then
        (Members.get? ms key).map (.renameAt validations "predicate" "check")
      else if key = "calculations" then
        (Members.get? ms key).map (.renameAt calculations "field_path" "field")
      else Members.get? ms key := by
  rw [oldItems, Members.get?_change, Members.get?_change]
  grind

/-- What the members are under their present names if some of them have old ones. -/
theorem get?_modernMembers_old {ms : Members (Value ν)} (hms : IsModern ms) (columns : Bool)
    (calculations validations : Nat → Bool) {key : String} (hkey : key ≠ "field_column_mapping") :
    Members.get? (modernMembers (oldMembers columns calculations validations ms)) key =
      if key = "validations" then
        ((Members.get? ms key).map (.renameAt validations "predicate" "check")).map
          (Reader.mapItems (renameIn "check" "predicate"))
      else if key = "calculations" then
        ((Members.get? ms key).map (.renameAt calculations "field_path" "field")).map
          (Reader.mapItems (renameIn "field" "field_path"))
      else Members.get? (modernMembers ms) key := by
  have hitems := get?_oldItems calculations validations ms
  rw [get?_modernMembers _ hkey, get?_modernMembers _ hkey]
  cases columns with
  | false =>
    have hold : oldMembers false calculations validations ms =
        oldItems calculations validations ms := rfl
    rw [hold, hitems, hitems]
    grind
  | true =>
    have hold : oldMembers true calculations validations ms =
        Members.rename "field_column_map" "field_column_mapping"
          (oldItems calculations validations ms) := rfl
    have hnone : Members.get? (oldItems calculations validations ms) "field_column_mapping" = none :=
      (hitems _).trans hms.columns
    have hrenamed := Members.get?_rename (by decide : "field_column_map" ≠ "field_column_mapping")
      hnone
    rw [hold, hrenamed, hrenamed, hitems, hitems, hms.columns]
    grind

end

/-- A processor depends on what its lists of calculations and validations read as, and on the
other members. -/
theorem Processor.ofMembers_congr {ms ms' : Members (Value Float)}
    (hothers : ∀ key, key ≠ "field_column_mapping" → key ≠ "validations" → key ≠ "calculations" →
      Members.get? ms key = Members.get? ms' key)
    (hcalculations : Reader.orElse [] (Reader.list Calculation.reader)
        (Members.get? ms "calculations") =
      Reader.orElse [] (Reader.list Calculation.reader) (Members.get? ms' "calculations"))
    (hvalidations : Reader.orElse [] (Reader.list Validation.reader)
        (Members.get? ms "validations") =
      Reader.orElse [] (Reader.list Validation.reader) (Members.get? ms' "validations"))
    (now : String) : Processor.ofMembers now ms = Processor.ofMembers now ms' := by
  unfold Processor.ofMembers Reader.member
  rw [hcalculations, hvalidations]
  simp only [hothers, ne_eq, String.reduceEq, not_false_eq_true]

/-- A processor is accepted under old names exactly if it is under present ones, and it is the same
processor; if it is not accepted, the same issues are found. -/
theorem Processor.ofInput_oldMembers {ms : Members (Value Float)} (hms : IsModern ms) (now : String)
    (columns : Bool) (calculations validations : Nat → Bool) :
    Processor.ofInput now (some (.map (oldMembers columns calculations validations ms))) =
      Processor.ofInput now (some (.map ms)) := by
  have hread : Processor.reader now (some (.map (oldMembers columns calculations validations ms))) =
      Processor.reader now (some (.map ms)) := by
    refine Processor.ofMembers_congr (fun key hkey hvalidations hcalculations => ?_) ?_ ?_ now
    · rw [get?_modernMembers_old hms _ _ _ hkey, if_neg hvalidations, if_neg hcalculations]
    · rw [get?_modernMembers_old hms _ _ _ (by decide), get?_modernMembers _ (by decide)]
      exact ignores_calculation.list (by decide) calculations [] hms.calculations
    · rw [get?_modernMembers_old hms _ _ _ (by decide), get?_modernMembers _ (by decide)]
      exact ignores_validation.list (by decide) validations [] hms.validations
  show Processor.ofValue now _ = Processor.ofValue now _
  unfold Processor.ofValue
  rw [hread]

/-- A processor with a calculation that is no map, and with one whose field is no text. -/
def splitMembers : Members (Value Float) :=
  [("id", .str "split"), ("name", .str "Split"), ("field_column_map", .null),
    ("calculations", .list [.null, .map [("field_path", .bool true), ("formula", .str "1")]]),
    ("validations", .list [.map [("name", .str "positive"), ("predicate", .str "sum > 0")]])]

theorem isModern_splitMembers : IsModern splitMembers where
  columns := by rfl
  calculations vs hvs cs hcs := by
    have hlist : vs = [.null, .map [("field_path", .bool true), ("formula", .str "1")]] :=
      (Value.list.inj (Option.some.inj hvs)).symm
    simp only [hlist, List.mem_cons, reduceCtorEq, Value.map.injEq, List.not_mem_nil, or_false,
      false_or] at hcs
    rw [hcs]
    rfl
  validations vs hvs cs hcs := by
    have hlist : vs = [.map [("name", .str "positive"), ("predicate", .str "sum > 0")]] :=
      (Value.list.inj (Option.some.inj hvs)).symm
    rw [hlist, List.mem_singleton, Value.map.injEq] at hcs
    rw [hcs]
    rfl

theorem ofInput_oldMembers_split :
    oldMembers true (fun _ => true) (fun _ => true) splitMembers =
      [("id", .str "split"), ("name", .str "Split"), ("field_column_mapping", .null),
        ("calculations", .list [.null, .map [("field", .bool true), ("formula", .str "1")]]),
        ("validations", .list [.map [("name", .str "positive"), ("check", .str "sum > 0")]])] ∧
      Processor.ofInput "2024-05-01" (some (.map (oldMembers true (fun _ => true) (fun _ => true)
        splitMembers))) = Processor.ofInput "2024-05-01" (some (.map splitMembers)) ∧
      (Processor.ofInput "2024-05-01" (some (.map splitMembers))).mapError ProcessorError.issues =
        .error ["calculations.0: Expected object, received null",
          "calculations.1.field_path: Expected string, received boolean"] :=
  ⟨by rfl, Processor.ofInput_oldMembers isModern_splitMembers "2024-05-01" true (fun _ => true)
    fun _ => true, by rfl⟩

end PageExtract
