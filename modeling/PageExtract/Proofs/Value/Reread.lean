/-
What JSON gives back.

Two texts with the same code units are the same text, and a zero has no sign. In JSON a number that
is not finite is written as null. What is read from the text of a value is the value with just this
change, so it is the value itself exactly if all numbers in it are finite:

* `Value.replaceLeaves`, `Value.numbers` — the numbers and the texts in a value;
* `Value.settled`, `Value.reread` — the value itself, and what JSON makes of it;
* `Value.reread_eq_settled_iff` — when these are the same;
* `Value.chars_reread`, `Value.parse_compact_eq_reread` — what is read from the text of a value;
* `Value.IsFinite`, `Value.IsFinite.reread_eq` — data with finite numbers only loses the signs of
  zeros.
-/
import PageExtract.Proofs.Value.Json

namespace PageExtract

/-! ### Leaves -/

mutual

/-- A value with its numbers and its texts replaced, those that are names of members too. -/
def Value.replaceLeaves {ν : Type} (number : ν → Value ν) (text : String → String) :
    Value ν → Value ν
  | .null => .null
  | .bool b => .bool b
  | .num x => number x
  | .str s => .str (text s)
  | .list vs => .list (replaceItems number text vs)
  | .map ms => .map (replaceMembers number text ms)

/-- The items of a list with their leaves replaced. -/
def replaceItems {ν : Type} (number : ν → Value ν) (text : String → String) :
    List (Value ν) → List (Value ν)
  | [] => []
  | v :: vs => v.replaceLeaves number text :: replaceItems number text vs

/-- The members of a map with their names and their leaves replaced. -/
def replaceMembers {ν : Type} (number : ν → Value ν) (text : String → String) :
    List (String × Value ν) → List (String × Value ν)
  | [] => []
  | (k, v) :: ms => (text k, v.replaceLeaves number text) :: replaceMembers number text ms

end

mutual

/-- The numbers in a value. -/
def Value.numbers {ν : Type} : Value ν → List ν
  | .num x => [x]
  | .list vs => itemNumbers vs
  | .map ms => memberNumbers ms
  | _ => []

/-- The numbers in the items of a list. -/
def itemNumbers {ν : Type} : List (Value ν) → List ν
  | [] => []
  | v :: vs => v.numbers ++ itemNumbers vs

/-- The numbers in the members of a map. -/
def memberNumbers {ν : Type} : List (String × Value ν) → List ν
  | [] => []
  | (_, v) :: ms => v.numbers ++ memberNumbers ms

end

section

variable {ν : Type} (number : ν → Value ν) (text : String → String)

theorem replaceItems_eq_map (vs : List (Value ν)) :
    replaceItems number text vs = vs.map (Value.replaceLeaves number text) := by
  induction vs with
  | nil => rfl
  | cons v vs ih => exact congrArg (v.replaceLeaves number text :: ·) ih

theorem replaceMembers_eq_map (ms : Members (Value ν)) :
    replaceMembers number text ms =
      ms.map fun m => (text m.1, m.2.replaceLeaves number text) := by
  induction ms with
  | nil => rfl
  | cons m ms ih => exact congrArg ((text m.1, m.2.replaceLeaves number text) :: ·) ih

theorem itemNumbers_eq (vs : List (Value ν)) : itemNumbers vs = vs.flatMap Value.numbers := by
  induction vs with
  | nil => rfl
  | cons v vs ih => exact congrArg (v.numbers ++ ·) ih

theorem memberNumbers_eq (ms : Members (Value ν)) :
    memberNumbers ms = ms.flatMap fun m => m.2.numbers := by
  induction ms with
  | nil => rfl
  | cons m ms ih => exact congrArg (m.2.numbers ++ ·) ih

theorem Value.replaceLeaves_list (vs : List (Value ν)) :
    (list vs).replaceLeaves number text = .list (vs.map (replaceLeaves number text)) :=
  congrArg list (replaceItems_eq_map number text vs)

theorem Value.replaceLeaves_map (ms : Members (Value ν)) :
    (map ms).replaceLeaves number text =
      .map (ms.map fun m => (text m.1, m.2.replaceLeaves number text)) :=
  congrArg map (replaceMembers_eq_map number text ms)

theorem Value.numbers_list (vs : List (Value ν)) : (list vs).numbers = vs.flatMap numbers :=
  itemNumbers_eq vs

theorem Value.numbers_map (ms : Members (Value ν)) :
    (map ms).numbers = ms.flatMap fun m => m.2.numbers :=
  memberNumbers_eq ms

end

/-- A property of values holds of all of them if it holds of lists and maps whose parts have it. -/
theorem Value.induction_parts {ν : Type} {P : Value ν → Prop} (null : P .null)
    (bool : ∀ b, P (.bool b)) (num : ∀ x, P (.num x)) (str : ∀ s, P (.str s))
    (list : ∀ vs : List (Value ν), (∀ v ∈ vs, P v) → P (.list vs))
    (map : ∀ ms : Members (Value ν), (∀ m ∈ ms, P m.2) → P (.map ms)) (v : Value ν) : P v := by
  refine @Value.rec ν P (fun vs => ∀ v ∈ vs, P v) (fun ms => ∀ m ∈ ms, P m.2) (fun m => P m.2)
    null bool num str list map ?nil ?cons ?nilMembers ?consMembers (fun _ _ hv => hv) v
  case nil => exact List.forall_mem_nil _
  case cons => exact fun v vs hv hvs => List.forall_mem_cons.2 ⟨hv, hvs⟩
  case nilMembers => exact List.forall_mem_nil _
  case consMembers => exact fun m ms hm hms => List.forall_mem_cons.2 ⟨hm, hms⟩

/-! ### Numbers and texts -/

/-- A number without the sign that a zero can have. -/
def Double.unsigned (x : Float) : Float := if x == 0.0 then 0.0 else x

namespace Double

theorem plain_unsigned {x : Float} (hx : Numeric.isFinite x = true) : Plain (unsigned x) := by
  unfold unsigned
  split
  · exact ⟨_, rfl, fun _ => rfl⟩
  · rename_i hnonzero
    obtain ⟨q, hq⟩ := Option.isSome_iff_exists.1 hx
    obtain ⟨p, hdecode, -⟩ := Option.map_eq_some_iff.1 hq
    exact ⟨p, hdecode, fun hm => absurd (beq_zero_of_decode hdecode hm) hnonzero⟩

/-- Both zeros are written without a sign. -/
theorem number_unsigned (x : Float) : Json.number (unsigned x) = Json.number x := by
  unfold unsigned
  split
  · obtain rfl | rfl := eq_zero_of_beq ‹_›
    · rfl
    · exact (number_zero (x := 0.0) rfl rfl).trans (number_zero (x := -0.0) rfl rfl).symm
  · rfl

end Double

namespace Value

variable {v : Value Float}

/-! ### The value and what JSON makes of it -/

/-- A value itself: its texts are joined, and its zeros have no sign. -/
def settled (v : Value Float) : Value Float :=
  v.replaceLeaves (fun x => .num (Double.unsigned x)) Text.joined

/-- What JSON makes of a value: each number that is not finite becomes null. -/
def reread (v : Value Float) : Value Float :=
  v.replaceLeaves
    (fun x => if Numeric.isFinite x then .num (Double.unsigned x) else .null) Text.joined

/-- Replacing numbers in two ways gives the same if each number in the value is replaced alike. -/
theorem replaceLeaves_congr_iff {ν : Type} (f g : ν → Value ν) (text : String → String)
    (v : Value ν) :
    v.replaceLeaves f text = v.replaceLeaves g text ↔ ∀ x ∈ v.numbers, f x = g x := by
  induction v using Value.induction_parts with
  | null => simp [replaceLeaves, numbers]
  | bool b => simp [replaceLeaves, numbers]
  | num x => simp [replaceLeaves, numbers]
  | str s => simp [replaceLeaves, numbers]
  | list vs ih =>
    rw [replaceLeaves_list, replaceLeaves_list, list.injEq, List.map_inj_left, numbers_list]
    simp only [List.mem_flatMap, forall_exists_index, and_imp]
    exact ⟨fun h x v hv hx => (ih v hv).1 (h v hv) x hx,
      fun h v hv => (ih v hv).2 fun x hx => h x v hv hx⟩
  | map ms ih =>
    rw [replaceLeaves_map, replaceLeaves_map, map.injEq, List.map_inj_left, numbers_map]
    simp only [List.mem_flatMap, forall_exists_index, and_imp, Prod.mk.injEq, true_and]
    exact ⟨fun h x m hm hx => (ih m hm).1 (h m hm) x hx,
      fun h m hm => (ih m hm).2 fun x hx => h x m hm hx⟩

/-- JSON makes nothing else of a value exactly if all numbers in it are finite. -/
theorem reread_eq_settled_iff (v : Value Float) :
    v.reread = v.settled ↔ ∀ x ∈ v.numbers, Numeric.isFinite x = true := by
  refine (replaceLeaves_congr_iff _ _ _ v).trans (forall₂_congr fun x _ => ?_)
  cases Numeric.isFinite x <;> simp

theorem reread_num (x : Float) : (num x).reread =
    if Numeric.isFinite x then .num (Double.unsigned x) else .null := rfl

theorem reread_str (s : String) : (str s).reread = .str (Text.joined s) := rfl

theorem reread_list (vs : List (Value Float)) : (list vs).reread = .list (vs.map reread) :=
  replaceLeaves_list _ _ vs

theorem reread_map (ms : Members (Value Float)) :
    (map ms).reread = .map (ms.map fun m => (Text.joined m.1, m.2.reread)) :=
  replaceLeaves_map _ _ ms

/-- A value has the same text as what JSON makes of it. -/
theorem chars_reread (v : Value Float) : v.reread.chars = v.chars := by
  induction v using Value.induction_parts with
  | null => rfl
  | bool b => rfl
  | num x =>
    rw [reread_num]
    cases hx : Numeric.isFinite x with
    | true =>
      rw [if_pos rfl, chars, chars]
      exact Double.number_unsigned x
    | false =>
      rw [if_neg Bool.false_ne_true, chars, chars, Json.number, hx, if_neg Bool.false_ne_true]
  | str s => rw [reread_str, chars, chars, Json.quote, Json.quote, Text.joined_joined]
  | list vs ih =>
    have htexts : (vs.map reread).map chars = vs.map chars := by
      rw [List.map_map]
      exact List.map_congr_left ih
    rw [reread_list, chars, chars, Json.itemChars_eq, Json.itemChars_eq, htexts]
  | map ms ih =>
    have htexts : (ms.map fun m => (Text.joined m.1, m.2.reread)).map
        (fun m => Json.quote m.1 ++ ':' :: ([] ++ m.2.chars)) =
          ms.map fun m => Json.quote m.1 ++ ':' :: ([] ++ m.2.chars) := by
      rw [List.map_map]
      refine List.map_congr_left fun m hm => ?_
      simp only [Function.comp_apply, ih m hm, Json.quote, Text.joined_joined]
    rw [reread_map, chars, chars, Json.memberChars_eq, Json.memberChars_eq, htexts]

/-- What JSON makes of a value is read from the text of the value. -/
theorem parse_compact_eq_reread (hv : v.reread.IsPlain) : parse? v.compact = some v.reread := by
  have htext : v.compact = v.reread.compact := congrArg String.ofList (chars_reread v).symm
  rw [htext, parse_compact hv]

/-- A value is read from its own text exactly if all numbers in it are finite. -/
theorem parse_compact_eq_settled_iff (hv : v.reread.IsPlain) :
    parse? v.compact = some v.settled ↔ ∀ x ∈ v.numbers, Numeric.isFinite x = true := by
  rw [parse_compact_eq_reread hv, Option.some_inj, reread_eq_settled_iff]

end Value

/-! ### Finite numbers -/

/-- A value with its numbers replaced. -/
def Value.mapNumbers {ν : Type} (f : ν → ν) (v : Value ν) : Value ν :=
  v.replaceLeaves (fun x => .num (f x)) id

theorem Value.mapNumbers_list {ν : Type} (f : ν → ν) (vs : List (Value ν)) :
    (Value.list vs).mapNumbers f = .list (vs.map (Value.mapNumbers f)) := by
  rw [mapNumbers, replaceLeaves_list]
  rfl

theorem Value.mapNumbers_map {ν : Type} (f : ν → ν) (ms : Members (Value ν)) :
    (Value.map ms).mapNumbers f = .map (ms.map fun m => (m.1, m.2.mapNumbers f)) := by
  rw [mapNumbers, replaceLeaves_map]
  rfl

/-- A value that data can have, with finite numbers only. -/
abbrev Value.IsFinite (v : Value Float) : Prop := v.Proper fun x => Numeric.isFinite x = true

theorem Value.isFinite_of_numbers {v : Value Float} (hv : v.IsData)
    (h : ∀ x ∈ v.numbers, Numeric.isFinite x = true) : v.IsFinite := by
  induction hv with
  | null => exact .null
  | bool b => exact .bool b
  | num _ => exact .num (h _ (List.mem_singleton_self _))
  | str hs => exact .str hs
  | list hvs ih =>
    rw [numbers_list] at h
    exact .list fun v hv => ih v hv fun x hx => h x (List.mem_flatMap.2 ⟨v, hv, hx⟩)
  | map hordered hnames hvalues ih =>
    rw [numbers_map] at h
    exact .map hordered hnames fun m hm => ih m hm fun x hx => h x (List.mem_flatMap.2 ⟨m, hm, hx⟩)

/-- What JSON makes of data with finite numbers is the data without the signs of zeros. -/
theorem Value.IsFinite.reread_eq {v : Value Float} (hv : v.IsFinite) :
    v.reread = v.mapNumbers Double.unsigned := by
  induction hv with
  | null => rfl
  | bool b => rfl
  | num hx =>
    rw [reread_num, if_pos hx]
    rfl
  | str hs =>
    rw [reread_str, hs]
    rfl
  | list hvs ih =>
    rw [reread_list, mapNumbers_list]
    exact congrArg Value.list (List.map_congr_left ih)
  | map hordered hnames hvalues ih =>
    rw [reread_map, mapNumbers_map]
    refine congrArg Value.map (List.map_congr_left fun m hm => ?_)
    rw [hnames m hm, ih m hm]

theorem Value.IsFinite.isPlain_reread {v : Value Float} (hv : v.IsFinite) :
    v.reread.IsPlain := by
  induction hv with
  | null => exact .null
  | bool b => exact .bool b
  | num hx =>
    rw [reread_num, if_pos hx]
    exact .num (Double.plain_unsigned hx)
  | str hs => exact .str (Text.joined_joined _)
  | list hvs ih =>
    rw [reread_list]
    exact .list (List.forall_mem_map.2 ih)
  | map hordered hnames hvalues ih =>
    rw [reread_map]
    refine .map ?_ (List.forall_mem_map.2 fun m hm => Text.joined_joined _)
      (List.forall_mem_map.2 ih)
    have hsame : ∀ ms : Members (Value Float), (∀ m ∈ ms, Text.joined m.1 = m.1) →
        Members.names (ms.map fun m => (Text.joined m.1, m.2.reread)) = Members.names ms := by
      intro ms hms
      rw [Members.names, List.map_map]
      exact List.map_congr_left hms
    unfold Members.Ordered
    rwa [hsame _ hnames]

end PageExtract
