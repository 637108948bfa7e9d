/-
Plain values: null, truth values, numbers, texts, lists, and maps from names to values.

The members of a map keep the order in which they were added, except that names that are array
indexes (`0`, `1`, `42`, …) come first, in ascending order. Setting a name that is present keeps
its place.

* `Value ν` : a plain value with numbers of type `ν`;
* `Members.set`, `Members.get?`, `Members.ofList`, `Members.merge` : the operations on members,
  and `Members.put` for names that are no array indexes;
* `Scalar ν` : the values that are neither lists nor maps;
* `optionalMember`, `textsValue` : a member that may be missing, and a list of texts;
* `get?_set`, `get?_put` : what is read after a member is set.
-/
import PageExtract.Number.Basic

namespace PageExtract

/-- A plain value with numbers of type `ν`. -/
inductive Value (ν : Type) where
  | null
  | bool (b : Bool)
  | num (n : ν)
  | str (s : String)
  | list (items : List (Value ν))
  | map (members : List (String × Value ν))
deriving Inhabited, Repr

/-- The members of a map, in order. -/
abbrev Members (α : Type) := List (String × α)

/-- A value that is neither a list nor a map. -/
inductive Scalar (ν : Type) where
  | null
  | bool (b : Bool)
  | num (n : ν)
  | str (s : String)
deriving Inhabited, Repr, DecidableEq

/-- A scalar as a plain value. -/
def Scalar.toValue {ν : Type} : Scalar ν → Value ν
  | .null => .null
  | .bool b => .bool b
  | .num n => .num n
  | .str s => .str s

/-- The member of a name whose value may be missing. -/
def optionalMember {ν α : Type} (key : String) (toValue : α → Value ν) :
    Option α → Members (Value ν)
  | some a => [(key, toValue a)]
  | none => []

/-- A list of texts as a plain value. -/
def textsValue {ν : Type} (ss : List String) : Value ν := .list (ss.map .str)

/-- The array index a name spells: digits without a leading zero, below 2³² - 1. -/
def indexOf? (name : String) : Option Nat :=
  let cs := name.toList
  if cs.isEmpty || !cs.all Char.isDigit || (cs.length > 1 && cs.head? == some '0')
      || cs.length > 10 then none
  else
    let n := Numeral.natOfDigits cs
    if n < 4294967295 then some n else none

namespace Members

variable {α : Type}

/-- The value of the first member of a name. -/
def get? : Members α → String → Option α
  | [], _ => none
  | (k, v) :: ms, name => if k = name then some v else get? ms name

/-- Whether a name is present. -/
def has (ms : Members α) (name : String) : Bool := (get? ms name).isSome

/-- The names, in order. -/
def names (ms : Members α) : List String := ms.map (·.1)

/-- Replaces the value of a present name, at its place. -/
def replace (name : String) (v : α) : Members α → Members α
  | [] => []
  | (k, w) :: ms => if k = name then (k, v) :: ms else (k, w) :: replace name v ms

/-- Adds a member whose name is an array index before the first member of a greater index and
before every other name. -/
def insertIndex (i : Nat) (name : String) (v : α) : Members α → Members α
  | [] => [(name, v)]
  | (k, w) :: ms =>
    match indexOf? k with
    | some j => if j < i then (k, w) :: insertIndex i name v ms else (name, v) :: (k, w) :: ms
    | none => (name, v) :: (k, w) :: ms

/-- Sets a member: at its place if the name is present, else among the array indexes if the name
is one, else at the end. -/
def set (ms : Members α) (name : String) (v : α) : Members α :=
  if has ms name then replace name v ms
  else match indexOf? name with
    | some i => insertIndex i name v ms
    | none => ms ++ [(name, v)]

/-- Sets a member at its place if the name is present, else at the end. -/
def put (ms : Members α) (name : String) (v : α) : Members α :=
  if has ms name then replace name v ms else ms ++ [(name, v)]

/-- The members set one after the other. -/
def merge (ms extra : Members α) : Members α := extra.foldl (fun acc m => set acc m.1 m.2) ms

/-- The map that results from setting the members in turn. -/
def ofList (ms : Members α) : Members α := merge [] ms

/-- Drops the members of a name. -/
def erase (ms : Members α) (name : String) : Members α := ms.filter fun m => m.1 != name

theorem get?_replace (name key : String) (v : α) (ms : Members α) :
    get? (replace name v ms) key =
      if name = key then (get? ms name).map fun _ => v else get? ms key := by
  induction ms with
  | nil => simp [replace, get?]
  | cons m ms ih => obtain ⟨k, w⟩ := m; grind [replace, get?]

theorem get?_insertIndex (i : Nat) (name key : String) (v : α) (ms : Members α)
    (h : get? ms name = none) :
    get? (insertIndex i name v ms) key = if name = key then some v else get? ms key := by
  induction ms with
  | nil => simp [insertIndex, get?]
  | cons m ms ih => obtain ⟨k, w⟩ := m; grind [insertIndex, get?]

theorem get?_append_single (name key : String) (v : α) (ms : Members α)
    (h : get? ms name = none) :
    get? (ms ++ [(name, v)]) key = if name = key then some v else get? ms key := by
  induction ms with
  | nil => simp [get?]
  | cons m ms ih => obtain ⟨k, w⟩ := m; grind [get?]

/-- After a member is set, its name has the new value and every other name what it had. -/
theorem get?_set (ms : Members α) (name key : String) (v : α) :
    get? (set ms name v) key = if name = key then some v else get? ms key := by
  unfold set
  split
  · rename_i h
    obtain ⟨w, hw⟩ := Option.isSome_iff_exists.1 h
    simp [get?_replace, hw]
  · rename_i h
    have hn : get? ms name = none := by simpa [has] using h
    split
    · exact get?_insertIndex _ _ _ _ _ hn
    · exact get?_append_single _ _ _ _ hn

/-- After a member is put, its name has the new value and every other name what it had. -/
theorem get?_put (ms : Members α) (name key : String) (v : α) :
    get? (put ms name v) key = if name = key then some v else get? ms key := by
  unfold put
  split
  · rename_i h
    obtain ⟨w, hw⟩ := Option.isSome_iff_exists.1 h
    simp [get?_replace, hw]
  · rename_i h
    exact get?_append_single _ _ _ _ (by simpa [has] using h)

/-- A member that is new is put last. -/
theorem put_of_get?_eq_none {ms : Members α} {name : String} (v : α) (h : get? ms name = none) :
    put ms name v = ms ++ [(name, v)] := by
  rw [put, has, h]
  rfl

end Members

end PageExtract
