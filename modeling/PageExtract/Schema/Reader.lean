/-
Readers of plain values.

A reader checks a value that may be missing, and says what it reads as.

* `Reader` : the readers;
* `text`, `name`, `flag`, `number`, `oneOf`, `anything` : readers of single values;
* `list`, `pair`, `textMap`, `object` : readers of values with parts;
* `optional`, `nullable`, `orElse` : readers of values that may be missing.
-/
import PageExtract.Schema.Checked

namespace PageExtract

/-- A way to check a value that may be missing. -/
abbrev Reader (ν α : Type) := Option (Value ν) → Checked α

namespace Reader

variable {ν α : Type}

/-- The report that a value is not of the kind expected. -/
def refuse (expected : ValueKind) (v : Option (Value ν)) : Checked α :=
  .bad (.kind expected (v.map Value.kind))

/-- Any text. -/
def text : Reader ν String
  | some (.str s) => pure s
  | v => refuse .str v

/-- Any text but the empty one. -/
def name : Reader ν String := fun v => (text v).flagIf (·.isEmpty) .emptyText

/-- A truth value. -/
def flag : Reader ν Bool
  | some (.bool b) => pure b
  | v => refuse .bool v

/-- Any number. -/
def number : Reader ν ν
  | some (.num n) => pure n
  | v => refuse .num v

/-- A text that names one of some choices. -/
def oneOf (choices : List α) (nameOf : α → String) : Reader ν α
  | some (.str s) =>
    match choices.find? fun c => nameOf c == s with
    | some c => pure c
    | none => .bad (.choice (choices.map nameOf) s)
  | v => .bad (.choiceKind (choices.map nameOf) (v.map Value.kind))

/-- Any value, even a missing one. -/
def anything : Reader ν (Option (Value ν)) := pure

/-- The items of a list, from a position on. -/
def items (item : Reader ν α) (position : Nat) : List (Value ν) → Checked (List α)
  | [] => pure []
  | v :: vs =>
    List.cons <$> (item (some v)).below (toString position) <*> items item (position + 1) vs

/-- A list of at least so many items. The length is checked before the items. -/
def listOf (least : Nat) (item : Reader ν α) : Reader ν (List α)
  | some (.list vs) =>
    let c := items item 0 vs
    if vs.length < least then ⟨c.value?, ⟨[], .tooFew least⟩ :: c.issues⟩ else c
  | v => refuse .list v

/-- A list. -/
def list (item : Reader ν α) : Reader ν (List α) := listOf 0 item

/-- A list of two items. One that is too short cannot be read; one that is too long can. -/
def pair (item : Reader ν α) : Reader ν (α × α)
  | some (.list (v :: w :: more)) =>
    let c := Prod.mk <$> (item (some v)).below "0" <*> (item (some w)).below "1"
    if more.isEmpty then c else ⟨c.value?, ⟨[], .tooMany 2⟩ :: c.issues⟩
  | some (.list _) => .bad (.tooFew 2)
  | v => refuse .list v

/-- A map, read by what is done with its members. -/
def object (read : Members (Value ν) → Checked α) : Reader ν α
  | some (.map ms) => read ms
  | v => refuse .map v

/-- The member of a name. -/
def member (key : String) (r : Reader ν α) (ms : Members (Value ν)) : Checked α :=
  (r (Members.get? ms key)).below key

/-- Members whose values are texts. -/
def textMembers : Members (Value ν) → Checked (Members String)
  | [] => pure []
  | (k, v) :: ms =>
    (fun s rest => (k, s) :: rest) <$> (text (some v)).below k <*> textMembers ms

/-- A map from names to texts. -/
def textMap : Reader ν (Members String) := object textMembers

/-- A value that may be missing. -/
def optional (r : Reader ν α) : Reader ν (Option α)
  | none => pure none
  | v => some <$> r v

/-- A value that may be missing or null. With any issue it cannot be read. -/
def nullable (r : Reader ν α) : Reader ν (Option α)
  | none => pure none
  | some .null => pure none
  | v => some <$> (r v).settled

/-- A value that, if missing, is taken to be another one. -/
def orElse (missing : α) (r : Reader ν α) : Reader ν α
  | none => pure missing
  | v => r v

end Reader

end PageExtract
