/-
Reading JSON text.

The text holds one value, with blank space, tabs and line breaks around its tokens. Of two members
of one name the later value counts. A surrogate escape without its partner is half a pair.

* `Json.readString?`, `Json.readNumber?` : the readers of the two token classes that vary;
* `Json.readValue?`, `Json.readItems?`, `Json.readMembers?` : the grammar;
* `Value.parse?` : a whole text;
* `readValue_quote`, `readItems_last`, `readMembers_last` : where a text, a list and a map end.
-/
import PageExtract.Value.Json
import PageExtract.Reading
import PageExtract.Text.Units

namespace PageExtract

namespace Json

/-- White space between tokens. -/
def isSpace (c : Char) : Bool := c == ' ' || c == '\n' || c == '\r' || c == '\t'

/-- Drops white space. -/
def skip (cs : List Char) : List Char := cs.dropWhile isSpace

theorem length_skip_le (cs : List Char) : (skip cs).length ≤ cs.length :=
  (List.dropWhile_suffix _).length_le

/-- The number four digits of base sixteen write. -/
def hex4? (a b c d : Char) : Option Nat := Numeral.basedNat? 16 [a, b, c, d]

/-- The character a one-letter escape stands for. -/
def shortEscape? (c : Char) : Option Char :=
  match c with
  | '"' => some '"'
  | '\\' => some '\\'
  | '/' => some '/'
  | 'b' => some (Char.ofNat 8)
  | 'f' => some (Char.ofNat 12)
  | 'n' => some '\n'
  | 'r' => some '\r'
  | 't' => some '\t'
  | _ => none

/-- Reads the rest of a text up to and including its closing quotation mark; `acc` holds the code
units before it, last first. -/
def readUnits? (acc : List Nat) : List Char → Option (List Nat × List Char)
  | [] => none
  | '"' :: rest => some (acc.reverse, rest)
  | '\\' :: 'u' :: a :: b :: c :: d :: rest =>
    match hex4? a b c d with
    | some n => readUnits? (n :: acc) rest
    | none => none
  | '\\' :: e :: rest =>
    match shortEscape? e with
    | some c => readUnits? (c.toNat :: acc) rest
    | none => none
  | c :: rest =>
    if c.toNat < 0x20 || c == '\\' then none
    else readUnits? ((Text.charUnits c).reverse ++ acc) rest

/-- Reads the rest of a text up to and including its closing quotation mark. -/
def readString? (cs : List Char) : Option (String × List Char) :=
  (readUnits? [] cs).map fun p => (String.ofList (Text.ofUnits p.1), p.2)

/-- Reads an unsigned number: no zero in front of other digits, and a digit after each point and
exponent mark. -/
def readUnsigned? (cs : List Char) : Option (Float × List Char) :=
  let (whole, rest) := Numeral.digits cs
  if whole.isEmpty || (whole.length > 1 && whole.head? == some '0') then none
  else
    let fraction : Option (List Char × List Char) :=
      match rest with
      | '.' :: rest' =>
        let (ds, rest'') := Numeral.digits rest'
        if ds.isEmpty then none else some ('.' :: ds, rest'')
      | _ => some ([], rest)
    match fraction with
    | none => none
    | some (part, rest') =>
      let (ex, rest'') := Numeral.scanExponent rest'
      match ex, rest' with
      | [], c :: _ =>
        if Numeral.isExponentMark c then none else some (Numeral.toFloat (whole ++ part), rest'')
      | _, _ => some (Numeral.toFloat (whole ++ part ++ ex), rest'')

/-- Reads a number, perhaps with a minus sign. -/
def readNumber? (cs : List Char) : Option (Float × List Char) :=
  match cs with
  | '-' :: rest => (readUnsigned? rest).map fun p => (-p.1, p.2)
  | _ => readUnsigned? cs

/-- Reads one of the three words. -/
def readWord? (cs : List Char) : Option (Value Float × List Char) :=
  match cs with
  | 't' :: 'r' :: 'u' :: 'e' :: rest => some (.bool true, rest)
  | 'f' :: 'a' :: 'l' :: 's' :: 'e' :: rest => some (.bool false, rest)
  | 'n' :: 'u' :: 'l' :: 'l' :: rest => some (.null, rest)
  | _ => none

/-- A rest that is known to be shorter. -/
def shorter? {α : Type} (cs : List Char) (p : α × List Char) : Option (Reading Char α cs.length) :=
  if h : p.2.length < cs.length then some ⟨p.1, p.2, h⟩ else none

/-- Reads the name of a member and the colon after it. -/
def readName? (cs : List Char) : Option (Reading Char String cs.length) :=
  match skip cs with
  | '"' :: rest =>
    match readString? rest with
    | some (k, rest') =>
      match skip rest' with
      | ':' :: rest'' => shorter? cs (k, rest'')
      | _ => none
    | none => none
  | _ => none

mutual

/-- Reads a value, after white space. -/
def readValue? (cs : List Char) : Option (Reading Char (Value Float) cs.length) :=
  match _h : skip cs with
  | '"' :: rest => (readString? rest).bind fun p => (shorter? cs p).map (·.map Value.str)
  | '[' :: rest =>
    match skip rest with
    | ']' :: rest' => shorter? cs (.list [], rest')
    | _ => (readItems? rest).bind fun r => shorter? cs (.list r.value, r.rest)
  | '\x7b' :: rest =>
    match skip rest with
    | '\x7d' :: rest' => shorter? cs (.map [], rest')
    | _ => (readMembers? [] rest).bind fun r => shorter? cs (.map r.value, r.rest)
  | cs' =>
    match readWord? cs' with
    | some p => shorter? cs p
    | none => (readNumber? cs').bind fun p => (shorter? cs p).map (·.map Value.num)
termination_by 2 * cs.length
decreasing_by
  all_goals
    have := length_skip_le cs
    grind

/-- Reads one or more items up to and including the closing bracket. -/
def readItems? (cs : List Char) : Option (Reading Char (List (Value Float)) cs.length) := do
  let v ← readValue? cs
  match _h : skip v.rest with
  | ',' :: rest =>
    let vs ← readItems? rest
    shorter? cs (v.value :: vs.value, vs.rest)
  | ']' :: rest => shorter? cs ([v.value], rest)
  | _ => none
termination_by 2 * cs.length + 1
decreasing_by
  · grind
  · have := length_skip_le v.rest; have := v.short; grind

/-- Reads one or more members up to and including the closing brace, after those read before. -/
def readMembers? (ms : Members (Value Float)) (cs : List Char) :
    Option (Reading Char (Members (Value Float)) cs.length) := do
  let k ← readName? cs
  let v ← readValue? k.rest
  let ms' := Members.set ms k.value v.value
  match _h : skip v.rest with
  | ',' :: rest =>
    let r ← readMembers? ms' rest
    shorter? cs (r.value, r.rest)
  | '\x7d' :: rest => shorter? cs (ms', rest)
  | _ => none
termination_by 2 * cs.length + 1
decreasing_by
  · have := k.short; grind
  · have := length_skip_le v.rest; have := k.short; have := v.short; grind

end

section

variable {cs tail rest : List Char}

theorem readValue_quote (hcs : skip cs = '"' :: tail) :
    readValue? cs =
      (readString? tail).bind fun p => (shorter? cs p).map (·.map Value.str) := by
  rw [readValue?]
  split <;> simp_all

theorem readItems_last {v : Value Float} {r : List Char} {h} (hv : readValue? cs = some ⟨v, r, h⟩)
    (hr : skip r = ']' :: rest) : readItems? cs = shorter? cs ([v], rest) := by
  rw [readItems?, hv]
  simp only [Option.bind_eq_bind, Option.bind_some]
  split <;> simp_all

theorem readMembers_last {ms : Members (Value Float)} {k : String} {v : Value Float}
    {r r' : List Char} {h h'} (hk : readName? cs = some ⟨k, r', h'⟩)
    (hv : readValue? r' = some ⟨v, r, h⟩) (hr : skip r = '\x7d' :: rest) :
    readMembers? ms cs = shorter? cs (Members.set ms k v, rest) := by
  rw [readMembers?, hk]
  simp only [Option.bind_eq_bind, Option.bind_some, hv]
  split <;> simp_all

end

end Json

/-- The value a JSON text holds. -/
def Value.parse? (s : String) : Option (Value Float) :=
  match Json.readValue? s.toList with
  | some r => if (Json.skip r.rest).isEmpty then some r.value else none
  | none => none

end PageExtract
