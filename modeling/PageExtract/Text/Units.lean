/-
Text measured in UTF-16 code units.

Positions in expressions, lengths of text and the order of two texts all count UTF-16 code
units: one for a character of the basic plane, two (a surrogate pair) for any other. A text may
also hold half a surrogate pair. The half `n` is kept as the character `0x100000 + n`, and a
character that would be taken for a half is kept as the two halves it consists of.

* `length16 s` : the number of code units of `s`;
* `units s` : the code units themselves;
* `ofUnits ns` : the text that code units stand for;
* `joined s`, `shown s` : a text with its neighbouring halves joined, and with each half that is
  left shown as the replacement character;
* `ofScalars s` : a text of whole characters;
* `lt16 a b` : the order of two texts, unit by unit;
* `length_units` : the units of a text are as many as its length says.
-/

namespace PageExtract.Text

/-- Whether a character stands for half a surrogate pair. -/
def isHalf (c : Char) : Bool := 0x10D800 ≤ c.toNat && c.toNat < 0x10E000

/-- The character that stands for half a surrogate pair. -/
def halfChar (n : Nat) : Char := Char.ofNat (0x100000 + n)

/-- The number of code units a character takes. -/
def unitWidth (c : Char) : Nat := if c.toNat < 0x10000 || isHalf c then 1 else 2

/-- The number of code units a run of characters takes. -/
def width16 : List Char → Nat
  | [] => 0
  | c :: cs => unitWidth c + width16 cs

/-- The length of a text in code units. -/
def length16 (s : String) : Nat := width16 s.toList

/-- The two halves of a character beyond the basic plane. -/
def halves (c : Char) : List Nat :=
  [0xD800 + (c.toNat - 0x10000) / 0x400, 0xDC00 + (c.toNat - 0x10000) % 0x400]

/-- The code units of one character. -/
def charUnits (c : Char) : List Nat :=
  if c.toNat < 0x10000 then [c.toNat]
  else if isHalf c then [c.toNat - 0x100000]
  else halves c

/-- The code units of a text. -/
def units (s : String) : List Nat := s.toList.flatMap charUnits

/-- Whether a code unit is the first half of a surrogate pair. -/
def isHigh (n : Nat) : Bool := 0xD800 ≤ n && n < 0xDC00

/-- Whether a code unit is the second half of a surrogate pair. -/
def isLow (n : Nat) : Bool := 0xDC00 ≤ n && n < 0xE000

/-- The code point that the two halves of a surrogate pair stand for. -/
def joinHalves (high low : Nat) : Nat := 0x10000 + (high - 0xD800) * 0x400 + (low - 0xDC00)

/-- The replacement character, which shows half a surrogate pair. -/
def replacement : Char := Char.ofNat 0xFFFD

/-- The characters that code units stand for. `pair` says what a whole pair becomes and `half` what
half of one becomes. -/
def readUnits (pair : Nat → Nat → List Char) (half : Nat → Char) : List Nat → List Char
  | [] => []
  | [n] => [if isHigh n || isLow n then half n else Char.ofNat n]
  | n :: m :: rest =>
    if isHigh n && isLow m then pair n m ++ readUnits pair half rest
    else (if isHigh n || isLow n then half n else Char.ofNat n) :: readUnits pair half (m :: rest)

/-- A character of a text, unless it would be taken for half a surrogate pair: then its halves. -/
def ofScalar (c : Char) : List Char := if isHalf c then (halves c).map halfChar else [c]

/-- The characters of a text that code units stand for. -/
def ofUnits (ns : List Nat) : List Char :=
  readUnits (fun high low => ofScalar (Char.ofNat (joinHalves high low))) halfChar ns

/-- A text with its neighbouring halves joined to characters. -/
def joined (s : String) : String :=
  if s.any isHalf then String.ofList (ofUnits (units s)) else s

/-- A text with each half that has no partner shown as the replacement character. -/
def shown (s : String) : String :=
  if s.any isHalf then
    String.ofList (readUnits (fun high low => [Char.ofNat (joinHalves high low)])
      (fun _ => replacement) (units s))
  else s

/-- A text that consists of whole characters. -/
def ofScalars (s : String) : String :=
  if s.any isHalf then String.ofList (s.toList.flatMap ofScalar) else s

/-- The order of two texts by their first differing unit; a text precedes its extensions. -/
def unitsLt : List Nat → List Nat → Bool
  | _, [] => false
  | [], _ :: _ => true
  | x :: xs, y :: ys => if x < y then true else if y < x then false else unitsLt xs ys

/-- Whether `a` comes before `b` in the order of code units. -/
def lt16 (a b : String) : Bool := unitsLt (units a) (units b)

@[simp] theorem width16_append (xs ys : List Char) :
    width16 (xs ++ ys) = width16 xs + width16 ys := by
  induction xs with
  | nil => simp [width16]
  | cons c cs ih => simp [width16, ih, Nat.add_assoc]

theorem unitWidth_pos (c : Char) : 0 < unitWidth c := by
  unfold unitWidth; split <;> decide

theorem length_charUnits (c : Char) : (charUnits c).length = unitWidth c := by
  unfold charUnits unitWidth halves
  by_cases h : c.toNat < 0x10000 <;> cases hc : isHalf c <;> simp [h]

theorem length_flatMap_charUnits (cs : List Char) :
    (cs.flatMap charUnits).length = width16 cs := by
  induction cs with
  | nil => rfl
  | cons c cs ih => simp [width16, length_charUnits, ih]

/-- The units of a text are as many as its length says. -/
theorem length_units (s : String) : (units s).length = length16 s :=
  length_flatMap_charUnits s.toList

end PageExtract.Text
