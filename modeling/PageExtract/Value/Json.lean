/-
Plain values as JSON text.

* `Json.quote s` : a text between quotation marks, with escapes for the marks, the backslash, the
  control characters and the halves of surrogate pairs;
* `Value.compact` : a value without any spacing;
* `Value.indented` : one member or item a line, two spaces a level.

A number that is not finite is written as `null`.
-/
import PageExtract.Text.Units
import PageExtract.Value.Basic

namespace PageExtract

namespace Json

/-- A digit of base sixteen. -/
def hexDigit (n : Nat) : Char := if n < 10 then Char.ofNat (48 + n) else Char.ofNat (87 + n)

/-- One character between quotation marks. -/
def escape (c : Char) : List Char :=
  if c == '"' then ['\\', '"']
  else if c == '\\' then ['\\', '\\']
  else if Text.isHalf c then
    ['\\', 'u', 'd', hexDigit (c.toNat / 256 % 16), hexDigit (c.toNat / 16 % 16),
      hexDigit (c.toNat % 16)]
  else if 0x20 ≤ c.toNat then [c]
  else if c == '\n' then ['\\', 'n']
  else if c == '\r' then ['\\', 'r']
  else if c == '\t' then ['\\', 't']
  else if c.toNat == 8 then ['\\', 'b']
  else if c.toNat == 12 then ['\\', 'f']
  else ['\\', 'u', '0', '0', hexDigit (c.toNat / 16), hexDigit (c.toNat % 16)]

/-- A text between quotation marks. -/
def quote (s : String) : List Char := '"' :: (Text.joined s).toList.flatMap escape ++ ['"']

/-- A number; one that is not finite is null. -/
def number {ν : Type} [Numeric ν] (n : ν) : List Char :=
  if Numeric.isFinite n then (Numeric.text n).toList else "null".toList

/-- A line break and the spaces of a level. -/
def newline (depth : Nat) : List Char := '\n' :: List.replicate (2 * depth) ' '

end Json

variable {ν : Type} [Numeric ν]

mutual

/-- A value without spacing. -/
def Value.chars : Value ν → List Char
  | .null => "null".toList
  | .bool b => (if b then "true" else "false").toList
  | .num n => Json.number n
  | .str s => Json.quote s
  | .list xs => '[' :: itemChars xs ++ [']']
  | .map ms => '\x7b' :: memberChars ms ++ ['\x7d']

/-- Items without spacing. -/
def itemChars : List (Value ν) → List Char
  | [] => []
  | [v] => v.chars
  | v :: vs => v.chars ++ ',' :: itemChars vs

/-- Members without spacing. -/
def memberChars : List (String × Value ν) → List Char
  | [] => []
  | [(k, v)] => Json.quote k ++ ':' :: v.chars
  | (k, v) :: ms => Json.quote k ++ ':' :: v.chars ++ ',' :: memberChars ms

end

mutual

/-- A value with one item or member a line, at a level of indentation. -/
def Value.linedChars (depth : Nat) : Value ν → List Char
  | .null => "null".toList
  | .bool b => (if b then "true" else "false").toList
  | .num n => Json.number n
  | .str s => Json.quote s
  | .list [] => ['[', ']']
  | .list (v :: vs) =>
    '[' :: Json.newline (depth + 1) ++ linedItems (depth + 1) (v :: vs) ++ Json.newline depth ++ [']']
  | .map [] => ['\x7b', '\x7d']
  | .map (m :: ms) =>
    '\x7b' :: Json.newline (depth + 1) ++ linedMembers (depth + 1) (m :: ms)
      ++ Json.newline depth ++ ['\x7d']

/-- Items, one a line. -/
def linedItems (depth : Nat) : List (Value ν) → List Char
  | [] => []
  | [v] => v.linedChars depth
  | v :: vs => v.linedChars depth ++ ',' :: Json.newline depth ++ linedItems depth vs

/-- Members, one a line. -/
def linedMembers (depth : Nat) : List (String × Value ν) → List Char
  | [] => []
  | [(k, v)] => Json.quote k ++ ':' :: ' ' :: v.linedChars depth
  | (k, v) :: ms =>
    Json.quote k ++ ':' :: ' ' :: v.linedChars depth ++ ',' :: Json.newline depth
      ++ linedMembers depth ms

end

/-- A value as text without spacing. -/
def Value.compact (v : Value ν) : String := String.ofList v.chars

/-- A value as text, one item or member a line. -/
def Value.indented (v : Value ν) : String := String.ofList (v.linedChars 0)

end PageExtract
