/-
Text beyond ASCII in ASCII, as names of hosts write it.

The ASCII characters of a label come first, with a hyphen after them if there are any. The other
characters follow in ascending order. Each is given by a number that says how many places and code
points lie between it and the one before, written in base 36 with the lowest digit first.

* `Punycode.encode` : a label in ASCII;
* `Punycode.decode?` : the label that ASCII characters write;
* `value?_digit` : a digit that is written is read back.
-/
import PageExtract.Text.Split

namespace PageExtract.Punycode

/-- A digit of base 36: the letters and then the numerals. -/
def digit (n : Nat) : Char :=
  if n < 26 then Char.ofNat ('a'.toNat + n) else Char.ofNat ('0'.toNat + (n - 26))

/-- The value of a digit. -/
def value? (c : Char) : Option Nat :=
  if 'a' ≤ c ∧ c ≤ 'z' then some (c.toNat - 'a'.toNat)
  else if 'A' ≤ c ∧ c ≤ 'Z' then some (c.toNat - 'A'.toNat)
  else if '0' ≤ c ∧ c ≤ '9' then some (c.toNat - '0'.toNat + 26)
  else none

/-- A digit that is written is read back. -/
theorem value?_digit {n : Nat} (h : n < 36) : value? (digit n) = some n := by
  have all : ∀ m ∈ List.range 36, value? (digit m) = some m := by decide
  exact all n (List.mem_range.2 h)

/-- The value from which on a digit at a place is not the last one. -/
def threshold (bias place : Nat) : Nat := max 1 (min 26 (place - bias))

theorem threshold_pos (bias place : Nat) : 1 ≤ threshold bias place := Nat.le_max_left _ _

theorem threshold_le (bias place : Nat) : threshold bias place ≤ 26 :=
  Nat.max_le.2 ⟨by decide, Nat.min_le_left _ _⟩

/-- The bias for the number after one of a size, by how often the size can be divided. -/
def settle (size bias : Nat) : Nat :=
  if 455 < size then settle (size / 35) (bias + 36) else bias + 36 * size / (size + 38)
termination_by size
decreasing_by exact Nat.div_lt_self (by omega) (by decide)

/-- The bias for the number after one that brought the characters to `count`. -/
def adapt (number count : Nat) (first : Bool) : Nat :=
  let size := if first then number / 700 else number / 2
  settle (size + size / count) 0

/-- The digits of a number, from a place on. -/
def numberDigits (bias place number : Nat) : List Char :=
  let t := threshold bias place
  if number < t then [digit number]
  else
    digit (t + (number - t) % (36 - t)) ::
      numberDigits bias (place + 36) ((number - t) / (36 - t))
termination_by number
decreasing_by
  have := threshold_pos bias place
  exact Nat.lt_of_le_of_lt (Nat.div_le_self _ _) (by omega)

/-- How far a label has been written: the digits, the number that comes next, the bias for it and
the count of the characters written. -/
structure Progress where
  written : List Char
  number : Nat
  bias : Nat
  count : Nat

/-- Passes over a character of the label, or writes it if it is the code point whose turn it is;
`basic` characters were ASCII. -/
def pass (basic point : Nat) (p : Progress) (c : Char) : Progress :=
  if c.toNat < point then { p with number := p.number + 1 }
  else if c.toNat = point then
    ⟨p.written ++ numberDigits p.bias 36 p.number, 0,
      adapt p.number (p.count + 1) (p.count == basic), p.count + 1⟩
  else p

/-- Writes the characters that are some code points, in their order; `next` is the least code point
not yet passed. -/
def writePoints (label : List Char) (basic : Nat) : Nat → List Nat → Progress → Progress
  | _, [], p => p
  | next, point :: points, p =>
    let start := { p with number := p.number + (point - next) * (p.count + 1) }
    let passed := label.foldl (pass basic point) start
    writePoints label basic (point + 1) points { passed with number := passed.number + 1 }

/-- A label in ASCII. -/
def encode (label : List Char) : List Char :=
  let basic := label.filter fun c => c.toNat < 0x80
  let points := ((label.filter fun c => 0x80 ≤ c.toNat).map Char.toNat).eraseDups
  let sorted := points.mergeSort (· ≤ ·)
  basic ++ (if basic.isEmpty then [] else ['-']) ++
    (writePoints label basic.length 0x80 sorted ⟨[], 0, 72, basic.length⟩).written

/-- Reads a number, from a place of a weight on, and answers it together with what is left. -/
def readNumber? (bias : Nat) : Nat → Nat → List Char → Option (Nat × List Char)
  | _, _, [] => none
  | place, weight, c :: cs =>
    match value? c with
    | none => none
    | some d =>
      let t := threshold bias place
      if d < t then some (d * weight, cs)
      else (readNumber? bias (place + 36) (weight * (36 - t)) cs).map fun p =>
        (d * weight + p.1, p.2)

/-- Puts the characters that digits give into a label. `place` counts the places passed, `point` is
the code point that is reached, and the first argument bounds the number of characters. -/
def insertPoints? : Nat → Nat → Nat → Nat → List Char → List Char → Option (List Char)
  | _, _, _, _, label, [] => some label
  | 0, _, _, _, _, _ => none
  | fuel + 1, bias, point, place, label, cs =>
    match readNumber? bias 36 1 cs with
    | none => none
    | some (number, rest) =>
      let count := label.length + 1
      let reached := place + number
      let point' := point + reached / count
      let at' := reached % count
      if point'.isValidChar then
        insertPoints? fuel (adapt number count (label.all fun c => c.toNat < 0x80)) point'
          (at' + 1) (label.insertIdx at' (Char.ofNat point')) rest
      else none

/-- The label that ASCII characters write. -/
def decode? (cs : List Char) : Option (List Char) :=
  let (basic, digits) := (Text.cutAtLast '-' cs).getD ([], cs)
  insertPoints? digits.length 72 0x80 0 basic digits

end PageExtract.Punycode
