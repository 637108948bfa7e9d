/-
Addresses of hosts that are numbers.

Such an address has up to four numbers with points between them; the last one fills the bytes that
are left. A number is octal after a zero and hexadecimal after `0x`, and one point may stand at the
end:

* `Ipv4.endsInNumber` : which names of hosts are numbers;
* `Ipv4.parse?` : the value of an address;
* `Ipv4.text` : an address as four decimal numbers.

Or it has eight parts with colons between them, each a number of up to four hexadecimal digits. Two
colons stand for at least one part that is zero, and the last two parts may be written as four
decimal bytes:

* `Ipv6.parse?` : the parts of an address;
* `Ipv6.text` : the shortest form, in which the longest run of zeros is two colons.
-/
import PageExtract.Number.Numeral
import PageExtract.Text.Split

namespace PageExtract.Ipv4

/-- The number of a part. -/
def number? : List Char → Option Nat
  | [] => none
  | '0' :: x :: ds =>
    if x == 'x' || x == 'X' then if ds.isEmpty then some 0 else Numeral.basedNat? 16 ds
    else Numeral.basedNat? 8 (x :: ds)
  | ds => Numeral.basedNat? 10 ds

/-- The parts of a name; an empty one at the end does not count, unless it is the only one. -/
def parts (name : List Char) : List (List Char) :=
  let ps := Text.splitOn '.' name
  if 1 < ps.length && ps.getLast? == some [] then ps.dropLast else ps

/-- Whether the last part of a name is a number, or looks like one. -/
def endsInNumber (name : List Char) : Bool :=
  match (parts name).getLast? with
  | some p => (!p.isEmpty && p.all Char.isDigit) || (number? p).isSome
  | none => false

/-- The value of numbers that fill some bytes: one byte each, and the last all that are left. -/
def combine? : Nat → List Nat → Option Nat
  | size, [n] => if n < Nat.pow 256 size then some n else none
  | size + 1, n :: ns =>
    if n < 256 then (combine? size ns).map (n * Nat.pow 256 size + ·) else none
  | _, _ => none

/-- The value of an address. -/
def parse? (name : List Char) : Option Nat := do
  let ns ← (parts name).mapM number?
  if ns.length ≤ 4 then combine? 4 ns else none

/-- An address as four decimal numbers. -/
def text (value : Nat) : List Char :=
  let byte (i : Nat) := Nat.toDigits 10 (value / Nat.pow 256 i % 256)
  ['.'].intercalate [byte 3, byte 2, byte 1, byte 0]

end PageExtract.Ipv4

namespace PageExtract.Ipv6

/-- A part of up to four digits. -/
def part? (ds : List Char) : Option Nat :=
  if 1 ≤ ds.length && ds.length ≤ 4 then Numeral.basedNat? 16 ds else none

/-- A decimal byte without a zero in front. -/
def byte? (ds : List Char) : Option Nat :=
  if ds.isEmpty || !ds.all Char.isDigit || (1 < ds.length && ds.head? == some '0') then none
  else
    let n := Numeral.natOfDigits ds
    if n < 256 then some n else none

/-- The two parts that four decimal bytes are. -/
def bytes? (cs : List Char) : Option (List Nat) :=
  match Text.splitOn '.' cs with
  | [a, b, c, d] => do
    return [256 * (← byte? a) + (← byte? b), 256 * (← byte? c) + (← byte? d)]
  | _ => none

/-- The parts of what is written between colons. Only at the end of an address are there bytes. -/
def pieces? (atEnd : Bool) : List (List Char) → Option (List Nat)
  | [] => some []
  | [p] => if atEnd && p.contains '.' then bytes? p else (part? p).map ([·])
  | p :: ps => do
    let n ← part? p
    return n :: (← pieces? atEnd ps)

/-- The parts of one side of two colons; a side may be empty. -/
def side? (atEnd : Bool) (cs : List Char) : Option (List Nat) :=
  if cs.isEmpty then some [] else pieces? atEnd (Text.splitOn ':' cs)

/-- The parts of an address. -/
def parse? (cs : List Char) : Option (List Nat) :=
  match Text.cutAt "::".toList cs with
  | some (left, right) => do
    let a ← side? false left
    let b ← side? true right
    let size := a.length + b.length
    if size < 8 then some (a ++ List.replicate (8 - size) 0 ++ b) else none
  | none => do
    let a ← pieces? true (Text.splitOn ':' cs)
    if a.length = 8 then some a else none

/-- The place and the length of the longest run of zeros, the first of equally long ones; `place`
counts the parts passed. -/
def zeroRun (place : Nat) : List Nat → Nat × Nat
  | [] => (place, 0)
  | n :: ns =>
    let here := ((n :: ns).takeWhile (· == 0)).length
    let later := zeroRun (place + 1) ns
    if here < later.2 then later else (place, here)

/-- Parts with colons between them. -/
def joined (parts : List Nat) : List Char := [':'].intercalate (parts.map (Nat.toDigits 16))

/-- The shortest form of an address. A single zero is written. -/
def text (parts : List Nat) : List Char :=
  let (place, size) := zeroRun 0 parts
  if size < 2 then joined parts
  else joined (parts.take place) ++ "::".toList ++ joined (parts.drop (place + size))

end PageExtract.Ipv6
