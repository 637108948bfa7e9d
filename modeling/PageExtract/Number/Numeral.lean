/-
Decimal numerals.

An unsigned numeral is a whole part, a fraction or both, and possibly an exponent: `12`, `12.`,
`.5`, `1.5e-3`. Its value is kept as an integer times a power of ten until a number is asked for.

* `Numeral.scan? cs` : splits off the longest numeral at the front;
* `Numeral.read cs` : the decimal that a numeral writes;
* `Decimal.toFloat` : the double nearest to a decimal;
* `isSignedNumeral`, `isSignedInteger` : which texts are numbers as a whole;
* `Number.ofText` : the number a setting is written as, with based integers and infinities;
* `scan_append` : nothing is lost in splitting.
-/
import PageExtract.Text.Blank

namespace PageExtract

/-- The number `digits · 10 ^ exponent`. -/
structure Decimal where
  digits : Nat
  exponent : Int
deriving DecidableEq, Repr, Inhabited

/-- The double nearest to a decimal. A decimal beyond the range of doubles is infinite, and one
that is closer to zero than any of them is zero. -/
def Decimal.toFloat (d : Decimal) : Float :=
  let length : Int := (Nat.toDigits 10 d.digits).length
  if d.digits == 0 then 0.0
  else if length + d.exponent > 400 then 1.0 / 0.0
  else if length + d.exponent < -400 then 0.0
  else Float.ofScientific d.digits (d.exponent < 0) d.exponent.natAbs

namespace Numeral

/-- The value of a digit. -/
def digitValue (c : Char) : Nat := c.toNat - '0'.toNat

/-- The natural number a run of digits writes. -/
def natOfDigits (cs : List Char) : Nat := cs.foldl (fun n c => 10 * n + digitValue c) 0

/-- Splits off the leading digits. -/
def digits (cs : List Char) : List Char × List Char :=
  (cs.takeWhile Char.isDigit, cs.dropWhile Char.isDigit)

/-- Whether a character is an exponent mark. -/
def isExponentMark (c : Char) : Bool := c == 'e' || c == 'E'

/-- Whether a character is a sign. -/
def isSign (c : Char) : Bool := c == '+' || c == '-'

/-- Splits off an exponent: a mark, perhaps a sign, and at least one digit. -/
def scanExponent (cs : List Char) : List Char × List Char :=
  match cs with
  | m :: s :: rest =>
    if isExponentMark m then
      if isSign s then
        let (ds, rest') := digits rest
        if ds.isEmpty then ([], cs) else (m :: s :: ds, rest')
      else
        let (ds, rest') := digits (s :: rest)
        if ds.isEmpty then ([], cs) else (m :: ds, rest')
    else ([], cs)
  | _ => ([], cs)

/-- Splits off the longest unsigned numeral, if there is one. -/
def scan? (cs : List Char) : Option (List Char × List Char) :=
  let (whole, rest) := digits cs
  match whole, rest with
  | [], '.' :: rest' =>
    let (ds, rest'') := digits rest'
    if ds.isEmpty then none
    else
      let (ex, rest''') := scanExponent rest''
      some ('.' :: ds ++ ex, rest''')
  | [], _ => none
  | whole, '.' :: rest' =>
    let (ds, rest'') := digits rest'
    let (ex, rest''') := scanExponent rest''
    some (whole ++ '.' :: ds ++ ex, rest''')
  | whole, rest =>
    let (ex, rest') := scanExponent rest
    some (whole ++ ex, rest')

/-- The exponent an exponent part writes; no part writes zero. -/
def readExponent : List Char → Int
  | _ :: '-' :: ds => -(natOfDigits ds : Int)
  | _ :: '+' :: ds => natOfDigits ds
  | _ :: ds => natOfDigits ds
  | [] => 0

/-- The decimal that a numeral writes. -/
def read (cs : List Char) : Decimal :=
  let (whole, rest) := digits cs
  match rest with
  | '.' :: rest' =>
    let (ds, ex) := digits rest'
    ⟨natOfDigits (whole ++ ds), readExponent ex - ds.length⟩
  | ex => ⟨natOfDigits whole, readExponent ex⟩

/-- Splits off a sign; `true` says that it is a minus. -/
def sign : List Char → Bool × List Char
  | '-' :: cs => (true, cs)
  | '+' :: cs => (false, cs)
  | cs => (false, cs)

/-- Whether the whole text is a numeral, perhaps signed. -/
def isSignedNumeral (cs : List Char) : Bool :=
  match scan? (sign cs).2 with
  | some (_, []) => true
  | _ => false

/-- Whether the whole text is a run of digits, perhaps signed. -/
def isSignedInteger (cs : List Char) : Bool :=
  let ds := (sign cs).2
  !ds.isEmpty && ds.all Char.isDigit

/-- The double a signed numeral writes. -/
def toFloat (cs : List Char) : Float :=
  let (negative, ds) := sign cs
  let x := (read ds).toFloat
  if negative then -x else x

/-- The value of a digit in a base of at most sixteen. -/
def basedDigit? (base : Nat) (c : Char) : Option Nat :=
  let n := c.toNat
  let v :=
    if '0'.toNat ≤ n ∧ n ≤ '9'.toNat then n - '0'.toNat
    else if 'a'.toNat ≤ n ∧ n ≤ 'f'.toNat then n - 'a'.toNat + 10
    else if 'A'.toNat ≤ n ∧ n ≤ 'F'.toNat then n - 'A'.toNat + 10
    else 16
  if v < base then some v else none

/-- The natural number that digits of a base write; no digits write none. -/
def basedNat? (base : Nat) (cs : List Char) : Option Nat :=
  if cs.isEmpty then none
  else cs.foldl (fun n c => do return base * (← n) + (← basedDigit? base c)) (some 0)

/-- The number an integer of base sixteen, eight or two writes, marked by `0x`, `0o` or `0b`. -/
def basedFloat? : List Char → Option Float
  | '0' :: m :: cs =>
    if m == 'x' || m == 'X' then (basedNat? 16 cs).map Float.ofNat
    else if m == 'o' || m == 'O' then (basedNat? 8 cs).map Float.ofNat
    else if m == 'b' || m == 'B' then (basedNat? 2 cs).map Float.ofNat
    else none
  | _ => none

/-- The number a text writes, blank characters around it aside: a based integer, a signed
numeral or a signed `Infinity`. A blank text writes zero. -/
def ofText? (s : String) : Option Float :=
  let cs := Text.trimChars s.toList
  let (negative, body) := sign cs
  if cs.isEmpty then some 0.0
  else if body == "Infinity".toList then some (if negative then -(1.0 / 0.0) else 1.0 / 0.0)
  else if isSignedNumeral cs then some (toFloat cs)
  else basedFloat? cs

theorem digits_append (cs : List Char) : (digits cs).1 ++ (digits cs).2 = cs :=
  List.takeWhile_append_dropWhile

theorem scanExponent_append (cs : List Char) :
    (scanExponent cs).1 ++ (scanExponent cs).2 = cs := by
  unfold scanExponent
  split
  · rename_i m s rest
    split
    · split <;> simp only
      · split
        · rfl
        · simp [digits]
      · split
        · rfl
        · have := digits_append (s :: rest)
          simp only [List.cons_append, this]
    · rfl
  · rfl

/-- A numeral and what follows it make up the text again. -/
theorem scan_append {cs lexeme rest : List Char} (h : scan? cs = some (lexeme, rest)) :
    lexeme ++ rest = cs := by
  have hcs := digits_append cs
  unfold scan? at h
  simp only at h
  split at h
  · rename_i rest' hw hr
    rw [hw, hr] at hcs
    split at h
    · cases h
    · cases h
      have h1 := digits_append rest'
      have h2 := scanExponent_append (digits rest').2
      rw [← hcs, List.append_assoc, h2, List.cons_append, h1]; rfl
  · cases h
  · rename_i whole rest' hr _
    cases h
    rw [hr] at hcs
    have h1 := digits_append rest'
    have h2 := scanExponent_append (digits rest').2
    rw [List.append_assoc, List.append_assoc, List.cons_append, h2, h1, hcs]
  · cases h
    rw [List.append_assoc, scanExponent_append, hcs]

/-- A numeral has at least one character. -/
theorem ne_nil_of_scan {cs lexeme rest : List Char} (h : scan? cs = some (lexeme, rest)) :
    lexeme ≠ [] := by
  unfold scan? at h
  simp only at h
  split at h
  · split at h <;> cases h; simp
  · cases h
  · cases h; simp
  · rename_i hw _ _
    cases h
    exact fun e => hw (List.append_eq_nil_iff.1 e).1

/-- What follows a numeral is shorter than the text. -/
theorem length_lt_of_scan {cs lexeme rest : List Char} (h : scan? cs = some (lexeme, rest)) :
    rest.length < cs.length := by
  have hpos : 0 < lexeme.length := List.length_pos_iff.2 (ne_nil_of_scan h)
  have := congrArg List.length (scan_append h)
  rw [List.length_append] at this
  omega

end Numeral

end PageExtract
