/-
Numbers as text.

A number is written with the fewest decimal digits that read back as the same number; of two such
decimals the nearer one is taken, and of two equally near ones the even one. A number from 1e21 up
or below 1e-6 is written with an exponent, any other positionally.

* `shortest num den back` : the fewest digits of `num / den` that `back` accepts;
* `floatText x` : a double as text;
* `fixed places q` : a rational rounded to decimal places, a half away from zero;
* `layOut` : how digits and exponent become text.
-/
import PageExtract.Number.Binary
import PageExtract.Number.Numeral

namespace PageExtract.Shortest

/-- The digits of a natural number as text. -/
def natDigits (n : Nat) : List Char := Nat.toDigits 10 n

/-- The exponent `k` with `10 ^ (k - 1) ≤ num / den < 10 ^ k`, for a positive fraction. -/
def magnitude (num den : Nat) : Int :=
  if den ≤ num then (natDigits (num / den)).length
  else
    let j := (natDigits (den / num)).length
    if num * Nat.pow 10 (j - 1) == den then 2 - j else 1 - j

/-- The fraction `num / den` divided by `10 ^ e`, as a fraction. -/
def scaled (num den : Nat) (e : Int) : Nat × Nat :=
  if 0 ≤ e then (num, den * Nat.pow 10 e.toNat) else (num * Nat.pow 10 (-e).toNat, den)

/-- The two neighbours of `num / den` among the multiples of `10 ^ e`, the nearer one first; of
two equally near ones the even one is first. -/
def neighbours (num den : Nat) (e : Int) : List Decimal :=
  let (n, d) := scaled num den e
  let low := n / d
  let twice := 2 * (n % d)
  if twice < d || (twice == d && low % 2 == 0) then [⟨low, e⟩, ⟨low + 1, e⟩]
  else [⟨low + 1, e⟩, ⟨low, e⟩]

/-- The decimal of the fewest digits that `back` accepts, among the neighbours of a positive
fraction on the grids of one to seventeen digits. -/
def shortest (num den : Nat) (back : Decimal → Bool) : Option Decimal :=
  let k := magnitude num den
  (List.range 17).findSome? fun n : Nat => (neighbours num den (k - ((n : Int) + 1))).find? back

/-- Drops trailing zeros from digits. -/
def dropZeros (ds : List Char) : List Char := (ds.reverse.dropWhile (· == '0')).reverse

/-- Digits `d₁d₂…` with the value `0.d₁d₂… · 10 ^ point` as text. -/
def layOut (ds : List Char) (point : Int) : List Char :=
  let n : Int := ds.length
  if n ≤ point ∧ point ≤ 21 then ds ++ List.replicate (point - n).toNat '0'
  else if 0 < point ∧ point ≤ 21 then ds.take point.toNat ++ '.' :: ds.drop point.toNat
  else if -6 < point ∧ point ≤ 0 then '0' :: '.' :: List.replicate (-point).toNat '0' ++ ds
  else
    let e := point - 1
    let mark := if e < 0 then ['e', '-'] else ['e', '+']
    let tail := mark ++ natDigits e.natAbs
    match ds with
    | d :: [] => d :: tail
    | d :: more => d :: '.' :: more ++ tail
    | [] => tail

/-- A positive decimal as text. -/
def decimalText (d : Decimal) : List Char :=
  let all := natDigits d.digits
  layOut (dropZeros all) (all.length + d.exponent)

/-- A double as text; zero has no sign. -/
def floatText (x : Float) : String :=
  match Binary.decode x with
  | none => if x.isNaN then "NaN" else if x < 0 then "-Infinity" else "Infinity"
  | some p =>
    if p.mantissa == 0 then "0"
    else
      let (num, den) := p.fraction
      let size := x.abs
      let body := match shortest num den fun d => d.toFloat == size with
        | some d => decimalText d
        | none => natDigits (num / den)
      String.ofList (if p.negative then '-' :: body else body)

/-- The fraction `num / den` rounded to units of `10 ^ (-places)`, a half upwards. -/
def roundPlaces (places num den : Nat) : Nat :=
  (2 * Nat.pow 10 places * num + den) / (2 * den)

/-- A natural number of units of `10 ^ (-places)` as text. -/
def placesText (places n : Nat) : List Char :=
  let fraction := natDigits (n % Nat.pow 10 places)
  natDigits (n / Nat.pow 10 places) ++ '.' ::
    (List.replicate (places - fraction.length) '0' ++ fraction)

/-- A rational number rounded to a number of decimal places, a half away from zero. A negative
number keeps its sign even when nothing else of it is left. -/
def fixed (places : Nat) (q : Rat) : String :=
  let body := placesText places (roundPlaces places q.num.natAbs q.den)
  String.ofList (if q < 0 then '-' :: body else body)

end PageExtract.Shortest
