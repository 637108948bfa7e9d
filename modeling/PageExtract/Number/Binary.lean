/-
Double precision numbers as exact binary fractions.

A finite `Float` is an integer times a power of two. What is asked of it here is answered in
exact integer arithmetic on that pair and never by an approximate operation.

* `decode x` : sign, mantissa and exponent of a finite number;
* `toRat? x` : its value as a rational number;
* `ofDyadic n k` : the number `n / 2 ^ k`, rounded to nearest;
* `remainder x y` : what is left of `x` after taking away whole multiples of `y`, with the sign
  of `x`.
-/

namespace PageExtract.Binary

/-- A finite number `± mantissa · 2 ^ exponent`. -/
structure Parts where
  negative : Bool
  mantissa : Nat
  exponent : Int
deriving DecidableEq, Repr, Inhabited

/-- The parts of a finite number; infinities and what is not a number have none. -/
def decode (x : Float) : Option Parts :=
  let bits := x.toBits.toNat
  let negative := bits / Nat.pow 2 63 == 1
  let exponent : Nat := bits / Nat.pow 2 52 % Nat.pow 2 11
  let fraction := bits % Nat.pow 2 52
  if exponent == 2047 then none
  else if exponent == 0 then some ⟨negative, fraction, -1074⟩
  else some ⟨negative, Nat.pow 2 52 + fraction, (exponent : Int) - 1075⟩

/-- The absolute value of the parts, as a fraction. -/
def Parts.fraction (p : Parts) : Nat × Nat :=
  if 0 ≤ p.exponent then (p.mantissa * Nat.pow 2 p.exponent.toNat, 1)
  else (p.mantissa, Nat.pow 2 (-p.exponent).toNat)

/-- The value of the parts. -/
def Parts.toRat (p : Parts) : Rat :=
  let q := mkRat p.fraction.1 p.fraction.2
  if p.negative then -q else q

/-- The exact value of a finite number. -/
def toRat? (x : Float) : Option Rat := (decode x).map Parts.toRat

/-- The number nearest to `n / 2 ^ k`. -/
def ofDyadic (n : Int) (k : Nat) : Float :=
  let x := Float.ofScientific (n.natAbs * Nat.pow 5 k) true k
  if n < 0 then -x else x

/-- What is left of a finite `x` after taking away whole multiples of `y`: it has the sign of
`x` and is smaller than `y`. Nothing is taken away when `y` is infinite. -/
def remainder (x y : Float) : Float :=
  match decode x, decode y with
  | some p, some q =>
    if q.mantissa == 0 then 0.0 / 0.0
    else
      let e := min p.exponent q.exponent
      let r := (p.mantissa * Nat.pow 2 (p.exponent - e).toNat) %
        (q.mantissa * Nat.pow 2 (q.exponent - e).toNat)
      let size := if 0 ≤ e then Float.ofNat (r * Nat.pow 2 e.toNat) else ofDyadic r (-e).toNat
      if p.negative then -size else size
  | some _, none => if y.isNaN then y else x
  | none, _ => 0.0 / 0.0

end PageExtract.Binary
