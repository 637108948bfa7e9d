/-
The numbers of layouts and data.

Coordinates and plain values are numbers of a type `ν`. The program runs on doubles; the same
definitions run on rational numbers, where no rounding takes place. `Numeric ν` lists what they
need: arithmetic, order, an exact value, a remainder, powers of ten and a spelling.

* instances for `Float` and `Rat`;
* `least`, `greatest`, `clampUnit` : extremes of a non-empty list, and the nearest point of [0, 1];
* `floor`, `truncate`, `roundHalfUp` : the neighbouring integers;
* `placed` : a number with a fixed number of decimal places;
* `flooredMod`, `roundHalfEven` : the remainder and the rounding of the rule language.
-/
import PageExtract.Number.Power
import PageExtract.Number.Shortest

namespace PageExtract

/-- What layouts and data ask of their numbers. -/
class Numeric (ν : Type) extends Add ν, Sub ν, Mul ν, Div ν, Neg ν, BEq ν, LT ν, LE ν,
    OfScientific ν where
  decLt : DecidableLT ν
  decLe : DecidableLE ν
  /-- The exact value of a finite number. -/
  exact : ν → Option Rat
  /-- The number nearest to an integer. -/
  ofInt : Int → ν
  /-- What is left after taking away whole multiples, with the sign of the first number. -/
  rem : ν → ν → ν
  /-- Ten to the power of a number. -/
  tenTo : ν → ν
  /-- How the number is written. -/
  text : ν → String

attribute [reducible, instance] Numeric.decLt Numeric.decLe

namespace Numeric

instance : Numeric Float where
  decLt := inferInstance
  decLe := inferInstance
  exact := Binary.toRat?
  ofInt := Float.ofInt
  rem := Binary.remainder
  tenTo := Power.tenTo
  text := Shortest.floatText

/-- Integers are written in digits, other rational numbers as a fraction. -/
def ratText (q : Rat) : String :=
  if q.den == 1 then toString q.num else toString q.num ++ "/" ++ toString q.den

/-- The integer a rational number leads to when its fraction is dropped. -/
def ratTruncate (q : Rat) : Int := q.num.tdiv q.den

instance : Numeric Rat where
  decLt := inferInstance
  decLe := inferInstance
  exact := some
  ofInt n := n
  rem x y := x - y * ratTruncate (x / y)
  tenTo q := 10 ^ q.floor
  text := ratText

variable {ν : Type} [Numeric ν]

/-- The number nearest to a natural number. -/
def ofNat (n : Nat) : ν := ofInt n

/-- Whether a number is finite. -/
def isFinite (x : ν) : Bool := (exact x).isSome

/-- Whether a number is a whole number. -/
def isInteger (x : ν) : Bool :=
  match exact x with
  | some q => q.den == 1
  | none => false

/-- The natural number below a number; zero for negative and for infinite ones. -/
def toNat (x : ν) : Nat :=
  match exact x with
  | some q => q.floor.toNat
  | none => 0

/-- The largest whole number not above `x`. -/
def floor (x : ν) : ν :=
  match exact x with
  | some q => ofInt q.floor
  | none => x

/-- `x` without its fraction. -/
def truncate (x : ν) : ν :=
  match exact x with
  | some q => ofInt (ratTruncate q)
  | none => x

/-- The nearest whole number, a half upwards. -/
def roundHalfUp (x : ν) : ν :=
  match exact x with
  | some q => ofInt (q + 1 / 2).floor
  | none => x

/-- The absolute value. -/
def abs (x : ν) : ν := if x < 0.0 then -x else x

/-- The smaller of two numbers; what is not a number spreads. -/
def lesser (x y : ν) : ν := if y < x || !(y == y) then y else x

/-- The larger of two numbers; what is not a number spreads. -/
def greater (x y : ν) : ν := if x < y || !(y == y) then y else x

/-- The least of a non-empty list. -/
def least (x : ν) (xs : List ν) : ν := xs.foldl lesser x

/-- The greatest of a non-empty list. -/
def greatest (x : ν) (xs : List ν) : ν := xs.foldl greater x

/-- The nearest point of the unit interval. -/
def clampUnit (x : ν) : ν := lesser 1.0 (greater 0.0 x)

/-- A number with a fixed number of decimal places; one of at least 10²¹ is written as numbers
are. -/
def placed (places : Nat) (x : ν) : String :=
  match exact x with
  | some q => if q.num.natAbs < Nat.pow 10 21 * q.den then Shortest.fixed places q else text x
  | none => text x

/-- The remainder that has the sign of the divisor. -/
def flooredMod (x y : ν) : ν := rem (rem x y + y) y

/-- Rounds to a number of decimal digits. A number within 1e-9 of a half goes to the even
neighbour and any other to the nearest. -/
def roundHalfEven (x digits : ν) : ν :=
  let factor := tenTo digits
  let scaled := x * factor
  let low := floor scaled
  let r :=
    if abs (scaled - low - 0.5) < 1e-9 then
      if rem low 2.0 == 0.0 then low else low + 1.0
    else roundHalfUp scaled
  r / factor

end Numeric

end PageExtract
