/-
Powers of ten of double precision.

Ten to the power `y` is two to the power `y · log₂ 10`. The logarithm is kept as the sum of two
doubles, and so is the product; its nearest whole number becomes the exponent of the result and
the rest goes through a rational approximation of the exponential function. The result is within
one unit in the last place and is not always the nearest double: `1e-5` comes out one unit low.

* `head x` : `x` without the lower half of its bits;
* `exp2 main tail` : two to the power of a sum of two doubles;
* `tenTo y` : ten to the power `y`.
-/

namespace PageExtract.Power

/-- The number without the lower half of its bits. Two such numbers have an exact product. -/
def head (x : Float) : Float := Float.ofBits (x.toBits &&& 0xFFFFFFFF00000000)

/-- The leading part of the binary logarithm of ten. -/
def logMain : Float := Float.ofBits 0x400A934F00000000

/-- What the leading part lacks of the binary logarithm of ten. -/
def logTail : Float := Float.ofBits 0x3E72F346E2BF9206

/-- The natural logarithm of two. -/
def ln2 : Float := Float.ofBits 0x3FE62E42FEFA39EF

/-- The leading part of the natural logarithm of two. -/
def ln2Main : Float := Float.ofBits 0x3FE62E4300000000

/-- What the leading part lacks of the natural logarithm of two. -/
def ln2Tail : Float := Float.ofBits 0xBE205C610CA86C39

/-- The coefficients of the approximation of the exponential function, the lowest first. -/
def coefficients : List Float := [
  Float.ofBits 0x3FC555555555553E, Float.ofBits 0xBF66C16C16BEBD93,
  Float.ofBits 0x3F11566AAF25DE2C, Float.ofBits 0xBEBBBD41C5D26BF1,
  Float.ofBits 0x3E66376972BEA4D0]

/-- The value of a polynomial without a constant term. -/
def polynomial (cs : List Float) (t : Float) : Float := cs.foldr (fun c r => t * (c + r)) 0.0

/-- The exponential function of a small `z + w`, where `w` is what `z` lacks of the argument. -/
def smallExp (z w : Float) : Float :=
  let t1 := z - polynomial coefficients (z * z)
  let r := (z * t1) / ((t1 - 2.0) - (w + z * w))
  1.0 - (r - z)

/-- The whole number that is split off an exponent. -/
def wholePart (z : Float) : Int :=
  let size := head z.abs
  if size ≤ 0.5 then 0
  else
    let n := (size + 0.5).floor.toInt64.toInt
    if z < 0.0 then -n else n

/-- Two to the power `main + tail`, for an exponent within the range of doubles. -/
def exp2 (main tail : Float) : Float :=
  let n := wholePart (tail + main)
  let fraction := main - Float.ofInt n
  let t := head (tail + fraction)
  let u := t * ln2Main
  let v := (tail - (t - fraction)) * ln2 + t * ln2Tail
  let z := u + v
  (smallExp z (v - (z - u))).scaleB n

/-- Half a unit in the last place of an exponent of 1024, by which the largest results may be
exceeded. -/
def overflowSlack : Float := 8.0085662595372944372e-17

/-- Ten to the power of a number. -/
def tenTo (y : Float) : Float :=
  if y == 0.0 then 1.0
  else if y == 1.0 then 10.0
  else if y == -1.0 then 0.1
  else if y == 2.0 then 100.0
  else if y == 0.5 then (10.0 : Float).sqrt
  else if 2147483648.0 < y.abs then
    if y < 0.0 then 0.0 else 1.0 / 0.0
  else
    let main := head y * logMain
    let tail := (y - head y) * logMain + y * logTail
    let z := tail + main
    if 1024.0 < z || (z == 1024.0 && z - main < tail + overflowSlack) then 1.0 / 0.0
    else if z < -1075.0 || (z == -1075.0 && tail ≤ z - main) then 0.0
    else if y.isNaN then y
    else exp2 main tail

end PageExtract.Power
