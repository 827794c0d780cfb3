import Eigenmesh.Decimal.Reading
import Eigenmesh.Decimal.Shortest
import Eigenmesh.Scalar

/-!
Doubles as scalars.
-/

namespace Eigenmesh.Double

/-- A key that orders all doubles: negative ones below positive ones, minus zero below zero,
and what is not a number at the end that its sign says. -/
def rank (x : Float) : Int :=
  let bits := x.toBits.toNat
  if bits < Nat.pow 2 63 then bits else -(bits - Nat.pow 2 63 : Int) - 1

/-- The hypotenuse over the legs `a ≥ b ≥ 0`, whose squares are to be neither too large nor too
small. The root `h` of the rounded sum of squares is taken one Newton step further: with `d`
what `h` exceeds a leg by, `h * h - a * a - b * b` is written as a sum of products that are all
small, so that what is left of it after rounding is right. -/
def hypotenuse (a b : Float) : Float :=
  let h := (a * a + b * b).sqrt
  let excess :=
    if h ≤ 2.0 * b then
      let d := h - b
      a * (2.0 * d - a) + (d - 2.0 * (a - b)) * d
    else
      let d := h - a
      2.0 * d * (a - 2.0 * b) + ((4.0 * d - b) * b + d * d)
  h - excess / (2.0 * h)

/-- The length of the vector `(x, y)`. It is infinite as soon as one coordinate is, whatever the
other one is. A leg below the last place of the other one only adds its rounding, and legs
whose squares would leave the range of doubles are scaled by a power of two, which is exact. -/
def hypot (x y : Float) : Float :=
  let x := x.abs
  let y := y.abs
  let a := if x < y then y else x
  let b := if x < y then x else y
  let unit := Float.scaleB 1.0 (-600)
  let last := Float.scaleB 1.0 (-54)
  if !x.isFinite || !y.isFinite then
    if x.isInf || y.isInf then 1.0 / 0.0 else x + y
  else if Float.scaleB 1.0 511 < a then
    if b ≤ a * last then a + b else hypotenuse (a * unit) (b * unit) / unit
  else if b < Float.scaleB 1.0 (-459) then
    if b / last ≤ a then a + b else hypotenuse (a / unit) (b / unit) * unit
  else if b ≤ a * last then a + b
  else hypotenuse a b

end Double

instance : Scalar Float where
  zero := 0.0
  one := 1.0
  natCast := Float.ofNat
  decidableLT := inferInstance
  decidableLE := inferInstance
  abs := Float.abs
  sqrt := Float.sqrt
  hypot := Double.hypot
  isFinite := Float.isFinite
  ranks a b := decide (Double.rank a ≤ Double.rank b)
  text := Decimal.shortestText
  read? := Decimal.float?

end Eigenmesh
