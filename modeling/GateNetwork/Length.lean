/-!
# The length of a vector in double precision

The length of `(x, y)` is the square root of `x^2 + y^2`. A square root of rounded squares can be
off by more than the last bit, so it is improved by one Newton step, whose correction is computed
from small differences. The coordinates are brought near one first where their squares would
overflow or lose bits, and the shorter one is only added where it is too short to count.
-/

namespace GateNetwork

namespace Length

/-- Two to the power `n`. -/
def power (n : Int) : Float := (1 : Float).scaleB n

/-- The excess `h^2 - (a^2 + b^2)` of an estimate `h` of the length of `(a, b)`, where
`0 ≤ b ≤ a`. The estimate is replaced by its small difference from `b` or from `a`, so that the
large squares cancel before anything is rounded. -/
def excess (a b h : Float) : Float :=
  if h ≤ 2 * b then
    let d := h - b
    a * (2 * d - a) + (d - 2 * (a - b)) * d
  else
    let d := h - a
    2 * d * (a - 2 * b) + ((4 * d - b) * b + d * d)

/-- The length of `(a, b)`, where `0 ≤ b ≤ a` and the squares lie well within range: an estimate
and one Newton step. -/
def improved (a b : Float) : Float :=
  let h := (a * a + b * b).sqrt
  h - excess a b h / (2 * h)

/-- The length of `(a, b)` as `improved` gives it for both coordinates times `2^n`. -/
def scaled (n : Int) (a b : Float) : Float := improved (a * power n) (b * power n) * power (-n)

/-- The length of `(a, b)`, where `0 ≤ b ≤ a` and both are finite. -/
def ofOrdered (a b : Float) : Float :=
  if b * power 54 ≤ a then a + b
  else if power 511 < a then scaled (-600) a b
  else if b < power (-459) then scaled 600 a b
  else improved a b

end Length

/-- The length of the vector `(x, y)`. An infinite coordinate makes it infinite, whatever the other
one is; otherwise a coordinate that is not a number makes it not a number. -/
def length (x y : Float) : Float :=
  if x.isInf || y.isInf then Float.ofBits 0x7FF0000000000000
  else if x.isNaN || y.isNaN then x + y
  else
    let a := x.abs
    let b := y.abs
    if a < b then Length.ofOrdered b a else Length.ofOrdered a b

end GateNetwork
