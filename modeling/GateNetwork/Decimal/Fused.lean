import GateNetwork.Decimal.Dyadic

/-!
# Products added without a rounding in between

`fusedMulAdd x y z` is the double nearest to `x * y + z`: the product and the sum are exact, on
whole numbers, and only the result is rounded.
-/

namespace GateNetwork

namespace Dyadic

/-- The exact product. -/
def mul (a b : Dyadic) : Dyadic :=
  ⟨a.negative != b.negative, a.mantissa * b.mantissa, a.exponent + b.exponent⟩

/-- The mantissa with its sign, when the exponent is lowered to `exponent`. -/
def mantissaAt (d : Dyadic) (exponent : Int) : Int :=
  let size := d.mantissa <<< (d.exponent - exponent).toNat
  if d.negative then -size else size

/-- The exact sum, a zero without a minus. -/
def add (a b : Dyadic) : Dyadic :=
  let exponent := min a.exponent b.exponent
  let total := a.mantissaAt exponent + b.mantissaAt exponent
  ⟨total < 0, total.natAbs, exponent⟩

/-- The bits of the double nearest to a number without its sign, ties to the even mantissa. Numbers
beyond the range become infinite. -/
def nearestBits (d : Dyadic) : Nat :=
  if d.mantissa = 0 then 0 else
    let drop := max ((d.mantissa.log2 : Int) - 52) (minExponent - d.exponent)
    let kept :=
      if drop ≤ 0 then d.mantissa <<< drop.natAbs
      else roundHalfEven d.mantissa (1 <<< drop.toNat)
    let place := (d.exponent + drop - minExponent).toNat
    min (place * hiddenBit + kept) (2047 * hiddenBit)

/-- The double nearest to a number. -/
def toFloat (d : Dyadic) : Float :=
  let size := Float.ofBits (UInt64.ofNat d.nearestBits)
  if d.negative then -size else size

end Dyadic

/-- The double nearest to `x * y + z`. Where a factor is zero or not finite, or the sum vanishes,
there is nothing to round in between. -/
def fusedMulAdd (x y z : Float) : Float :=
  if x == 0 || y == 0 then x * y + z
  else
    match DoubleValue.ofFloat x, DoubleValue.ofFloat y, DoubleValue.ofFloat z with
    | .finite a, .finite b, .finite c =>
      let total := (a.mul b).add c
      if total.mantissa = 0 then x * y + z else total.toFloat
    | .finite _, .finite _, _ => z
    | _, _, _ => x * y + z

end GateNetwork
