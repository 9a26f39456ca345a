import GateNetwork.Decimal.Dyadic

/-!
# Shortest decimal text

The text of a double is the shortest decimal that reads back as the same double, and of the
shortest ones the nearest, written without an exponent. Decimals are searched grid by grid, from
coarse to fine: the first grid on which one of the two neighbours of the number lies in its rounding
interval wins, the nearer neighbour wins on that grid, and of two equally near ones the larger.
-/

namespace GateNetwork

/-- The number `digits * 10^exponent`. -/
structure Decimal where
  /-- The digits, as a whole number. -/
  digits : Nat
  /-- The power of ten that the digits are multiplied by. -/
  exponent : Int
deriving DecidableEq

namespace Decimal

/-- Moves trailing zeros of the digits into the exponent; `fuel` bounds their number. -/
def trim : Nat → Decimal → Decimal
  | 0, d => d
  | fuel + 1, d =>
    if d.digits % 10 = 0 then trim fuel ⟨d.digits / 10, d.exponent + 1⟩ else d

/-- A text of `count` zeros. -/
def zeros (count : Nat) : String := String.ofList (List.replicate count '0')

/-- The decimal without an exponent, with a point only where there are digits behind it. -/
def positional (d : Decimal) : String :=
  if 0 ≤ d.exponent then
    toString d.digits ++ zeros d.exponent.toNat
  else
    let text := toString d.digits
    let places := d.exponent.natAbs
    if text.length ≤ places then
      "0." ++ zeros (places - text.length) ++ text
    else
      let whole := text.length - places
      String.ofList (text.toList.take whole) ++ "." ++ String.ofList (text.toList.drop whole)

end Decimal

/-- A number `mantissa * 2^exponent` with the reals that round to it. All three bounds are counted
in quarters of the last mantissa bit: the number itself is `4 * mantissa` quarters. -/
structure RoundingInterval where
  /-- The lower end, in quarters. -/
  low : Nat
  /-- The number itself, in quarters. -/
  mid : Nat
  /-- The upper end, in quarters. -/
  high : Nat
  /-- The power of two that a quarter stands for. -/
  exponent : Int
  /-- Whether the two ends round to the number too. -/
  closed : Bool

namespace RoundingInterval

/-- The interval of a positive finite double. Below a power of two doubles lie twice as dense, so
there the lower end is nearer; halves go to the even mantissa, so the ends belong to the number iff
its mantissa is even. -/
def ofDyadic (d : Dyadic) : RoundingInterval :=
  let m := d.mantissa
  let nearBelow := m = Dyadic.hiddenBit ∧ Dyadic.minExponent < d.exponent
  { low := 4 * m - (if nearBelow then 1 else 2)
    mid := 4 * m
    high := 4 * m + 2
    exponent := d.exponent - 2
    closed := m % 2 = 0 }

/-- A number of quarters, brought to the common unit of the quarters and the grid `10^place`. -/
def ofQuarters (r : RoundingInterval) (place : Int) (quarters : Nat) : Nat :=
  quarters * twoPow r.exponent.toNat * tenPow (-place).toNat

/-- A number of grid steps `10^place`, brought to the same unit. -/
def ofSteps (r : RoundingInterval) (place : Int) (steps : Nat) : Nat :=
  steps * tenPow place.toNat * twoPow (-r.exponent).toNat

/-- Whether a point of the grid `10^place` rounds to the number. -/
def admits (r : RoundingInterval) (place : Int) (steps : Nat) : Bool :=
  let point := r.ofSteps place steps
  let low := r.ofQuarters place r.low
  let high := r.ofQuarters place r.high
  if r.closed then low ≤ point && point ≤ high else low < point && point < high

/-- The nearer of the number's two neighbours on the grid `10^place`, if one of them rounds to it.
-/
def onGrid? (r : RoundingInterval) (place : Int) : Option Nat :=
  let mid := r.ofQuarters place r.mid
  let step := r.ofSteps place 1
  let below := mid / step
  match r.admits place below, r.admits place (below + 1) with
  | true, true => some (if 2 * (mid % step) < step then below else below + 1)
  | true, false => some below
  | false, true => some (below + 1)
  | false, false => none

/-- The first grid at or below `10^place`, at most `fuel` of them, on which a point rounds to the
number. -/
def search (r : RoundingInterval) : Nat → Int → Decimal
  | 0, place => ⟨r.ofQuarters place r.mid / r.ofSteps place 1, place⟩
  | fuel + 1, place =>
    match r.onGrid? place with
    | some steps => ⟨steps, place⟩
    | none => search r fuel (place - 1)

/-- A power of ten that lies above the number: four tenths of its binary length, rounded up. -/
def topPlace (r : RoundingInterval) : Int :=
  ((r.mid.log2 : Int) + r.exponent) * 1234 / 4096 + 2

/-- The shortest decimal of the number. Seventeen digits always suffice; the start lies at most a
few places above the first. -/
def shortest (r : RoundingInterval) : Decimal := (r.search 24 r.topPlace).trim 24

end RoundingInterval

/-- The shortest decimal that reads back as the given positive number, the nearest of those. -/
def Dyadic.shortest (d : Dyadic) : Decimal :=
  if d.mantissa = 0 then ⟨0, 0⟩ else (RoundingInterval.ofDyadic d).shortest

/-- The shortest text of a value: never an exponent, a minus also for negative zero, and `NaN`
without a sign. -/
def DoubleValue.shortestText : DoubleValue → String
  | .nan => "NaN"
  | .infinite negative => if negative then "-inf" else "inf"
  | .finite d => (if d.negative then "-" else "") ++ d.shortest.positional

/-- The shortest text of a double. -/
def shortestText (x : Float) : String := (DoubleValue.ofFloat x).shortestText

end GateNetwork
