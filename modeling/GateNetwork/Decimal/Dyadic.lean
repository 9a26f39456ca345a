import GateNetwork.Power

/-!
# Double-precision numbers as exact dyadics

A finite double is a sign, a whole mantissa `m` and a power of two `2^q`. Everything that is printed
or rounded exactly is computed on `m` and `q`, in whole numbers.
-/

namespace GateNetwork

/-- The number `mantissa * 2^exponent`, with a sign that zero has too. -/
structure Dyadic where
  /-- Whether the sign is a minus. -/
  negative : Bool
  /-- The whole mantissa, without its sign. -/
  mantissa : Nat
  /-- The power of two that the mantissa is multiplied by. -/
  exponent : Int
deriving DecidableEq

/-- What a double stands for. -/
inductive DoubleValue where
  /-- Not a number. -/
  | nan
  /-- An infinity with its sign. -/
  | infinite (negative : Bool)
  /-- A finite number. -/
  | finite (value : Dyadic)
deriving DecidableEq

namespace Dyadic

/-- The least exponent of a double. -/
def minExponent : Int := -1074

/-- One more than the largest mantissa of a subnormal double. -/
def hiddenBit : Nat := twoPow 52

/-- The quotient rounded to the nearest whole number, a half to the even neighbour. -/
def roundHalfEven (num den : Nat) : Nat :=
  let q := num / den
  let r := num % den
  if 2 * r < den then q
  else if den < 2 * r then q + 1
  else q + q % 2

end Dyadic

/-- Reads the sign, the exponent field and the mantissa field of a double. -/
def DoubleValue.ofBits (bits : UInt64) : DoubleValue :=
  let negative := bits >>> 63 != 0
  let field := ((bits >>> 52) % 2048).toNat
  let fraction := (bits % 4503599627370496).toNat
  if field = 2047 then
    if fraction = 0 then .infinite negative else .nan
  else if field = 0 then .finite ⟨negative, fraction, Dyadic.minExponent⟩
  else .finite ⟨negative, fraction + Dyadic.hiddenBit, field - 1 + Dyadic.minExponent⟩

/-- What the given double stands for. -/
def DoubleValue.ofFloat (x : Float) : DoubleValue := .ofBits x.toBits

end GateNetwork
