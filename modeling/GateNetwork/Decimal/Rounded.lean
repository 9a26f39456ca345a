import GateNetwork.Decimal.Shortest

/-!
# Rounded decimal text

Two texts with a fixed number of digits: so many places behind the point, and so many significant
digits with an exponent of ten. Both round the exact binary value, a half to the even digit.
-/

namespace GateNetwork

namespace Dyadic

/-- The size of the number times `10^shift`, as a quotient of whole numbers. -/
def scaled (d : Dyadic) (shift : Int) : Nat × Nat :=
  (d.mantissa * twoPow d.exponent.toNat * tenPow shift.toNat,
    twoPow (-d.exponent).toNat * tenPow (-shift).toNat)

/-- The size of the number rounded to `places` places behind the point, in units of the last
place. -/
def roundedTo (d : Dyadic) (places : Nat) : Nat :=
  let (num, den) := d.scaled places
  roundHalfEven num den

/-- The size of the number with exactly `places` places behind the point. -/
def fixedText (d : Dyadic) (places : Nat) : String :=
  let units := toString (d.roundedTo places)
  let padded := Decimal.zeros (places + 1 - units.length) ++ units
  let whole := padded.length - places
  let point := if places = 0 then "" else "."
  String.ofList (padded.toList.take whole) ++ point ++ String.ofList (padded.toList.drop whole)

/-- The power of ten of the leading digit, searched downwards from `place`, at most `fuel` steps. -/
def leadingPlace (d : Dyadic) : Nat → Int → Int
  | 0, place => place
  | fuel + 1, place =>
    let (num, den) := d.scaled (-place)
    if den ≤ num then place else leadingPlace d fuel (place - 1)

/-- The size of a positive number as one digit, a point, `places` digits and a power of ten.
Rounding up to a further digit moves the exponent. -/
def scientificText (d : Dyadic) (places : Nat) : String :=
  let top := ((d.mantissa.log2 : Int) + d.exponent) * 1234 / 4096 + 2
  let lead := d.leadingPlace 8 top
  let (num, den) := d.scaled ((places : Int) - lead)
  let units := roundHalfEven num den
  let (units, lead) :=
    if units = tenPow (places + 1) then (tenPow places, lead + 1) else (units, lead)
  let digits := (toString units).toList
  String.ofList (digits.take 1) ++ "." ++ String.ofList (digits.drop 1) ++ "e" ++ toString lead

end Dyadic

/-- The text of a double with `places` places behind the point; the sign is written also where the
digits are all zero. -/
def fixedText (x : Float) (places : Nat) : String :=
  match DoubleValue.ofFloat x with
  | .nan => "NaN"
  | .infinite negative => if negative then "-inf" else "inf"
  | .finite d => (if d.negative then "-" else "") ++ d.fixedText places

end GateNetwork
