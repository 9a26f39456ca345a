import GateNetwork.Decimal.Fused
import GateNetwork.Decimal.Shortest
import GateNetwork.Length
import GateNetwork.Scalar

/-!
# Amplitudes in double precision

The scalars that the program computes with: pairs of doubles. Products are the four-multiplication
formula, with no shortcut for zeros, and sums are taken part by part, so every result is fixed to
the last bit by the order of the operations. A matrix product adds the four products of parts
without rounding them first.
-/

namespace GateNetwork

/-- A complex number in double precision. -/
structure Amplitude where
  /-- The real part. -/
  re : Float
  /-- The imaginary part. -/
  im : Float
deriving Inhabited

namespace Amplitude

instance : Zero Amplitude := ⟨⟨0, 0⟩⟩

instance : One Amplitude := ⟨⟨1, 0⟩⟩

instance : Add Amplitude := ⟨fun a b => ⟨a.re + b.re, a.im + b.im⟩⟩

instance : Neg Amplitude := ⟨fun a => ⟨-a.re, -a.im⟩⟩

instance : Mul Amplitude :=
  ⟨fun a b => ⟨a.re * b.re - a.im * b.im, a.re * b.im + a.im * b.re⟩⟩

/-- The products of the parts are added one at a time, the ones with the real part of `a` first, and
none of them is rounded on its own. -/
instance : MulAdd Amplitude :=
  ⟨fun a b total =>
    ⟨fusedMulAdd (-a.im) b.im (fusedMulAdd a.re b.re total.re),
      fusedMulAdd a.im b.re (fusedMulAdd a.re b.im total.im)⟩⟩

instance : Conj Amplitude := ⟨fun a => ⟨a.re, -a.im⟩⟩

instance : Magnitude Amplitude Float where
  normSq a := a.re * a.re + a.im * a.im
  modulus a := length a.re a.im

instance : GateScalar Amplitude Float where
  ofParts re im := ⟨re, im⟩
  invSqrtTwo := Float.ofBits 0x3FE6A09E667F3BCD
  cos := Float.cos
  sin := Float.sin

/-- The largest difference that counts as none. -/
def tolerance : Float := 1e-10

instance : Close Float := ⟨fun a b => (a - b).abs < tolerance⟩

/-- Amplitudes are close when both their parts are. -/
instance : Close Amplitude := ⟨fun a b => close a.re b.re && close a.im b.im⟩

/-- Equality of both parts as numbers: a zero equals a negative zero, and what is not a number
equals nothing. -/
instance : BEq Amplitude := ⟨fun a b => a.re == b.re && a.im == b.im⟩

/-- Whether a part is written with a minus: negative zero is not, nor what is not a number. -/
def isBelowZero (x : Float) : Bool := x < 0

/-- The text of a part without its minus. -/
def magnitudeText (x : Float) : String :=
  shortestText (if isBelowZero x then 0 - x else x)

/-- The text `re+imi`, each part in its shortest form, with a minus in the place of the plus where
the imaginary part is below zero. -/
def text (a : Amplitude) : String :=
  (if isBelowZero a.re then "-" else "") ++ magnitudeText a.re ++
    (if isBelowZero a.im then "-" else "+") ++ magnitudeText a.im ++ "i"

/-- A vector as text: one amplitude per line, in index order, each line ended. -/
def linesText (v : Array Amplitude) : String := String.join (v.toList.map fun a => a.text ++ "\n")

end Amplitude

end GateNetwork
