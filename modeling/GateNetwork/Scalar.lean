/-!
# Scalars

A network can be contracted over any type with a zero, a one, sums, products and a conjugation. The
definitions assume no law of these operations, so what is said of them bit by bit holds over
floating point too, and what needs the laws of a ring is said over rings.

Measured quantities (squared norms, overlaps) live in a type of their own, `ρ`, which the type of
the scalars determines.
-/

namespace GateNetwork

/-- Conjugation of scalars. -/
class Conj (α : Type) where
  /-- The conjugate of a scalar. -/
  conj : α → α

export Conj (conj)

/-- The size of a scalar, measured in `ρ`. -/
class Magnitude (α : Type) (ρ : outParam Type) where
  /-- The squared modulus. -/
  normSq : α → ρ
  /-- The modulus. -/
  modulus : α → ρ

export Magnitude (normSq modulus)

/-- A test whether two scalars are as good as equal. -/
class Close (α : Type) where
  /-- Whether the first scalar lies within the tolerance of the second. -/
  close : α → α → Bool

export Close (close)

/-- Scalars in which the named gates can be written: they are put together from a real and an
imaginary part, and the real parts include the numbers that gates are made of. -/
class GateScalar (α : Type) (ρ : outParam Type) where
  /-- The scalar with the given real and imaginary part. -/
  ofParts : ρ → ρ → α
  /-- One over the square root of two. -/
  invSqrtTwo : ρ
  /-- Cosine of an angle in radians. -/
  cos : Float → ρ
  /-- Sine of an angle in radians. -/
  sin : Float → ρ

/-- Scalars whose products can be added to a total in one operation, which may round less often than
a product and a sum. -/
class MulAdd (α : Type) where
  /-- The third scalar plus the product of the first two. -/
  mulAdd : α → α → α → α

export MulAdd (mulAdd)

/-- Without an operation of its own, a product is formed and then added. -/
instance (priority := low) {α : Type} [Add α] [Mul α] : MulAdd α := ⟨fun a b total => total + a * b⟩

/-- The sum of a list, added up from zero in list order. -/
def sumFrom {α : Type} [Zero α] [Add α] (xs : List α) : α := xs.foldl (· + ·) 0

/-- The sum of the squared moduli of a vector, added up from zero in index order. -/
def normSqOf {α ρ : Type} [Magnitude α ρ] [Zero ρ] [Add ρ] (v : Array α) : ρ :=
  v.foldl (fun total a => total + normSq a) 0

/-- The sum of the squared moduli of a vector as several workers may add it up: each half on its own.
A sum in parallel is not tied to one order, so floating point may round it differently from run to
run; this is one of the orders it may take. -/
def normSqByHalves {α ρ : Type} [Magnitude α ρ] [Zero ρ] [Add ρ] (v : Array α) : ρ :=
  let middle := v.size / 2
  normSqOf (v.extract 0 middle) + normSqOf (v.extract middle v.size)

end GateNetwork
