import GateNetwork.Decimal.Rounded
import GateNetwork.Error
import GateNetwork.Outcome
import GateNetwork.Tensor

/-!
# Gates

A gate is a named matrix on so many qubits, with the claim that it is unitary or not. Row and column
indices have one bit per qubit, the first qubit of the gate being the lowest bit.
-/

namespace GateNetwork

/-- A gate. -/
structure Gate (α : Type) where
  /-- The name shown in messages. -/
  name : String
  /-- The number of qubits that the gate acts on. -/
  qubits : Nat
  /-- The matrix: rows are outputs, columns inputs. -/
  matrix : Tensor α
  /-- Whether the gate counts as unitary. -/
  isUnitary : Bool

/-- The table with the entries `a b` in its first and `c d` in its second row. -/
def Tensor.ofFour {α : Type} (a b c d : α) : Tensor α := ⟨2, 2, #[a, b, c, d], rfl⟩

namespace Gate

variable {α ρ : Type}

/-- The matrix of the inverse gate, if the gate is unitary. -/
def adjointMatrix [Conj α] (g : Gate α) : Tensor α := g.matrix.adjoint

/-- A gate given by its matrix, which must be square with a side `2^k` and `k` positive. It counts
as unitary if its matrix is, up to the tolerance of the scalars. -/
def ofMatrix [Zero α] [One α] [MulAdd α] [Conj α] [Close α] (name : String)
    (matrix : Tensor α) : Except Error (Gate α) :=
  if matrix.hasGateShape && 2 ≤ matrix.rows then
    .ok ⟨name, matrix.rows.log2, matrix, matrix.isUnitary⟩
  else .error (.invalid (.gateShape matrix.rows matrix.cols))

section Fixed

variable [Zero α] [One α]

/-- The negation gate. -/
def x : Gate α := ⟨"X", 1, .ofFour 0 1 1 0, true⟩

/-- The gate that exchanges two qubits. -/
def swap : Gate α :=
  ⟨"SWAP", 2, ⟨4, 4, #[1, 0, 0, 0, 0, 0, 1, 0, 0, 1, 0, 0, 0, 0, 0, 1], rfl⟩, true⟩

/-- The projector onto an outcome, which is not unitary. -/
def projector (o : Outcome) : Gate α :=
  ⟨"P" ++ o.text, 1, match o with | .zero => .ofFour 1 0 0 0 | .one => .ofFour 0 0 0 1, false⟩

variable [Neg α]

/-- The gate that negates the amplitude of state 1. -/
def z : Gate α := ⟨"Z", 1, .ofFour 1 0 0 (-1), true⟩

variable [Zero ρ] [One ρ] [GateScalar α ρ]

/-- The imaginary unit. -/
def imaginaryUnit : α := GateScalar.ofParts (0 : ρ) (1 : ρ)

/-- The negation gate with a quarter turn of the phase. -/
def y : Gate α := ⟨"Y", 1, .ofFour 0 (-imaginaryUnit) imaginaryUnit 0, true⟩

/-- The Hadamard gate. -/
def h : Gate α :=
  let factor : α := GateScalar.ofParts (GateScalar.invSqrtTwo α) (0 : ρ)
  ⟨"H", 1, .ofFour factor factor factor (-factor), true⟩

/-- A quarter turn of the phase of state 1. -/
def s : Gate α := ⟨"S", 1, .ofFour 1 0 0 imaginaryUnit, true⟩

/-- An eighth turn of the phase of state 1. -/
def t : Gate α :=
  let part : ρ := GateScalar.invSqrtTwo α
  ⟨"T", 1, .ofFour 1 0 0 (GateScalar.ofParts part part), true⟩

end Fixed

section Rotations

/-- The name of a gate with an angle, which is shown with four places. -/
def angledName (name : String) (angle : Float) : String := s!"{name}({fixedText angle 4})"

variable [Zero ρ] [GateScalar α ρ]

/-- A turn about the X axis. -/
def rx [Neg ρ] (angle : Float) : Gate α :=
  let cosine : α := GateScalar.ofParts (GateScalar.cos α (angle / 2)) (0 : ρ)
  let sine : α := GateScalar.ofParts (0 : ρ) (-GateScalar.sin α (angle / 2))
  ⟨angledName "Rx" angle, 1, .ofFour cosine sine sine cosine, true⟩

/-- A turn about the Y axis. -/
def ry [Neg α] (angle : Float) : Gate α :=
  let cosine : α := GateScalar.ofParts (GateScalar.cos α (angle / 2)) (0 : ρ)
  let sine : α := GateScalar.ofParts (GateScalar.sin α (angle / 2)) (0 : ρ)
  ⟨angledName "Ry" angle, 1, .ofFour cosine (-sine) sine cosine, true⟩

variable [Zero α]

/-- The scalar of modulus one at the given angle. -/
def turn (angle : Float) : α :=
  GateScalar.ofParts (GateScalar.cos α angle) (GateScalar.sin α angle)

/-- A turn about the Z axis. -/
def rz (angle : Float) : Gate α :=
  ⟨angledName "Rz" angle, 1, .ofFour (turn (-angle / 2)) 0 0 (turn (angle / 2)), true⟩

/-- A shift of the phase of state 1. -/
def phase [One α] (angle : Float) : Gate α :=
  ⟨angledName "Phase" angle, 1, .ofFour 1 0 0 (turn angle), true⟩

end Rotations

end Gate

end GateNetwork
