import GateNetwork.Attempt
import GateNetwork.Basis
import GateNetwork.Scalar
import GateNetwork.Scratch

/-!
# Dense states

A dense state holds one amplitude per basis state. Its length is a power of two, and the number of
qubits follows from it.
-/

namespace GateNetwork

/-- A dense state. -/
structure StateVector (α : Type) where
  /-- The number of qubits. -/
  qubits : Nat
  /-- The amplitudes, in index order. -/
  amplitudes : Array α

namespace StateVector

variable {α ρ : Type}

/-- The number of amplitudes. -/
def dimension (s : StateVector α) : Nat := s.amplitudes.size

/-- The state with the given amplitudes, which need not have norm one. -/
def ofAmplitudes (v : Array α) : Except Error (StateVector α) :=
  if isPowerOfTwo v.size then .ok ⟨v.size.log2, v⟩
  else .error (.invalid (.vectorDimension v.size))

/-- The basis state at the given index. -/
def basis [Zero α] [One α] (qubits index : Nat) : Except Error (StateVector α) :=
  match dimension? qubits with
  | none => .error (.invalid (.registerLimit qubits))
  | some dim =>
    if dim ≤ index then .error (.invalid (.basisIndex index qubits))
    else .ok ⟨qubits, Array.ofFn fun i : Fin dim => if i.val = index then 1 else 0⟩

/-- The state in which every qubit is 0. -/
def zeroState [Zero α] [One α] (qubits : Nat) : Except Error (StateVector α) := basis qubits 0

/-- The amplitude of a basis state. -/
def amplitude (s : StateVector α) (digits : List Nat) : Except Error α := do
  let index ← basisIndex digits s.qubits
  match s.amplitudes[index]? with
  | some a => return a
  | none => throw .outOfBounds

/-- Copies the amplitudes over a buffer of the same length; another buffer is left as it was. -/
def copyTo (s : StateVector α) : Attempt Error (Array α) Unit := do
  let buffer ← get
  if buffer.size ≠ s.dimension then throw (.lengthMismatch s.dimension buffer.size)
  set (overwrite buffer s.amplitudes)

theorem copyTo_apply (s : StateVector α) (buffer : Array α) : s.copyTo buffer =
    if buffer.size ≠ s.dimension then .error (.lengthMismatch s.dimension buffer.size) buffer
    else .ok () (overwrite buffer s.amplitudes) := by
  rw [copyTo, Attempt.bind_ok (Attempt.get_apply buffer)]
  split <;> rfl

/-- The inner product, conjugate in the first state, added up from zero in index order. -/
def inner [Zero α] [Add α] [Mul α] [Conj α] (s t : StateVector α) : Except Error α :=
  if s.qubits ≠ t.qubits then .error (.lengthMismatch s.dimension t.dimension)
  else .ok (sumFrom (List.zipWith (fun a b => conj a * b) s.amplitudes.toList t.amplitudes.toList))

section Measured

variable [Magnitude α ρ] [Zero ρ]

/-- The probability of finding the basis state at an index, zero beyond the register. -/
def probability (s : StateVector α) (index : Nat) : ρ :=
  match s.amplitudes[index]? with
  | some a => normSq a
  | none => 0

variable [Add ρ]

/-- The squared norm. -/
def normSquared (s : StateVector α) : ρ := normSqOf s.amplitudes

/-- Whether the squared norm is one, up to the tolerance. -/
def isNormalized [One ρ] [Close ρ] (s : StateVector α) : Bool := close s.normSquared (1 : ρ)

/-- The modulus of the inner product of two states, conjugate in the second. -/
def overlap [Zero α] [Add α] [Mul α] [Conj α] (s t : StateVector α) : Except Error ρ := do
  return modulus (← t.inner s)

end Measured

/-- The normalized state of the given number of qubits with the given amplitudes in double
precision. -/
def normalized [Magnitude α Float] [Close Float] (qubits : Nat) (v : Array α) :
    Except Error (StateVector α) := do
  let s ← ofAmplitudes v
  if s.qubits ≠ qubits then
    throw (.lengthMismatch ((dimension? qubits).getD maxWord) s.dimension)
  if !s.isNormalized then
    throw (.invalid (.notNormalized s.normSquared))
  return s

end StateVector

end GateNetwork
