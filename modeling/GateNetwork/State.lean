import GateNetwork.NetworkState.Overlap

/-!
# States

A state is a network state or a dense state. Overlaps are computed between states held in the same
way.
-/

namespace GateNetwork

/-- A state in one of the two representations. -/
inductive State (α : Type) where
  /-- A state held as a network. -/
  | network (state : NetworkState α)
  /-- A state held as a vector. -/
  | dense (state : StateVector α)

namespace State

variable {α ρ σ : Type}

/-- How the state is held. -/
def representation : State α → Representation
  | network _ => .tensorNetwork
  | dense _ => .stateVector

/-- The number of qubits. -/
def qubits : State α → Nat
  | network s => s.qubits
  | dense s => s.qubits

/-- The network state, if it is one. -/
def asNetwork? : State α → Option (NetworkState α)
  | network s => some s
  | dense _ => none

variable [Zero α] [Add α] [Mul α] [Conj α] [Magnitude α ρ]

/-- The overlap of two states, if they are held in the same way. -/
def overlap (b : Backend α ρ σ) : State α → State α → Attempt Error (Site α σ) ρ
  | network s, network t => s.overlap b t
  | dense s, dense t => Attempt.ofExcept (s.overlap t)
  | _, t => throw (.overlapWith t.representation)

end State

end GateNetwork
