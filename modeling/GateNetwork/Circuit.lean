import GateNetwork.Attempt
import GateNetwork.Gate
import GateNetwork.Network

/-!
# Circuits

A circuit is drafted by placing gates: the matrix of a gate is stored in the network's arena, and an
operator that refers to it is appended. A placement that is refused leaves no tensor behind.
Preparations that need several gates are lists of placements, carried out one by one up to the first
that is refused.
-/

namespace GateNetwork

/-- A gate on its wires. -/
structure Placement (α : Type) where
  /-- The gate. -/
  gate : Gate α
  /-- The qubits that the gate acts on, in the order of its own qubits. -/
  targets : List Nat
  /-- The qubits that must all be one for the gate to act. -/
  controls : List Nat
  /-- Whether the adjoint of the gate is meant; the stored tensor is the gate itself. -/
  adjoint : Bool

namespace Placement

variable {α ρ : Type}

/-- A gate on one qubit. -/
def single (g : Gate α) (qubit : Nat) : Placement α := ⟨g, [qubit], [], false⟩

/-- The adjoint of a gate on one qubit. -/
def singleAdjoint (g : Gate α) (qubit : Nat) : Placement α := ⟨g, [qubit], [], true⟩

/-- A gate on one qubit under the control of another. -/
def controlled (g : Gate α) (control target : Nat) : Placement α := ⟨g, [target], [control], false⟩

variable [Zero α] [One α]

/-- Negates the target where the control is one. -/
def cnot (control target : Nat) : Placement α := controlled .x control target

/-- Exchanges two qubits. -/
def swap (first second : Nat) : Placement α := ⟨.swap, [first, second], [], false⟩

/-- Negates the target where both controls are one. -/
def toffoli (first second target : Nat) : Placement α := ⟨.x, [target], [first, second], false⟩

/-- Projects a qubit onto an outcome, without normalizing. -/
def project (qubit : Nat) (o : Outcome) : Placement α := single (.projector o) qubit

variable [Neg α] [Zero ρ] [GateScalar α ρ]

/-- Prepares an entangled pair from two qubits in state 0. -/
def bellPair (first second : Nat) : List (Placement α) := [single .h first, cnot first second]

/-- Entangles a whole register, so that its qubits are found all in state 0 or all in state 1. -/
def ghz (qubits : Nat) : List (Placement α) :=
  match qubits with
  | 0 => []
  | n + 1 => single .h 0 :: (List.range n).map fun q => cnot q (q + 1)

end Placement

/-- A network under construction, with the store that holds its tensors. -/
structure Draft (α : Type) where
  /-- The network so far. -/
  network : Network
  /-- The store. -/
  store : Store α

namespace Draft

variable {α : Type}

/-- Places a gate; answers with the position of the new operator. -/
def place (p : Placement α) : Attempt Error (Draft α) Nat := fun d =>
  if p.gate.qubits ≠ p.targets.length then
    .error (.invalid (.gateTargets p.gate.name p.gate.qubits p.targets.length)) d
  else
    match d.store.allocate d.network.arena p.gate.matrix with
    | .error e => .error e d
    | .ok (h, store) =>
      let op : Operator := ⟨p.targets, p.controls, h, .ofUnitary p.gate.isUnitary, p.adjoint⟩
      match d.network.push store op with
      | .ok (position, network) => .ok position ⟨network, store⟩
      | .error e => .error e ⟨d.network, store.release d.network.arena h⟩

/-- Places gates in order, up to the first that is refused; answers with the positions of the new
operators. -/
def placeAll : List (Placement α) → Attempt Error (Draft α) (List Nat)
  | [] => pure []
  | p :: ps => do
    let position ← place p
    let positions ← placeAll ps
    return position :: positions

end Draft

end GateNetwork
