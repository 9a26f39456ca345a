/-!
# Representations of a state

A state is held as a network of gate tensors or as a dense vector. Only networks can be joined to
compute an overlap. Exported tensors name the precision of their scalars.
-/

namespace GateNetwork

/-- How a state is held. -/
inductive Representation where
  /-- As gate tensors still to be contracted. -/
  | tensorNetwork
  /-- As one amplitude per basis state. -/
  | stateVector
deriving DecidableEq

namespace Representation

/-- The name of a representation in messages. -/
def text : Representation → String
  | tensorNetwork => "tensor-network"
  | stateVector => "state-vector"

/-- Whether overlaps are computed by joining networks. -/
def joinsNetworks : Representation → Bool
  | tensorNetwork => true
  | stateVector => false

end Representation

/-- The precision of the scalars in an exported tensor. -/
inductive Precision where
  /-- Two single-precision parts. -/
  | single
  /-- Two double-precision parts. -/
  | double
deriving DecidableEq

/-- Bytes per scalar. -/
def Precision.scalarBytes : Precision → Nat
  | single => 8
  | double => 16

end GateNetwork
