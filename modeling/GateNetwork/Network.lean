import GateNetwork.Arena.Store
import GateNetwork.Operator

/-!
# Networks

A network is a register and the operators applied to its all-zero state, in order. It only grows:
operators are checked and appended, and a version counts the appends, so that whoever keeps a result
of the network can see whether it is still current.
-/

namespace GateNetwork

/-- An ordered list of operators over a register. -/
structure Network where
  /-- The number of the arena that holds the tensors. -/
  arena : Nat
  /-- The number of qubits. -/
  qubits : Nat
  /-- The operators, in the order of application. -/
  ops : List Operator
  /-- The number of appends, a 64-bit counter. -/
  version : UInt64

namespace Network

variable {α : Type}

/-- The network without operators. -/
def empty (arena qubits : Nat) : Network := ⟨arena, qubits, [], 0⟩

/-- The number of operators. -/
def size (net : Network) : Nat := net.ops.length

/-- Appends an operator that fits the register and whose tensor is stored; answers with its
position. -/
def push (net : Network) (s : Store α) (op : Operator) : Except Error (Nat × Network) :=
  match op.check (s.arena net.arena) net.qubits with
  | .ok () => .ok (net.ops.length, { net with ops := net.ops ++ [op], version := net.version + 1 })
  | .error e => .error e

/-- A network whose contraction gives exactly the vector `v`, together with the store that holds its
one tensor: a non-unitary operator on the whole register with `v` as its first column. -/
def ofVector [Zero α] (s : Store α) (arena : Nat) (v : Array α) :
    Except Error (Network × Store α) := do
  if v.size < 2 || !isPowerOfTwo v.size then
    throw (.invalid (.vectorLength v.size))
  let qubits := v.size.log2
  let (h, s) ← s.allocate arena (Tensor.ofFirstColumn v)
  let (_, net) ← (empty arena qubits).push s ⟨List.range qubits, [], h, .nonUnitary, false⟩
  return (net, s)

end Network

end GateNetwork
