import GateNetwork.NetworkState

/-!
# Exported tensors

The tensors of a network are handed out as views: the stored tensor as it is, with its shape as a
list of legs of two values each.
-/

namespace GateNetwork

/-- A view of one stored tensor. -/
structure TensorView (α : Type) where
  /-- The handle of the tensor. -/
  handle : Handle
  /-- The tensor. -/
  tensor : Tensor α
  /-- The number of values of each leg. -/
  extents : List Nat
  /-- The precision of the scalars. -/
  precision : Precision

namespace TensorView

variable {α : Type}

/-- The number of legs. -/
def rank (v : TensorView α) : Nat := v.extents.length

/-- The number of scalars, by the legs. -/
def scalarCount (v : TensorView α) : Nat := v.extents.foldl (· * ·) 1

/-- The size of the scalars in bytes. -/
def bytes (v : TensorView α) : Nat := v.scalarCount * v.precision.scalarBytes

end TensorView

namespace NetworkState

variable {α : Type}

/-- The view of the operator at a position. -/
def tensor (s : NetworkState α) (store : Store α) (position : Nat) :
    Except Error (TensorView α) := do
  let net ← s.getNetwork
  match net.ops[position]? with
  | none => throw (.operatorIndex position net.size)
  | some op =>
    let t ← (store.arena net.arena).get op.tensor
    return ⟨op.tensor, t, List.replicate op.rank 2, .double⟩

/-- The views of all operators, in order. -/
def tensors (s : NetworkState α) (store : Store α) : Except Error (List (TensorView α)) := do
  let net ← s.getNetwork
  (List.range net.size).mapM (s.tensor store)

end NetworkState

end GateNetwork
