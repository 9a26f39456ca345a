import GateNetwork.Action
import GateNetwork.Arena.Staging

/-!
# Operators of a network

An operator names a stored tensor, the wires it acts on and the wires that control it. Its adjoint
is a flag: the tensor stays as it was stored, and the flag says in which form it is applied.
-/

namespace GateNetwork

/-- How the adjoint of an operator is applied. -/
inductive OperatorKind where
  /-- The adjoint of a unitary operator is its conjugate transpose. -/
  | unitary
  /-- A non-unitary operator (a projector, a state preparation) is only conjugated. -/
  | nonUnitary
deriving DecidableEq

/-- The kind of an operator that is unitary or not. -/
def OperatorKind.ofUnitary (isUnitary : Bool) : OperatorKind :=
  if isUnitary then .unitary else .nonUnitary

/-- Whether the kind is the unitary one. -/
def OperatorKind.isUnitary : OperatorKind → Bool
  | unitary => true
  | nonUnitary => false

/-- One operator applied to a register. -/
structure Operator where
  /-- The wires that the tensor acts on, the first one being its lowest index bit. -/
  targets : List Nat
  /-- The wires that must all be one for the operator to act. -/
  controls : List Nat
  /-- The stored tensor. -/
  tensor : Handle
  /-- How the adjoint is applied. -/
  kind : OperatorKind
  /-- Whether the adjoint is meant. -/
  adjoint : Bool
deriving DecidableEq

namespace Operator

variable {α : Type}

/-- All wires of the operator, the targets first. -/
def wires (op : Operator) : List Nat := op.targets ++ op.controls

/-- The number of legs of the tensor: one in and one out for each target. -/
def rank (op : Operator) : Nat := 2 * op.targets.length

/-- The largest wire of the operator. -/
def maxWire? (op : Operator) : Option Nat := op.wires.max?

/-- The largest wire, if it lies beyond a register of the given size. -/
def beyond? (op : Operator) (qubits : Nat) : Option Nat := op.maxWire?.filter (qubits ≤ ·)

/-- Checks that a tensor has one row and one column for each value of the target bits. -/
def checkShape (op : Operator) (t : Tensor α) : Except Error Unit :=
  match dimension? op.targets.length with
  | none => .error (.invalid (.targetLimit op.targets.length))
  | some side =>
    if t.rows = side ∧ t.cols = side then .ok ()
    else .error (.invalid (.tensorShape op.targets.length side t.rows t.cols))

/-- Checks an operator against a register and the arena that holds its tensor: it has a target, its
wires lie within the register and are all different, and its tensor is stored and has the right
shape. The first of these that fails is the error. -/
def check (op : Operator) (a : Arena α) (qubits : Nat) : Except Error Unit :=
  if op.targets.isEmpty then .error (.invalid .noTarget)
  else
    match op.beyond? qubits, firstRepeat? [] op.wires with
    | some q, _ => .error (.invalid (.qubitRange q qubits))
    | none, some q => .error (.invalid (.qubitTwice q))
    | none, none =>
      match a.get op.tensor with
      | .error e => .error e
      | .ok t => op.checkShape t

/-! ## Application -/

section Application

variable [Conj α]

/-- The matrix that is applied for a stored tensor: the tensor itself, and for an adjoint its
conjugate transpose or, for a non-unitary operator, its conjugate. -/
def applied (op : Operator) (t : Tensor α) : Tensor α :=
  match op.adjoint, op.kind with
  | false, _ => t
  | true, .unitary => t.adjoint
  | true, .nonUnitary => t.map conj

/-- What the operator does to a register, given its stored tensor. -/
def action (op : Operator) (t : Tensor α) : Action α := ⟨op.targets, op.controls, op.applied t⟩

end Application

/-! ## Bra side -/

/-- The operator as it appears on the bra side of an overlap, with its tensor available in the arena
`target`. The adjoint flag is flipped. A non-unitary operator gets a transposed copy of its tensor,
because its adjoint is only conjugated when applied; a unitary one is copied only if its tensor lies
elsewhere. Copies are staged, and the stored tensor is never changed. -/
def toBra (op : Operator) (source target : Arena α) (staging : Staging) :
    Except Error (Operator × Staging × Arena α) :=
  let flipped := { op with adjoint := !op.adjoint }
  match op.kind with
  | .unitary =>
    if target.owns op.tensor then .ok (flipped, staging, target)
    else do
      let t ← source.get op.tensor
      let (h, staging, target) ← staging.stage target t
      return ({ flipped with tensor := h }, staging, target)
  | .nonUnitary => do
    let t ← source.get op.tensor
    let (h, staging, target) ← staging.stage target t.transpose
    return ({ flipped with tensor := h }, staging, target)

end Operator

end GateNetwork
