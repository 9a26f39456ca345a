import GateNetwork.Decimal.Shortest
import GateNetwork.Handle
import GateNetwork.Representation
import GateNetwork.Text.Quoted

/-!
# Errors

What can go wrong, each cause with the facts that its message tells. The wording is in `message`
alone.
-/

namespace GateNetwork

/-- An argument that cannot be worked with. -/
inductive BadArgument where
  /-- A tensor to be stored is not square with a power-of-two side. -/
  | storedShape (rows cols : Nat)
  /-- A handle was issued by another arena. -/
  | foreignHandle (handle : Handle) (arena : Nat)
  /-- A handle names no tensor any more. -/
  | releasedHandle (handle : Handle)
  /-- An operator has no target. -/
  | noTarget
  /-- A qubit lies beyond the register. -/
  | qubitRange (qubit qubits : Nat)
  /-- A qubit is named twice among targets and controls. -/
  | qubitTwice (qubit : Nat)
  /-- The tensor of so many targets would have no countable side. -/
  | targetLimit (targets : Nat)
  /-- The tensor does not fit the number of targets. -/
  | tensorShape (targets side rows cols : Nat)
  /-- No register of at least one qubit has a state vector of this length. -/
  | vectorLength (length : Nat)
  /-- A gate was placed on the wrong number of targets. -/
  | gateTargets (gate : String) (qubits targets : Nat)
  /-- A gate matrix has no side `2^k` with `k` positive. -/
  | gateShape (rows cols : Nat)
  /-- The lists of pinned modes and of their values differ in length. -/
  | pinLists (modes values : Nat)
  /-- A pinned mode lies beyond the register. -/
  | pinRange (mode qubits : Nat)
  /-- A mode is pinned to something other than a bit. -/
  | pinValue (value : Nat)
  /-- A mode is pinned twice. -/
  | pinTwice (mode : Nat)
  /-- A basis state does not have one digit per qubit. -/
  | basisLength (expected provided : Nat)
  /-- A digit of a basis state is not a bit. -/
  | basisDigit
  /-- A basis state of no qubits. -/
  | basisEmpty
  /-- An overlap with a state of no qubits. -/
  | overlapEmpty
  /-- No shots were asked for. -/
  | noShots
  /-- The state to be sampled has no weight anywhere. -/
  | zeroNorm
  /-- The length of a dense vector is not a power of two. -/
  | vectorDimension (dimension : Nat)
  /-- A dense vector has not norm one. -/
  | notNormalized (normSq : Float)
  /-- A register has more amplitudes than can be counted. -/
  | registerLimit (qubits : Nat)
  /-- A basis index lies beyond the register. -/
  | basisIndex (index qubits : Nat)
  /-- A variable of the environment does not hold a number in range. -/
  | setting (name value : String)

/-- The ways in which an operation fails. -/
inductive Error where
  /-- An argument cannot be worked with. -/
  | invalid (cause : BadArgument)
  /-- There is no operator at this position. -/
  | operatorIndex (index count : Nat)
  /-- Overlaps with states of this representation are not computed. -/
  | overlapWith (representation : Representation)
  /-- A network cannot be made from tensors in product form. -/
  | factoredData
  /-- A buffer or vector has the wrong length. -/
  | lengthMismatch (expected actual : Nat)
  /-- The scratch pool is smaller than the workspace. -/
  | workspace (required available : Nat)
  /-- A backend gave up, for a reason of its own. -/
  | backend (reason : String)
  /-- The network of the state has been released. -/
  | released
  /-- The receiver of a text did not take it. -/
  | sink (reason : String)
  /-- A vector was read outside its bounds: the backend handed over one that is too short. -/
  | outOfBounds

namespace BadArgument

/-- The wording of a bad argument. -/
def message : BadArgument → String
  | storedShape rows cols =>
    s!"gate tensor must be a square power-of-two matrix, got {rows}x{cols}"
  | foreignHandle handle arena => s!"{handle.text} does not belong to arena {arena}"
  | releasedHandle handle => s!"{handle.text} has been released"
  | noTarget => "operator must act on at least one qubit"
  | qubitRange qubit qubits => s!"qubit index {qubit} out of range for {qubits}-qubit network"
  | qubitTwice qubit => s!"qubit {qubit} appears more than once among targets and controls"
  | targetLimit targets => s!"{targets} target qubits exceed the tensor size limit"
  | tensorShape targets side rows cols =>
    s!"tensor for {targets} target qubits must be {side}x{side}, got {rows}x{cols}"
  | vectorLength length =>
    s!"state vector length {length} is not a power of two of at least one qubit"
  | gateTargets gate qubits targets =>
    s!"gate {gate} acts on {qubits} qubits, but {targets} target qubits were specified"
  | gateShape rows cols => s!"gate matrix must be 2^k x 2^k, got {rows}x{cols}"
  | pinLists modes values => s!"{modes} pinned modes but {values} pinned values"
  | pinRange mode qubits => s!"pinned mode {mode} out of range for {qubits}-qubit network"
  | pinValue value => s!"pinned value {value} is not 0 or 1"
  | pinTwice mode => s!"mode {mode} pinned twice"
  | basisLength expected provided =>
    s!"invalid number of bits in the basis state: expected {expected}, provided {provided}"
  | basisDigit => "invalid basis state: only qubit states 0 or 1 are supported"
  | basisEmpty => "empty basis state"
  | overlapEmpty => "cannot compute overlap of a zero-qubit state"
  | noShots => "number of shots must be positive"
  | zeroNorm => "cannot sample from a zero-norm state"
  | vectorDimension dimension => s!"state vector dimension {dimension} is not a power of two"
  | notNormalized normSq => s!"state vector is not normalized, norm = {shortestText normSq}"
  | registerLimit qubits => s!"{qubits} qubits exceed the addressable state size"
  | basisIndex index qubits => s!"index {index} is out of range for {qubits}-qubit state"
  | setting name value => s!"cannot parse {name}={quoted value}"

end BadArgument

namespace Error

/-- The wording of an error. -/
def message : Error → String
  | invalid cause => s!"invalid argument: {cause.message}"
  | operatorIndex index count => s!"invalid tensor index {index}: network holds {count} tensors"
  | overlapWith representation =>
    s!"computing overlap with a {representation.text} state is not supported"
  | factoredData =>
    "unsupported state data format: cannot create a tensor-network state from " ++
      "matrix-product tensors"
  | lengthMismatch expected actual =>
    s!"dimension mismatch: expecting {expected} elements but got {actual}"
  | workspace required available =>
    s!"insufficient workspace: {required} bytes required, scratch pool holds {available}"
  | backend reason => s!"contraction backend failure: {reason}"
  | released => "tensor network state has been released"
  | sink reason => reason
  | outOfBounds => "vector read out of bounds"

end Error

end GateNetwork
