import GateNetwork.Attempt
import GateNetwork.Network
import GateNetwork.Scratch

/-!
# Contraction backends

A backend turns a network into numbers: into its whole state vector, or into the amplitudes that are
left when some modes are pinned to fixed bits. It reads the arena, works in the scratch pool, and
may keep a state of its own from call to call.
-/

namespace GateNetwork

/-- Modes pinned to fixed bits. -/
structure Query where
  /-- The pinned modes. -/
  modes : List Nat
  /-- The value of each pinned mode. -/
  values : List Nat
  /-- Samples that a search for a contraction path may take. -/
  hyperSamples : Nat

namespace Query

/-- Pins mode `i` to the `i`-th value. -/
def pinAll (values : List Nat) (hyperSamples : Nat) : Query :=
  ⟨List.range values.length, values, hyperSamples⟩

/-- Pins every qubit of a register to zero. -/
def allZero (qubits hyperSamples : Nat) : Query :=
  pinAll (List.replicate qubits 0) hyperSamples

/-- Pins nothing. -/
def unpinned (hyperSamples : Nat) : Query := ⟨[], [], hyperSamples⟩

/-- Reads pins one by one, given the mask of the modes pinned so far and the bits they are pinned
to. -/
def readPins (qubits : Nat) : List (Nat × Nat) → Nat → Nat → Except Error (Nat × Nat)
  | [], pinned, bits => .ok (pinned, bits)
  | (mode, value) :: pins, pinned, bits =>
    if qubits ≤ mode ∨ 64 ≤ mode then .error (.invalid (.pinRange mode qubits))
    else if 1 < value then .error (.invalid (.pinValue value))
    else if pinned.testBit mode then .error (.invalid (.pinTwice mode))
    else readPins qubits pins (pinned ||| 1 <<< mode) (bits ||| value <<< mode)

/-- The mask of the pinned modes and the index bits that they are pinned to. -/
def pattern (q : Query) (qubits : Nat) : Except Error (Nat × Nat) :=
  if q.modes.length ≠ q.values.length then
    .error (.invalid (.pinLists q.modes.length q.values.length))
  else readPins qubits (q.modes.zip q.values) 0 0

end Query

/-- What a query gives: the amplitudes over the free modes, and the squared norm of the whole
state. -/
structure Slice (α ρ : Type) where
  /-- The amplitudes, indexed by the free modes in ascending order, the lowest one first. -/
  amplitudes : Array α
  /-- The squared norm of the contracted network. -/
  normSq : ρ

/-- What a backend works with: the scratch pool and its own state. -/
structure Bench (α σ : Type) where
  /-- The scratch pool. -/
  scratch : Scratch α
  /-- The state that the backend keeps. -/
  engine : σ

/-- An engine that contracts networks of tensors over `α`. -/
structure Backend (α ρ σ : Type) where
  /-- The bytes of scratch memory needed for a network. -/
  workspace : Network → Nat
  /-- Contracts a network into its state vector. -/
  materialize : Arena α → Network → Attempt Error (Bench α σ) (Array α)
  /-- Contracts a network with the modes of a query pinned. -/
  access : Arena α → Network → Query → Attempt Error (Bench α σ) (Slice α ρ)

end GateNetwork
