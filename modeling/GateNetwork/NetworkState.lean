import GateNetwork.Backend
import GateNetwork.Basis
import GateNetwork.Settings
import GateNetwork.StateVector

/-!
# Network states

A network state answers questions about the state that a network prepares. On small registers it
contracts the network once and answers amplitudes from the vector, which it keeps together with the
version of the network that it belongs to; on larger ones it asks the backend for one amplitude at a
time. The network can be released early; a vector kept until then stays readable.

Questions that may replace the kept vector run over a `Desk`, the state together with the backend's
bench; the others run over the bench alone.
-/

namespace GateNetwork

/-- A contracted vector with the version of the network that it was contracted from. -/
structure Contracted (α : Type) where
  /-- The version of the network. -/
  version : UInt64
  /-- The vector. -/
  amplitudes : Array α

/-- The state that a network prepares. -/
structure NetworkState (α : Type) where
  /-- The network, until it is released. -/
  network : Option Network
  /-- The number of qubits, known also after the release. -/
  qubits : Nat
  /-- The vector contracted last, for whichever version of the network. -/
  cache : Option (Contracted α)
  /-- The settings that steer how questions are answered. -/
  settings : Settings

/-- A state at the bench of its backend. -/
structure Desk (α σ : Type) where
  /-- The state. -/
  state : NetworkState α
  /-- The bench. -/
  bench : Bench α σ

/-- Runs a computation of the bench at a desk. -/
def Desk.atBench {α σ β : Type} (act : Attempt Error (Bench α σ) β) : Attempt Error (Desk α σ) β :=
  act.focus Desk.bench fun bench desk => { desk with bench := bench }

namespace NetworkState

variable {α ρ σ : Type}

/-- The state that a network prepares, with nothing contracted yet. -/
def ofNetwork (net : Network) (settings : Settings) : NetworkState α :=
  ⟨some net, net.qubits, none, settings⟩

/-- The network, unless it was released. -/
def getNetwork (s : NetworkState α) : Except Error Network :=
  match s.network with
  | some net => .ok net
  | none => .error .released

/-- Whether the network was released. -/
def isReleased (s : NetworkState α) : Bool := s.network.isNone

/-- The number of operators, none after the release. -/
def operatorCount (s : NetworkState α) : Nat :=
  match s.network with
  | some net => net.size
  | none => 0

/-- Releases the network. -/
def release (s : NetworkState α) : NetworkState α := { s with network := none }

/-- The kept vector, if it belongs to the given version. -/
def vectorAt? (s : NetworkState α) (version : UInt64) : Option (Array α) :=
  match s.cache with
  | some c => if c.version = version then some c.amplitudes else none
  | none => none

/-- The vector that can be read without contracting: the kept one if it belongs to the network as it
is now, and after the release whichever was kept. -/
def readyVector? (s : NetworkState α) : Option (Array α) :=
  match s.network with
  | some net => s.vectorAt? net.version
  | none => s.cache.map Contracted.amplitudes

/-- A line about the state for diagnostics. -/
def text (s : NetworkState α) : String :=
  s!"TensorNetSimulationState \x7b num_qubits: {s.qubits}, num_tensors: {s.operatorCount}, " ++
    s!"cached: {s.cache.isSome}, released: {s.isReleased} \x7d"

/-! ## Amplitudes -/

/-- The vector of the network as it is now: the kept one if it is current, and otherwise a new one,
which is kept from now on. -/
def currentVector (b : Backend α ρ σ) (store : Store α) : Attempt Error (Desk α σ) (Array α) := do
  let desk ← get
  let net ← Attempt.ofExcept desk.state.getNetwork
  match desk.state.vectorAt? net.version with
  | some v => return v
  | none =>
    let v ← Desk.atBench (b.materialize (store.arena net.arena) net)
    modify fun desk => { desk with state := { desk.state with cache := some ⟨net.version, v⟩ } }
    return v

/-- The amplitude of a basis state. -/
def amplitude (b : Backend α ρ σ) (store : Store α) (digits : List Nat) :
    Attempt Error (Desk α σ) α := do
  let s := (← get).state
  let index ← Attempt.ofExcept (basisIndex digits s.qubits)
  if s.qubits ≤ s.settings.vectorQubits then
    let v ← currentVector b store
    match v[index]? with
    | some a => return a
    | none => throw .outOfBounds
  else
    let net ← Attempt.ofExcept s.getNetwork
    let query := Query.pinAll digits s.settings.hyperSamples
    let slice ← Desk.atBench (b.access (store.arena net.arena) net query)
    match slice.amplitudes[0]? with
    | some a => return a
    | none => throw (.backend "accessor returned no amplitude")

/-- The amplitudes of several basis states, in order, up to the first failure. -/
def amplitudes (b : Backend α ρ σ) (store : Store α) :
    List (List Nat) → Attempt Error (Desk α σ) (List α)
  | [] => pure []
  | digits :: rest => do
    let a ← amplitude b store digits
    let as ← amplitudes b store rest
    return a :: as

/-! ## The whole state -/

/-- The squared norm of the network. -/
def norm (b : Backend α ρ σ) (store : Store α) (s : NetworkState α) :
    Attempt Error (Bench α σ) ρ := do
  let net ← Attempt.ofExcept s.getNetwork
  let slice ← b.access (store.arena net.arena) net (.unpinned s.settings.hyperSamples)
  return slice.normSq

/-- The vector to be copied to a buffer of the given length, if that is the right one. It is always
contracted anew: the kept vector is neither read nor replaced. -/
def vectorToCopy (b : Backend α ρ σ) (store : Store α) (s : NetworkState α) (length : Nat) :
    Attempt Error (Bench α σ) (Array α) := do
  let net ← Attempt.ofExcept s.getNetwork
  match dimension? s.qubits with
  | none => throw (.workspace maxWord (← get).scratch.capacity)
  | some dim =>
    if length ≠ dim then throw (.lengthMismatch dim length)
    b.materialize (store.arena net.arena) net

/-- Copies the vector over a buffer, which is left as it was if there is no vector to copy. -/
def copyTo (b : Backend α ρ σ) (store : Store α) (s : NetworkState α) :
    Attempt Error (Bench α σ × Array α) Unit :=
  .beside (fun buffer => s.vectorToCopy b store buffer.size) fun v _ buffer =>
    (.ok (), overwrite buffer v)

/-- The vector to be written out: the one that can be read without contracting, or else a fresh one,
which is not kept. -/
def vectorToDump (b : Backend α ρ σ) (store : Store α) (s : NetworkState α) :
    Attempt Error (Bench α σ) (Array α) := do
  match s.readyVector? with
  | some v => return v
  | none =>
    let net ← Attempt.ofExcept s.getNetwork
    b.materialize (store.arena net.arena) net

/-! ## Making states from data -/

/-- A new state over the vector `v`, in the arena of this state's network and with its settings. -/
def ofVectorLike [Zero α] (s : NetworkState α) (store : Store α) (v : Array α) :
    Except Error (NetworkState α × Store α) := do
  let net ← s.getNetwork
  let (made, store) ← Network.ofVector store net.arena v
  return (ofNetwork made s.settings, store)

end NetworkState

/-- Data that a state can be asked to be made from. -/
inductive StateData (α : Type) where
  /-- The amplitudes. -/
  | dense (amplitudes : Array α)
  /-- Tensors whose product the state is, given by their shapes. -/
  | factored (shapes : List (List Nat))

/-- A new state over the given data, like this one. Only amplitudes are accepted. -/
def NetworkState.ofDataLike {α : Type} [Zero α] (s : NetworkState α) (store : Store α) :
    StateData α → Except Error (NetworkState α × Store α)
  | .dense v => s.ofVectorLike store v
  | .factored _ => .error .factoredData

end GateNetwork
