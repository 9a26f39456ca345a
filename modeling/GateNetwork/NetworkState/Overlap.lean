import GateNetwork.NetworkState

/-!
# Overlaps of networks

The overlap of two network states is the amplitude at zero of one joined network: the operators of
the ket, and after them the operators of the bra in reverse order, each in its bra-side form. Copies
of tensors that the bra side needs are staged in the ket's arena and released again however the
computation ends.
-/

namespace GateNetwork

/-- The store, with the tensors staged in it. -/
structure Joining (α : Type) where
  /-- The store. -/
  store : Store α
  /-- What was staged. -/
  staging : Staging

/-- What an overlap may change: the store while it runs, and the bench. -/
structure Site (α σ : Type) where
  /-- The store. -/
  store : Store α
  /-- The bench of the backend. -/
  bench : Bench α σ

namespace Network

variable {α : Type}

/-- Appends operators of another network of the same arena. -/
def pushAll (store : Store α) (net : Network) (ops : List Operator) : Except Error Network :=
  ops.foldlM (fun net op => return (← net.push store op).2) net

/-- Appends the bra-side forms of operators whose tensors lie in the arena `source`. -/
def pushBra (source : Nat) : List Operator → Network → Attempt Error (Joining α) Network
  | [], net => pure net
  | op :: ops, net => do
    let j ← get
    let (bra, staging, arena) ←
      Attempt.ofExcept (op.toBra (j.store.arena source) (j.store.arena net.arena) j.staging)
    let store := j.store.put net.arena arena
    set (⟨store, staging⟩ : Joining α)
    let (_, net) ← Attempt.ofExcept (net.push store bra)
    pushBra source ops net

/-- The network of the ket followed by the reversed network of the bra, over as many qubits as the
larger one has. -/
def join (ket bra : Network) : Attempt Error (Joining α) Network := do
  let start := Network.empty ket.arena (max ket.qubits bra.qubits)
  let net ← Attempt.ofExcept (pushAll (← get).store start ket.ops)
  pushBra bra.arena bra.ops.reverse net

/-- Runs a computation that stages tensors in the arena of the given number, and releases them at
its end, be it a value or an error. -/
def withStaging {σ β : Type} (arena : Nat) (act : Attempt Error (Joining α) Network)
    (use : Network → Arena α → Attempt Error (Bench α σ) β) : Attempt Error (Site α σ) β :=
  fun site =>
    let closed (j : Joining α) : Store α :=
      j.store.put arena (j.staging.close (j.store.arena arena))
    match act ⟨site.store, .empty⟩ with
    | .error e j => .error e ⟨closed j, site.bench⟩
    | .ok net j =>
      match use net (j.store.arena arena) site.bench with
      | .error e bench => .error e ⟨closed j, bench⟩
      | .ok a bench => .ok a ⟨closed j, bench⟩

end Network

namespace NetworkState

variable {α ρ σ : Type}

/-- The inner product of two network states, conjugate in the second, as the amplitude at zero of
their joined network. -/
def inner (b : Backend α ρ σ) (ket bra : NetworkState α) : Attempt Error (Site α σ) α := do
  let k ← Attempt.ofExcept ket.getNetwork
  let l ← Attempt.ofExcept bra.getNetwork
  if k.qubits = 0 || l.qubits = 0 then
    throw (.invalid .overlapEmpty)
  Network.withStaging k.arena (k.join l) fun joined arena => do
    let slice ← b.access arena joined (.allZero joined.qubits ket.settings.hyperSamples)
    match slice.amplitudes[0]? with
    | some a => return a
    | none => throw (.backend "accessor returned no amplitude")

/-- The modulus of the inner product of two network states. -/
def overlap [Magnitude α ρ] (b : Backend α ρ σ) (ket bra : NetworkState α) :
    Attempt Error (Site α σ) ρ := do
  return modulus (← inner b ket bra)

end NetworkState

end GateNetwork
