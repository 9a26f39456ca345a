import GateNetwork.NetworkState.Sampling
import GateNetwork.Proofs.Access

/-!
# States that answer for a network

A state keeps the vector that was contracted last together with the version of the network at that
moment. Appends move the version on, so a kept vector of the network's version is the vector of the
network as it is. This invariant holds of every state that can be reached by appending operators,
asking amplitudes and sampling, as long as the tensors of the network stay in the store.
-/

namespace GateNetwork

variable {α ρ σ : Type}

theorem Desk.atBench_eq {β : Type} {act : Attempt Error (Bench α σ) β} {desk : Desk α σ}
    {bench : Bench α σ} {r : Except Error β} (h : act desk.bench = Attempt.ofExcept r bench) :
    Desk.atBench act desk = Attempt.ofExcept r { desk with bench := bench } :=
  Attempt.focus_ofExcept h

/-- The desk with another vector kept and another memory in the pool. -/
def Desk.refreshed (desk : Desk α σ) (cache : Option (Contracted α)) (memory : Array α) :
    Desk α σ :=
  ⟨{ desk.state with cache := cache }, desk.bench.withMemory memory⟩

namespace NetworkState

variable [Zero α] [One α] [Add α] [Mul α] [Conj α]

/-- The state answers for the network over the store, at pools of the given capacity: a kept vector
is of the past, and if it is of the network as it is now, then it is what contraction gives. -/
structure Serves (s : NetworkState α) (net : Network) (store : Store α) (capacity : Nat) :
    Prop where
  network : s.network = some net
  qubits : s.qubits = net.qubits
  built : net.Built store
  past : ∀ c, s.cache = some c → c.version.toNat ≤ net.size
  kept : ∀ v, s.vectorAt? net.version = some v →
    net.contracted (store.arena net.arena) capacity = .ok v

variable {s : NetworkState α} {net net' : Network} {store store' : Store α} {capacity : Nat}

theorem Serves.getNetwork_eq (hs : s.Serves net store capacity) : s.getNetwork = .ok net := by
  rw [getNetwork, hs.network]

/-- A new state has nothing kept. -/
theorem Serves.fresh (hnet : net.Built store) (settings : Settings) :
    (ofNetwork net settings).Serves net store capacity := by
  refine ⟨rfl, rfl, hnet, fun c hc => ?_, fun v hv => ?_⟩
  · cases hc
  · cases hv

/-- The state goes on to answer over a store with the same tensors of the network. -/
theorem Serves.keep (hs : s.Serves net store capacity) (hkept : net.Kept store store') :
    s.Serves net store' capacity := by
  refine ⟨hs.network, hs.qubits, hs.built.kept hkept, hs.past, fun v hv => ?_⟩
  rw [Network.contracted_congr hkept]
  exact hs.kept v hv

/-- An append leaves no kept vector of the new version. -/
theorem Serves.append (hs : s.Serves net store capacity) {op : Operator} {position : Nat}
    (hpush : net.push store op = .ok (position, net')) (hcount : net'.size < 2 ^ 64) :
    ({ s with network := some net' } : NetworkState α).Serves net' store capacity := by
  have hbuilt := hs.built.push hpush
  have hversion : net'.version.toNat = net'.size := by
    rw [hbuilt.version_eq]
    exact Nat.mod_eq_of_lt hcount
  obtain ⟨-, rfl⟩ := Network.push_eq_ok hpush
  have hsize : net.size + 1 = (net.ops ++ [op]).length := by
    rw [List.length_append]
    rfl
  refine ⟨rfl, hs.qubits, hbuilt, fun c hc => ?_, fun v hv => ?_⟩
  · exact (hs.past c hc).trans (Nat.le_of_succ_le (Nat.le_of_eq hsize))
  · exfalso
    unfold vectorAt? at hv
    split at hv
    · rename_i c hc
      split at hv
      · rename_i hc'
        have hpast := hs.past c hc
        rw [hc', hversion] at hpast
        exact absurd hsize (by simp only [Network.size] at hpast ⊢; omega)
      · cases hv
    · cases hv

variable [Magnitude α ρ] [Zero ρ] [Add ρ] {desk : Desk α σ}

/-- The current vector is what contraction gives, kept or not. -/
theorem currentVector_eq (hs : desk.state.Serves net store desk.bench.scratch.capacity) :
    ∃ cache memory, currentVector (Dense.backend : Backend α ρ σ) store desk =
        Attempt.ofExcept (net.contracted (store.arena net.arena) desk.bench.scratch.capacity)
          (desk.refreshed cache memory) ∧
      (desk.refreshed cache memory).state.Serves net store desk.bench.scratch.capacity := by
  rw [currentVector, Attempt.bind_ok (Attempt.get_apply desk), hs.getNetwork_eq,
    Attempt.bind_ok (Attempt.ofExcept_ok net desk)]
  cases hv : desk.state.vectorAt? net.version with
  | some v =>
    refine ⟨desk.state.cache, desk.bench.scratch.memory, ?_, hs⟩
    rw [hs.kept v hv]
    rfl
  | none =>
    obtain ⟨memory, hcontract⟩ := Dense.contract_eq hs.built.fits desk.bench
    have hbench := Desk.atBench_eq hcontract
    cases hvector : net.contracted (store.arena net.arena) desk.bench.scratch.capacity with
    | error e =>
      rw [hvector] at hbench
      exact ⟨desk.state.cache, memory, Attempt.bind_error hbench _, hs⟩
    | ok v =>
      rw [hvector] at hbench
      refine ⟨some ⟨net.version, v⟩, memory, Attempt.bind_ok hbench _, hs.network, hs.qubits,
        hs.built, fun c hc => ?_, fun w hw => ?_⟩
      · obtain rfl : (⟨net.version, v⟩ : Contracted α) = c := Option.some.inj hc
        rw [hs.built.version_eq]
        exact Nat.mod_le _ _
      · obtain rfl : v = w := by simpa [Desk.refreshed, vectorAt?] using hw
        exact hvector

end NetworkState

end GateNetwork
