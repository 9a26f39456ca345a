import GateNetwork.Amplitude
import GateNetwork.Proofs.Serving

/-!
# Amplitudes by either way

An amplitude is read from the vector of the whole network or accessed on its own. Both ways check
the assignment first and the workspace next, and both end at the same entry of the vector of the
network, so the answer shows neither the way that was taken nor the questions asked before.

Sampling reads the current vector too and changes no more than that, so the states that can be
reached by appends, amplitudes and samples all answer for their network.
-/

namespace GateNetwork

variable {α ρ σ : Type} [Zero α] [One α] [Add α] [Mul α] [Conj α]

/-- What the amplitude of an assignment is, within a pool of the given capacity. -/
def Network.amplitudeAnswer (net : Network) (a : Arena α) (capacity : Nat) (digits : List Nat) :
    Except Error α := do
  let index ← basisIndex digits net.qubits
  let v ← net.contracted a capacity
  return v.getD index 0

namespace NetworkState

variable [Magnitude α ρ] [Zero ρ] [Add ρ] {net : Network} {store : Store α} (desk : Desk α σ)

/-- On a small register the entry of the current vector is read. -/
theorem amplitude_eq_of_le (hs : desk.state.Serves net store desk.bench.scratch.capacity)
    (hsmall : desk.state.qubits ≤ desk.state.settings.vectorQubits) (digits : List Nat) :
    ∃ cache memory, amplitude (Dense.backend : Backend α ρ σ) store digits desk =
        Attempt.ofExcept
          (net.amplitudeAnswer (store.arena net.arena) desk.bench.scratch.capacity digits)
          (desk.refreshed cache memory) ∧
      (desk.refreshed cache memory).state.Serves net store desk.bench.scratch.capacity := by
  rw [amplitude, Attempt.bind_ok (Attempt.get_apply desk), hs.qubits, Network.amplitudeAnswer]
  cases hi : basisIndex digits net.qubits with
  | error e =>
    exact ⟨desk.state.cache, desk.bench.scratch.memory,
      Attempt.bind_error (Attempt.ofExcept_error e desk) _, hs⟩
  | ok i =>
    obtain ⟨cache, memory, hcurrent, hserves⟩ := currentVector_eq (ρ := ρ) hs
    refine ⟨cache, memory, ?_, hserves⟩
    rw [Attempt.bind_ok (Attempt.ofExcept_ok i desk), if_pos (hs.qubits ▸ hsmall)]
    cases hv : net.contracted (store.arena net.arena) desk.bench.scratch.capacity with
    | error e =>
      rw [hv] at hcurrent
      exact Attempt.bind_error hcurrent _
    | ok v =>
      obtain ⟨hfit, rfl⟩ := Network.contracted_eq_ok_iff.1 hv
      have hn := wide_le_of_pow_le (capacity_lt desk.bench.scratch) hfit
      have hlt : i < (net.vector (store.arena net.arena)).size := by
        rw [Network.size_vector]
        exact (eq_indexOf_of_basisIndex (by omega) hi).2.2.2
      rw [hv] at hcurrent
      rw [Attempt.bind_ok hcurrent, getElem?_eq_some_getD hlt]
      rfl

/-- On a large register the amplitude is accessed with every mode pinned. -/
theorem amplitude_eq_of_lt (hs : desk.state.Serves net store desk.bench.scratch.capacity)
    (hlarge : ¬ desk.state.qubits ≤ desk.state.settings.vectorQubits) (digits : List Nat) :
    ∃ memory, amplitude (Dense.backend : Backend α ρ σ) store digits desk =
      Attempt.ofExcept
        (net.amplitudeAnswer (store.arena net.arena) desk.bench.scratch.capacity digits)
        (desk.refreshed desk.state.cache memory) := by
  rw [amplitude, Attempt.bind_ok (Attempt.get_apply desk), hs.qubits, Network.amplitudeAnswer]
  cases hi : basisIndex digits net.qubits with
  | error e =>
    exact ⟨desk.bench.scratch.memory, Attempt.bind_error (Attempt.ofExcept_error e desk) _⟩
  | ok i =>
    rw [Attempt.bind_ok (Attempt.ofExcept_ok i desk), if_neg (hs.qubits ▸ hlarge),
      hs.getNetwork_eq, Attempt.bind_ok (Attempt.ofExcept_ok net desk)]
    -- An assignment that has an index has valid pins, so only the workspace can be refused.
    obtain ⟨memory, haccess⟩ := Dense.access_pinAll_eq (ρ := ρ) hs.built.fits desk.bench hi
      desk.state.settings.hyperSamples
    have hbench := Desk.atBench_eq haccess
    refine ⟨memory, (Dense.first_eq hbench _).trans ?_⟩
    cases net.contracted (store.arena net.arena) desk.bench.scratch.capacity <;> rfl

/-- The amplitude of an assignment is its answer, by either way. -/
theorem amplitude_eq (hs : desk.state.Serves net store desk.bench.scratch.capacity)
    (digits : List Nat) :
    ∃ cache memory, amplitude (Dense.backend : Backend α ρ σ) store digits desk =
        Attempt.ofExcept
          (net.amplitudeAnswer (store.arena net.arena) desk.bench.scratch.capacity digits)
          (desk.refreshed cache memory) ∧
      (desk.refreshed cache memory).state.Serves net store desk.bench.scratch.capacity := by
  by_cases hsmall : desk.state.qubits ≤ desk.state.settings.vectorQubits
  · exact amplitude_eq_of_le desk hs hsmall digits
  · obtain ⟨memory, heq⟩ := amplitude_eq_of_lt (ρ := ρ) desk hs hsmall digits
    exact ⟨desk.state.cache, memory, heq, hs⟩

/-- Sampling leaves the state answering for its network. -/
theorem sample_final [Mul ρ] [LE ρ] [DecidableLE ρ] {τ : Type}
    (hs : desk.state.Serves net store desk.bench.scratch.capacity) (next : τ → ρ × τ)
    (shots : Nat) (source : τ) : ∃ cache memory,
      ((sample (Dense.backend : Backend α ρ σ) store next shots).final (desk, source)).1 =
        desk.refreshed cache memory ∧
      (desk.refreshed cache memory).state.Serves net store desk.bench.scratch.capacity := by
  rw [sample, Attempt.fst_final_beside, weightsToDraw]
  split
  · exact ⟨desk.state.cache, desk.bench.scratch.memory, rfl, hs⟩
  · obtain ⟨cache, memory, hcurrent, hserves⟩ := currentVector_eq (ρ := ρ) hs
    refine ⟨cache, memory, ?_, hserves⟩
    show Attempt.final (_ >>= _) desk = _
    cases hv : net.contracted (store.arena net.arena) desk.bench.scratch.capacity with
    | error e =>
      rw [hv] at hcurrent
      rw [Attempt.final, Attempt.bind_error hcurrent]
    | ok v =>
      rw [hv] at hcurrent
      rw [Attempt.final, Attempt.bind_ok hcurrent]
      show Attempt.final (if _ then _ else _) (desk.refreshed cache memory) = _
      split
      · rfl
      · rfl

/-- The states of a network that can be reached at pools of one capacity: fresh ones, and those that
come from them by appends, amplitudes and samples, while the store keeps the tensors. -/
inductive Reached (capacity : Nat) : Store α → NetworkState α → Prop where
  | fresh {store : Store α} {net : Network} (hnet : net.Built store) (settings : Settings) :
    Reached capacity store (ofNetwork net settings)
  /-- One more operator was accepted; a list has fewer operators than there are words. -/
  | append {store : Store α} {s : NetworkState α} {net net' : Network} {op : Operator}
      {position : Nat} (h : Reached capacity store s) (hnet : s.network = some net)
      (hpush : net.push store op = .ok (position, net')) (hcount : net'.size < 2 ^ 64) :
    Reached capacity store { s with network := some net' }
  | asked {ρ σ : Type} [Magnitude α ρ] [Zero ρ] [Add ρ] {store : Store α} {s : NetworkState α}
      (h : Reached capacity store s) (bench : Bench α σ)
      (hcapacity : bench.scratch.capacity = capacity) (digits : List Nat) :
    Reached capacity store
      ((amplitude (Dense.backend : Backend α ρ σ) store digits).final ⟨s, bench⟩).state
  | sampled {ρ σ τ : Type} [Magnitude α ρ] [Zero ρ] [Add ρ] [Mul ρ] [LE ρ] [DecidableLE ρ]
      {store : Store α} {s : NetworkState α} (h : Reached capacity store s) (bench : Bench α σ)
      (hcapacity : bench.scratch.capacity = capacity) (next : τ → ρ × τ) (shots : Nat)
      (source : τ) :
    Reached capacity store
      ((sample (Dense.backend : Backend α ρ σ) store next shots).final (⟨s, bench⟩, source)).1.state
  /-- The store has changed, but not the tensors of the network. -/
  | kept {store store' : Store α} {s : NetworkState α} {net : Network}
      (h : Reached capacity store s) (hnet : s.network = some net) (hkept : net.Kept store store') :
    Reached capacity store' s

omit [Magnitude α ρ] [Zero ρ] [Add ρ] in
/-- A state that can be reached answers for its network. -/
theorem Reached.serves {capacity : Nat} {s : NetworkState α} (h : s.Reached capacity store) :
    ∃ net, s.Serves net store capacity := by
  induction h with
  | fresh hnet settings => exact ⟨_, Serves.fresh hnet settings⟩
  | append _ hnet hpush hcount ih =>
    obtain ⟨net, hs⟩ := ih
    obtain rfl := Option.some.inj (hs.network.symm.trans hnet)
    exact ⟨_, hs.append hpush hcount⟩
  | @asked ρ σ _ _ _ store s _ bench hcapacity digits ih =>
    obtain ⟨net, hs⟩ := ih
    subst hcapacity
    obtain ⟨cache, memory, heq, hserves⟩ := amplitude_eq (ρ := ρ) ⟨s, bench⟩ hs digits
    exact ⟨net, by rw [Attempt.final_of_eq heq]; exact hserves⟩
  | @sampled ρ σ τ _ _ _ _ _ _ store s _ bench hcapacity next shots source ih =>
    obtain ⟨net, hs⟩ := ih
    subst hcapacity
    obtain ⟨cache, memory, heq, hserves⟩ :=
      sample_final (ρ := ρ) ⟨s, bench⟩ hs next shots source
    exact ⟨net, by rw [heq]; exact hserves⟩
  | kept _ hnet hkept ih =>
    obtain ⟨net, hs⟩ := ih
    obtain rfl := Option.some.inj (hs.network.symm.trans hnet)
    exact ⟨net, hs.keep hkept⟩

/-- Two states of one network answer every amplitude alike, however their thresholds compare and
whatever was asked of them before. -/
theorem outcome_amplitude_of_network_eq {capacity : Nat} {s t : NetworkState α}
    (hs : s.Reached capacity store) (ht : t.Reached capacity store) (hnet : s.network = t.network)
    {bench₁ bench₂ : Bench α σ} (h₁ : bench₁.scratch.capacity = capacity)
    (h₂ : bench₂.scratch.capacity = capacity) (digits : List Nat) :
    (amplitude (Dense.backend : Backend α ρ σ) store digits).outcome ⟨s, bench₁⟩ =
      (amplitude (Dense.backend : Backend α ρ σ) store digits).outcome ⟨t, bench₂⟩ := by
  obtain ⟨net, hs⟩ := hs.serves
  obtain ⟨net', ht⟩ := ht.serves
  obtain rfl := Option.some.inj (hs.network.symm.trans (hnet.trans ht.network))
  subst h₁
  obtain ⟨_, _, heq₁, -⟩ := amplitude_eq (ρ := ρ) ⟨s, bench₁⟩ hs digits
  obtain ⟨_, _, heq₂, -⟩ := amplitude_eq (ρ := ρ) ⟨t, bench₂⟩ (h₂ ▸ ht) digits
  rw [Attempt.outcome_of_eq heq₁, Attempt.outcome_of_eq heq₂, h₂]

/-- Two states of the negation network: a new one that accesses amplitudes, and one that has kept
the vector since it was asked before. -/
theorem outcome_amplitude_negation :
    let bench : Bench Amplitude Unit := ⟨.ofBytes 128, ()⟩
    let ask := amplitude (Dense.backend : Backend Amplitude Float Unit) (.sample 1)
    let s : NetworkState Amplitude := ofNetwork .negation { vectorQubits := 1 }
    let t : NetworkState Amplitude := ((ask [0, 0]).final ⟨ofNetwork .negation {}, bench⟩).state
    s.Reached 128 (.sample 1) ∧ t.Reached 128 (.sample 1) ∧ s.network = t.network ∧
      bench.scratch.capacity = 128 ∧
      (ask [1, 1]).outcome ⟨s, bench⟩ = (ask [1, 1]).outcome ⟨t, bench⟩ := by
  intro bench ask s t
  have hs : s.Reached 128 (.sample 1) := .fresh (Network.negation_built 1) _
  have ht : t.Reached 128 (.sample 1) := .asked (.fresh (Network.negation_built 1) _) bench rfl _
  have hnet : s.network = t.network := by
    obtain ⟨cache, memory, heq, -⟩ := amplitude_eq (ρ := Float) ⟨ofNetwork .negation {}, bench⟩
      (.fresh (Network.negation_built 1) _) [0, 0]
    show some Network.negation = NetworkState.network (Desk.state (Attempt.final _ _))
    rw [Attempt.final_of_eq heq]
    rfl
  exact ⟨hs, ht, hnet, rfl, outcome_amplitude_of_network_eq hs ht hnet rfl rfl [1, 1]⟩

end NetworkState

end GateNetwork
