import GateNetwork.NetworkState.Dump
import GateNetwork.NetworkState.Export
import GateNetwork.Proofs.Amplitude
import GateNetwork.Proofs.Contractions
import GateNetwork.Proofs.Joining

/-!
# What a network answers

Each question to a state that serves a network has an answer that is settled by the network, its
stored tensors and the capacity of the pool: neither the kept vector nor the contents of the pool
show. The network view of a question is a definition here, and one lemma for each question says that
the state gives this answer and goes on serving.
-/

namespace GateNetwork

variable {α ρ σ τ : Type}

namespace Network

variable [Zero α] [One α] [Add α] [Mul α] [Conj α]

/-- What the squared norm of a network is. -/
def normAnswer [Magnitude α ρ] [Zero ρ] [Add ρ] (net : Network) (a : Arena α) (capacity : Nat) :
    Except Error ρ :=
  (net.contracted a capacity).map normSqByHalves

/-- The vector of a network for a buffer of the given length. -/
def vectorFor (net : Network) (a : Arena α) (capacity length : Nat) : Except Error (Array α) :=
  match dimension? net.qubits with
  | none => .error (.workspace maxWord capacity)
  | some dim =>
    if length ≠ dim then .error (.lengthMismatch dim length) else net.contracted a capacity

/-- What becomes of a copy of the vector of a network, and what the buffer holds then. -/
def copyAnswer (net : Network) (a : Arena α) (capacity : Nat) (buffer : Array α) :
    Except Error Unit × Array α :=
  NetworkState.copied buffer (net.vectorFor a capacity buffer.size)

/-- What becomes of a dump of a network, and what the sink has got by then. -/
def dumpAnswer (net : Network) (a : Arena α) (capacity : Nat) (line : α → String) (sink : Sink τ)
    (t : τ) : Except Error Unit × τ :=
  NetworkState.written line sink t (net.contracted a capacity)

end Network

namespace NetworkState

variable {s : NetworkState α} {net : Network} {store : Store α}

/-! ## Tensors -/

/-- The view of an operator is settled by the network and its stored tensors. -/
theorem tensor_congr {t : NetworkState α} {store' : Store α} (hs : s.network = some net)
    (ht : t.network = some net) (hkept : net.Kept store store') (position : Nat) :
    t.tensor store' position = s.tensor store position := by
  rw [tensor, tensor, getNetwork, getNetwork, hs, ht]
  show Except.bind (.ok net) _ = Except.bind (.ok net) _
  simp only [Except.bind]
  cases hop : net.ops[position]? with
  | none => rfl
  | some op => simp only [hkept op (List.mem_of_getElem? hop)]

theorem tensors_congr {t : NetworkState α} {store' : Store α} (hs : s.network = some net)
    (ht : t.network = some net) (hkept : net.Kept store store') :
    t.tensors store' = s.tensors store := by
  have hviews : t.tensor store' = s.tensor store := by
    funext position
    exact tensor_congr hs ht hkept position
  rw [tensors, tensors, getNetwork, getNetwork, hs, ht, hviews]

variable [Zero α] [One α] [Add α] [Mul α] [Conj α] [Magnitude α ρ] [Zero ρ] [Add ρ]
  {capacity : Nat}

/-! ## Amplitudes -/

/-- The amplitudes of several assignments are their answers, up to the first failure. -/
theorem amplitudes_eq (desk : Desk α σ)
    (hs : desk.state.Serves net store desk.bench.scratch.capacity) (assignments : List (List Nat)) :
    ∃ cache memory, amplitudes (Dense.backend : Backend α ρ σ) store assignments desk =
        Attempt.ofExcept (assignments.mapM
          (net.amplitudeAnswer (store.arena net.arena) desk.bench.scratch.capacity))
          (desk.refreshed cache memory) ∧
      (desk.refreshed cache memory).state.Serves net store desk.bench.scratch.capacity := by
  induction assignments generalizing desk with
  | nil => exact ⟨desk.state.cache, desk.bench.scratch.memory, rfl, hs⟩
  | cons digits rest ih =>
    obtain ⟨cache, memory, heq, hserves⟩ := amplitude_eq (ρ := ρ) desk hs digits
    rw [amplitudes, List.mapM_cons]
    cases hr : net.amplitudeAnswer (store.arena net.arena) desk.bench.scratch.capacity digits with
    | error e =>
      rw [hr] at heq
      exact ⟨cache, memory, Attempt.bind_error heq _, hserves⟩
    | ok a =>
      rw [hr] at heq
      obtain ⟨cache', memory', hrest, hserves'⟩ := ih (desk.refreshed cache memory) hserves
      refine ⟨cache', memory', (Attempt.bind_ok heq _).trans ?_, hserves'⟩
      exact Attempt.map_ofExcept hrest (a :: ·)

/-! ## The whole state -/

/-- The squared norm does not depend on what the state keeps. -/
theorem norm_of_fits (hs : s.network = some net) (hnet : net.Fits (store.arena net.arena))
    (bench : Bench α σ) : ∃ memory, norm (Dense.backend : Backend α ρ σ) store s bench =
      Attempt.ofExcept (net.normAnswer (store.arena net.arena) bench.scratch.capacity)
        (bench.withMemory memory) := by
  have hgot : s.getNetwork = .ok net := by rw [getNetwork, hs]
  obtain ⟨memory, haccess⟩ := Dense.access_eq (ρ := ρ) hnet bench fun _ =>
    ⟨pattern_unpinned net.qubits s.settings.hyperSamples, Nat.two_pow_pos _⟩
  refine ⟨memory, ?_⟩
  rw [norm, hgot, Attempt.bind_ok (Attempt.ofExcept_ok net bench), Network.normAnswer]
  refine (Attempt.map_ofExcept haccess Slice.normSq).trans ?_
  cases net.contracted (store.arena net.arena) bench.scratch.capacity <;> rfl

theorem norm_eq {bench : Bench α σ} (hs : s.Serves net store bench.scratch.capacity) :
    ∃ memory, norm (Dense.backend : Backend α ρ σ) store s bench =
      Attempt.ofExcept (net.normAnswer (store.arena net.arena) bench.scratch.capacity)
        (bench.withMemory memory) :=
  norm_of_fits hs.network hs.built.fits bench

theorem vectorToCopy_eq {bench : Bench α σ} (hs : s.Serves net store bench.scratch.capacity)
    (length : Nat) : ∃ memory,
      vectorToCopy (Dense.backend : Backend α ρ σ) store s length bench =
        Attempt.ofExcept (net.vectorFor (store.arena net.arena) bench.scratch.capacity length)
          (bench.withMemory memory) := by
  rw [vectorToCopy, hs.getNetwork_eq, Attempt.bind_ok (Attempt.ofExcept_ok net bench), hs.qubits,
    Network.vectorFor]
  cases dimension? net.qubits with
  | none => exact ⟨bench.scratch.memory, rfl⟩
  | some dim =>
    dsimp only
    by_cases hlength : length ≠ dim
    · rw [if_pos hlength, if_pos hlength]
      exact ⟨bench.scratch.memory, rfl⟩
    · obtain ⟨memory, hcontract⟩ := Dense.contract_eq hs.built.fits bench
      rw [if_neg hlength, if_neg hlength]
      exact ⟨memory, hcontract⟩

theorem copyTo_eq {bench : Bench α σ} (hs : s.Serves net store bench.scratch.capacity)
    (buffer : Array α) : ∃ memory,
      copyTo (Dense.backend : Backend α ρ σ) store s (bench, buffer) =
        Attempt.ofExcept
          (net.copyAnswer (store.arena net.arena) bench.scratch.capacity buffer).1
          (bench.withMemory memory,
            (net.copyAnswer (store.arena net.arena) bench.scratch.capacity buffer).2) := by
  obtain ⟨memory, hvector⟩ := vectorToCopy_eq (ρ := ρ) hs buffer.size
  exact ⟨memory, copyTo_of_vector hvector⟩

/-- The vector to be written out is what contraction gives, kept or not. -/
theorem vectorToDump_eq {bench : Bench α σ} (hs : s.Serves net store bench.scratch.capacity) :
    ∃ memory, vectorToDump (Dense.backend : Backend α ρ σ) store s bench =
      Attempt.ofExcept (net.contracted (store.arena net.arena) bench.scratch.capacity)
        (bench.withMemory memory) := by
  have hready : s.readyVector? = s.vectorAt? net.version := by rw [readyVector?, hs.network]
  unfold vectorToDump
  cases hv : s.vectorAt? net.version with
  | some v =>
    refine ⟨bench.scratch.memory, ?_⟩
    rw [hready, hv, hs.kept v hv]
    rfl
  | none =>
    obtain ⟨memory, hcontract⟩ := Dense.contract_eq hs.built.fits bench
    refine ⟨memory, ?_⟩
    rw [hready, hv]
    show (Attempt.ofExcept s.getNetwork >>= _) bench = _
    rw [hs.getNetwork_eq, Attempt.bind_ok (Attempt.ofExcept_ok net bench)]
    exact hcontract

theorem dump_eq {bench : Bench α σ} (hs : s.Serves net store bench.scratch.capacity)
    (line : α → String) (sink : Sink τ) (t : τ) : ∃ memory,
      dump (Dense.backend : Backend α ρ σ) store s line sink (bench, t) =
        Attempt.ofExcept
          (net.dumpAnswer (store.arena net.arena) bench.scratch.capacity line sink t).1
          (bench.withMemory memory,
            (net.dumpAnswer (store.arena net.arena) bench.scratch.capacity line sink t).2) := by
  obtain ⟨memory, hvector⟩ := vectorToDump_eq (ρ := ρ) hs
  exact ⟨memory, dump_of_vector hvector line sink t⟩

end NetworkState

end GateNetwork
