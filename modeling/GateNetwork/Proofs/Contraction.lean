import GateNetwork.Backend.Dense
import GateNetwork.Proofs.Action

/-!
# What a contraction gives

The vector of a network is the all-zero state after the actions of its operators. The dense backend
gives exactly this vector when the workspace fits the scratch pool, and otherwise refuses before any
work is done. What the pool holds plays no part: the first buffer is set up afresh and the second is
written before it is read. Nothing but the pool's memory changes.
-/

namespace GateNetwork

variable {α ρ σ : Type}

/-! ## Workspaces -/

theorem capacity_lt (s : Scratch α) : s.capacity < 2 ^ 64 := by
  have hlimit : s.limit ≤ (2 ^ 64 - 1) / 16 := s.limit_le
  show s.limit * 16 < 2 ^ 64
  omega

theorem wide_le_of_pow_le {n bytes : Nat} (hbytes : bytes < 2 ^ 64) (hfit : 32 * 2 ^ n ≤ bytes) :
    n < 59 := by
  by_contra hlarge
  have hpow : 2 ^ 59 ≤ 2 ^ n := Nat.pow_le_pow_right (by decide) (Nat.not_lt.1 hlarge)
  omega

/-- A workspace that can be counted is two buffers of sixteen bytes for each amplitude. -/
theorem Dense.workspace_eq {n : Nat} (hn : n < 59) : Dense.workspace n = 32 * 2 ^ n := by
  have hpow : 2 ^ n ≤ 2 ^ 58 := Nat.pow_le_pow_right (by decide) (by omega)
  have hdim : dimension? n = some (2 ^ n) := dimension?_eq_some.2 ⟨by omega, rfl⟩
  rw [workspace, hdim]
  show min (2 * 16 * 2 ^ n) (2 ^ 64 - 1) = 32 * 2 ^ n
  omega

theorem Dense.workspace_saturated {n : Nat} (hn : 59 ≤ n) : Dense.workspace n = 2 ^ 64 - 1 := by
  unfold workspace
  split
  · rfl
  · rename_i dim hdim
    obtain ⟨-, rfl⟩ := dimension?_eq_some.1 hdim
    have hpow : 2 ^ 59 ≤ 2 ^ n := Nat.pow_le_pow_right (by decide) hn
    show min (2 * 16 * 2 ^ n) (2 ^ 64 - 1) = 2 ^ 64 - 1
    omega

/-- The pool is large enough when it holds two buffers, however wide the register is. -/
theorem Dense.workspace_le_iff (s : Scratch α) (n : Nat) :
    Dense.workspace n ≤ s.capacity ↔ 32 * 2 ^ n ≤ s.capacity := by
  have hlt := capacity_lt s
  by_cases hn : n < 59
  · rw [workspace_eq hn]
  · have hpow : 2 ^ 59 ≤ 2 ^ n := Nat.pow_le_pow_right (by decide) (Nat.not_lt.1 hn)
    rw [workspace_saturated (Nat.not_lt.1 hn)]
    have hcapacity : s.capacity ≠ 2 ^ 64 - 1 := by
      show s.limit * 16 ≠ 2 ^ 64 - 1
      omega
    omega

namespace Scratch

theorem capacity_ofBytes (s : Scratch α) :
    (ofBytes s.capacity : Scratch α).capacity = s.capacity := by
  have hcounted : s.limit * amplitudeBytes ≤ maxWord := Nat.mul_le_of_le_div _ _ _ s.limit_le
  simp only [capacity, ofBytes]
  rw [Nat.min_eq_left hcounted, Nat.mul_div_cancel _ (by decide)]

theorem check_ok {s : Scratch α} {required : Nat} (h : required ≤ s.capacity) :
    s.check required = .ok () := by
  rw [check, if_neg (Nat.not_lt.2 h)]

theorem check_error {s : Scratch α} {required : Nat} (h : s.capacity < required) :
    s.check required = .error (.workspace required s.capacity) := by
  rw [check, if_pos h]

theorem le_size_commit [Zero α] (s : Scratch α) (cells : Nat) :
    cells ≤ (s.commit cells).memory.size := by
  simp [commit]
  omega

/-- A lease within the capacity exposes one cell for each sixteen bytes, and changes nothing but the
memory. -/
theorem lease_ok [Zero α] {s : Scratch α} {required : Nat} (h : required ≤ s.capacity) :
    ∃ cells memory, s.lease required = .ok (cells, { s with memory := memory }) ∧
      cells.size = cellsFor required := by
  refine ⟨_, _, by rw [lease, check_ok h]; rfl, ?_⟩
  simpa using s.le_size_commit (cellsFor required)

theorem lease_error [Zero α] {s : Scratch α} {required : Nat} (h : s.capacity < required) :
    s.lease required = .error (.workspace required s.capacity) := by
  rw [lease, check_error h]

end Scratch

/-! ## Vectors of networks -/

section

variable [Zero α] [One α] [Add α] [Mul α] [Conj α]

namespace Network

/-- The vector that a network prepares from the all-zero state. -/
def vector (net : Network) (a : Arena α) : Array α :=
  Action.applyAll (net.ops.map a.action) (Dense.Buffers.zeroState (2 ^ net.qubits))

@[simp] theorem size_vector (net : Network) (a : Arena α) :
    (net.vector a).size = 2 ^ net.qubits := by
  rw [vector, Action.size_applyAll, Dense.Buffers.zeroState, Array.size_ofFn]

/-- The vector of a network is settled by the tensors of its operators. -/
theorem vector_congr {net : Network} {a b : Arena α}
    (h : ∀ op ∈ net.ops, b.get op.tensor = a.get op.tensor) : net.vector b = net.vector a := by
  rw [vector, vector, Arena.map_action_congr h]

/-- What a contraction of the network answers within a pool of the given capacity. -/
def contracted (net : Network) (a : Arena α) (capacity : Nat) : Except Error (Array α) :=
  if 32 * 2 ^ net.qubits ≤ capacity then .ok (net.vector a)
  else .error (.workspace (Dense.workspace net.qubits) capacity)

theorem contracted_eq_ok_iff {net : Network} {a : Arena α} {capacity : Nat} {v : Array α} :
    net.contracted a capacity = .ok v ↔ 32 * 2 ^ net.qubits ≤ capacity ∧ v = net.vector a := by
  unfold contracted
  split
  · rename_i hfit
    simp [hfit, eq_comm]
  · rename_i hlarge
    simp [hlarge]

theorem contracted_congr {net : Network} {a b : Arena α}
    (h : ∀ op ∈ net.ops, b.get op.tensor = a.get op.tensor) (capacity : Nat) :
    net.contracted b capacity = net.contracted a capacity := by
  rw [contracted, contracted, vector_congr h]

end Network

/-- The bench with another memory in its scratch pool. -/
def Bench.withMemory (bench : Bench α σ) (memory : Array α) : Bench α σ :=
  { bench with scratch := { bench.scratch with memory := memory } }

namespace Dense

omit [One α] in
/-- Running operators that fit, whatever the second buffer holds. -/
theorem run_of_fits {a : Arena α} {n : Nat} {ops : List Operator} (h : ∀ op ∈ ops, op.Fits a n)
    (b : Buffers α) (hb : b.current.size = 2 ^ n) :
    ∃ c, b.run a ops = (.ok (), c) ∧ c.current = Action.applyAll (ops.map a.action) b.current := by
  induction ops generalizing b with
  | nil => exact ⟨b, rfl, rfl⟩
  | cons op ops ih =>
    have hop := h op List.mem_cons_self
    obtain ⟨t, hget, -⟩ := hop.stored
    have hon := hop.on?_eq hget hb
    -- The next operator runs on swapped buffers, which is why the induction is over all of them.
    obtain ⟨c, hrun, hcurrent⟩ := ih (fun o ho => h o (List.mem_cons_of_mem op ho))
      (b.advance ((a.action op).apply b.current)) (by simpa [Buffers.advance] using hb)
    refine ⟨c, ?_, hcurrent⟩
    rw [Buffers.run, hget]
    simp only [hon]
    exact hrun

omit [Add α] [Mul α] [Conj α] in
/-- The first buffer of a granted lease has one cell for each basis state. -/
theorem size_current_ofCells {n : Nat} (hn : n < 59) {cells : Array α}
    (hcells : cells.size = Scratch.cellsFor (workspace n)) :
    cells.size / 2 = 2 ^ n ∧ (Buffers.ofCells cells).current.size = 2 ^ n := by
  have hdim : cells.size / 2 = 2 ^ n := by
    rw [hcells, workspace_eq hn]
    show (32 * 2 ^ n + 15) / 16 / 2 = 2 ^ n
    omega
  refine ⟨hdim, ?_⟩
  rw [Buffers.ofCells, Buffers.zeroState, Array.size_ofFn, hdim]

/-- Contracting a network gives its vector if the workspace fits the pool, and leaves everything but
the pool's memory alone. -/
theorem contract_eq {a : Arena α} {net : Network} (h : net.Fits a) (bench : Bench α σ) :
    ∃ memory, contract a net bench =
      Attempt.ofExcept (net.contracted a bench.scratch.capacity) (bench.withMemory memory) := by
  by_cases hfit : 32 * 2 ^ net.qubits ≤ bench.scratch.capacity
  · have hn : net.qubits < 59 := wide_le_of_pow_le (capacity_lt bench.scratch) hfit
    obtain ⟨cells, memory, hlease, hcells⟩ :=
      Scratch.lease_ok ((workspace_le_iff bench.scratch net.qubits).2 hfit)
    -- The first buffer is filled anew, and the second one is written before it is read, so only
    -- the number of the leased cells matters.
    obtain ⟨hdim, hsize⟩ := size_current_ofCells hn hcells
    obtain ⟨c, hrun, hcurrent⟩ := run_of_fits h (Buffers.ofCells cells) hsize
    have hvector : c.current = net.vector a := by
      rw [hcurrent, Network.vector, Buffers.ofCells, hdim]
    refine ⟨overwrite memory c.cells, ?_⟩
    rw [contract, hlease, Network.contracted, if_pos hfit, ← hvector]
    simp only [hrun, Scratch.giveBack, Bench.withMemory, Attempt.ofExcept_ok]
  · have hlt : bench.scratch.capacity < workspace net.qubits :=
      Nat.not_le.1 fun hle => hfit ((workspace_le_iff bench.scratch net.qubits).1 hle)
    refine ⟨bench.scratch.memory, ?_⟩
    rw [contract, Scratch.lease_error hlt, Network.contracted, if_neg hfit]
    rfl

/-- A pool that holds two buffers is enough for the backend to answer with the vector. -/
theorem materialize_eq_vector [Magnitude α ρ] [Zero ρ] [Add ρ] {a : Arena α} {net : Network}
    (h : net.Fits a) {bench : Bench α σ} (hfit : 32 * 2 ^ net.qubits ≤ bench.scratch.capacity) :
    ∃ bench', (backend : Backend α ρ σ).materialize a net bench = .ok (net.vector a) bench' := by
  obtain ⟨memory, hcontract⟩ := contract_eq h bench
  rw [Network.contracted_eq_ok_iff.2 ⟨hfit, rfl⟩] at hcontract
  exact ⟨bench.withMemory memory, hcontract⟩

end Dense

end

end GateNetwork
