import GateNetwork.Proofs.DenseWrites
import GateNetwork.Proofs.OperatorMatrix

/-!
# Scratch memory as a memory

Leases and contractions see the scratch pool as one row of cells, all zero at first, that keeps what
is written to it. The pool itself commits its cells late and hands out prefixes of them. Both are
compared through the contents of the committed cells, taken to be zero beyond them: growing leaves
the contents alone, and what a lease or a contraction writes is what changes in them.
-/

namespace GateNetwork

variable {α ρ : Type}

/-! ## The pool -/

namespace Scratch

section

variable [Zero α] {s s' s'' : Scratch α} {ws vs : List (Nat × α)}

/-- The pool `s'` is the pool `s` after writes. It may have committed more cells, none of them past
the limit. -/
structure Wrote (s s' : Scratch α) (ws : List (Nat × α)) : Prop where
  limit : s'.limit = s.limit
  holds : contents s'.memory = written (contents s.memory) ws
  grows : s.memory.size ≤ s'.memory.size
  bounded : s'.memory.size ≤ max s.memory.size s.limit

theorem Wrote.refl (s : Scratch α) : Wrote s s [] := ⟨rfl, rfl, le_rfl, le_max_left _ _⟩

theorem Wrote.trans (h : Wrote s s' ws) (h' : Wrote s' s'' vs) : Wrote s s'' (ws ++ vs) where
  limit := h'.limit.trans h.limit
  holds := by rw [h'.holds, h.holds, written_append]
  grows := h.grows.trans h'.grows
  bounded := by
    have hs := h.bounded
    have hs' := h'.bounded
    rw [h.limit] at hs'
    omega

/-- A granted lease shows the leading cells, and commits them if they were not committed. -/
structure Leased (s : Scratch α) (required : Nat) (cells : Array α) (s' : Scratch α) : Prop where
  size : cells.size = cellsFor required
  le_limit : cells.size ≤ s.limit
  cell : ∀ i, i < cells.size → contents cells i = contents s.memory i
  committed : cells.size ≤ s'.memory.size
  wrote : Wrote s s' []

omit [Zero α] in
theorem cellsFor_le {required : Nat} (h : required ≤ s.capacity) : cellsFor required ≤ s.limit := by
  have hle : required ≤ s.limit * 16 := h
  show (required + 15) / 16 ≤ s.limit
  omega

theorem contents_commit (s : Scratch α) (cells : Nat) :
    contents (s.commit cells).memory = contents s.memory := by
  funext i
  rw [commit, contents_append]
  split
  · rfl
  · rename_i hi
    rw [contents_of_le (Nat.not_lt.1 hi)]
    simp only [contents, Array.getD_eq_getD_getElem?, Array.getElem?_replicate]
    split <;> rfl

theorem exists_leased {required : Nat} (h : required ≤ s.capacity) :
    ∃ cells s', s.lease required = .ok (cells, s') ∧ Leased s required cells s' := by
  have hle := s.le_size_commit (cellsFor required)
  have hcells : ((s.commit (cellsFor required)).memory.extract 0 (cellsFor required)).size =
      cellsFor required := by
    rw [Array.size_extract, Nat.min_eq_left hle, Nat.sub_zero]
  have hlimit := cellsFor_le h
  refine ⟨_, _, by rw [lease, check_ok h], hcells, hcells.trans_le hlimit, fun i hi => ?_,
    hcells.trans_le hle, rfl, contents_commit s _, ?_, ?_⟩
  · rw [← contents_commit s (cellsFor required)]
    rw [hcells] at hi
    simp only [contents, Array.getD_eq_getD_getElem?, Array.getElem?_extract,
      Nat.zero_add, Nat.sub_zero, Nat.min_eq_left hle, if_pos hi]
  · simp [commit]
  · simp only [commit, Array.size_append, Array.size_replicate]
    omega

/-- What was written through a lease is written to the pool. -/
theorem Leased.giveBack {required : Nat} {cells c : Array α} (h : Leased s required cells s')
    (hsize : c.size = cells.size) (hwritten : contents c = written (contents cells) ws)
    (hws : ∀ w ∈ ws, w.1 < cells.size) : Wrote s (s'.giveBack c) ws := by
  have hmemory : (s'.giveBack c).memory.size = s'.memory.size := size_overwrite s'.memory c
  refine ⟨h.wrote.limit, funext fun i => ?_, h.wrote.grows.trans hmemory.ge,
    hmemory.trans_le h.wrote.bounded⟩
  have hcell : contents (s'.giveBack c).memory i =
      if i < cells.size then contents c i else contents s'.memory i := by
    rw [← hsize]
    exact contents_overwrite (hsize.trans_le h.committed) i
  rw [hcell]
  split
  · rename_i hi
    rw [hwritten, written_congr (h.cell i hi)]
  · rename_i hi
    have hnone : ∀ w ∈ ws, w.1 ≠ i := by
      rintro w hw rfl
      exact hi (hws w hw)
    rw [h.wrote.holds, written_of_forall_ne hnone]
    rfl

end

/-! ## Uses -/

variable [Zero α] [One α] [Add α] [Mul α] [Conj α] [Magnitude α ρ] [Zero ρ] [Add ρ]

inductive Use (α : Type) where
  /-- A lease; what is written through it, in order, may depend on what its cells held. -/
  | lease (required : Nat) (assign : Array α → List (Nat × α))
  | contract (a : Arena α) (net : Network)
  | access (a : Arena α) (net : Network) (q : Query)

variable (ρ) in
/-- What a use writes, and the pool after it. Through a lease only its own cells can be written. -/
def use (s : Scratch α) : Use α → List (Nat × α) × Scratch α
  | .lease required assign =>
    match s.lease required with
    | .error _ => ([], s)
    | .ok (cells, leased) =>
      ((assign cells).filter fun w => w.1 < cells.size,
        leased.giveBack ((assign cells).foldl (fun c w => c.setIfInBounds w.1 w.2) cells))
  | .contract a net =>
    let bench : Bench α Unit := ⟨s, ()⟩
    (if Dense.workspace net.qubits ≤ s.capacity then Dense.writes a net else [],
      ((Dense.contract a net).final bench).scratch)
  | .access a net q =>
    let bench : Bench α Unit := ⟨s, ()⟩
    (if Dense.workspace net.qubits ≤ s.capacity ∧ (q.pattern net.qubits).isOk then
      Dense.writes a net else [],
      ((Dense.access a net q : Attempt Error (Bench α Unit) (Slice α ρ)).final bench).scratch)

variable (ρ) in
def run (s : Scratch α) : List (Use α) → Scratch α
  | [] => s
  | u :: us => (s.use ρ u).2.run us

variable (ρ) in
/-- All that was written, in order. -/
def log (s : Scratch α) : List (Use α) → List (Nat × α)
  | [] => []
  | u :: us => (s.use ρ u).1 ++ (s.use ρ u).2.log us

section

variable {s : Scratch α} {a : Arena α} {net : Network}

omit [Magnitude α ρ] [Zero ρ] [Add ρ] in
theorem wrote_granted (hfit : Dense.workspace net.qubits ≤ s.capacity) :
    Wrote s ((Dense.contract a net).final (⟨s, ()⟩ : Bench α Unit)).scratch
      (Dense.writes a net) := by
  obtain ⟨cells, leased, hlease, hleased⟩ := exists_leased hfit
  -- A workspace that is granted is two cells for each amplitude, so the buffers fill the lease.
  have hcells : cells.size = 2 ^ net.qubits + 2 ^ net.qubits := by
    rw [hleased.size, Dense.workspace_eq (Dense.lt_of_workspace_le hfit)]
    show (32 * 2 ^ net.qubits + 15) / 16 = 2 ^ net.qubits + 2 ^ net.qubits
    omega
  have hfinal : ((Dense.contract a net).final (⟨s, ()⟩ : Bench α Unit)).scratch =
      leased.giveBack ((Dense.Buffers.ofCells cells).run a net.ops).2.cells := by
    simp only [Attempt.final, Dense.contract, hlease]
    cases ((Dense.Buffers.ofCells cells).run a net.ops).1 <;> rfl
  rw [hfinal]
  refine hleased.giveBack (Dense.size_cells_run hcells) (Dense.contents_run hcells) fun w hw => ?_
  exact (Dense.lt_of_mem_writes hw).trans_eq hcells.symm

omit [Magnitude α ρ] [Zero ρ] [Add ρ] in
theorem final_refused (hlarge : s.capacity < Dense.workspace net.qubits) :
    ((Dense.contract a net).final (⟨s, ()⟩ : Bench α Unit)).scratch = s := by
  rw [Attempt.final, Dense.contract, lease_error hlarge]

theorem use_refused (hlarge : s.capacity < Dense.workspace net.qubits) :
    s.use ρ (.contract a net) = ([], s) := by
  rw [use, if_neg (Nat.not_le.2 hlarge), final_refused hlarge]

theorem wrote_contract :
    Wrote s (s.use ρ (.contract a net)).2 (s.use ρ (.contract a net)).1 := by
  rcases Nat.lt_or_ge s.capacity (Dense.workspace net.qubits) with hlarge | hfit
  · rw [use_refused hlarge]
    exact .refl s
  · rw [use, if_pos hfit]
    exact wrote_granted hfit

/-- An access contracts the network if its workspace is granted and its pins can be read. -/
theorem final_access (q : Query) :
    ((Dense.access a net q : Attempt Error (Bench α Unit) (Slice α ρ)).final ⟨s, ()⟩).scratch =
      if Dense.workspace net.qubits ≤ s.capacity ∧ (q.pattern net.qubits).isOk then
        ((Dense.contract a net).final (⟨s, ()⟩ : Bench α Unit)).scratch else s := by
  rw [Dense.access, Attempt.final_bind_ok (Attempt.get_apply _), Attempt.final_ofExcept_bind]
  by_cases hfit : Dense.workspace net.qubits ≤ s.capacity
  · rw [check_ok hfit]
    cases hpins : q.pattern net.qubits with
    | error e =>
      rw [if_neg fun h => Bool.false_ne_true h.2]
      simp only [Attempt.final_ofExcept_bind]
    | ok pins =>
      rw [if_pos ⟨hfit, rfl⟩]
      simp only [Attempt.final_ofExcept_bind]
      refine congrArg Bench.scratch (Attempt.final_bind_of_final (fun v t => ?_) _)
      cases Dense.slice? net.qubits pins.1 pins.2 v <;> rfl
  · rw [check_error (Nat.not_le.1 hfit), if_neg fun h => hfit h.1]

theorem use_access (s : Scratch α) (q : Query) : s.use ρ (.access a net q) =
    if (q.pattern net.qubits).isOk then s.use ρ (.contract a net) else ([], s) := by
  simp only [use, final_access]
  by_cases hfit : Dense.workspace net.qubits ≤ s.capacity
  · by_cases hpins : (q.pattern net.qubits).isOk <;> simp [hfit, hpins]
  · simp [hfit, final_refused (Nat.not_le.1 hfit)]

theorem wrote_use (s : Scratch α) (u : Use α) : Wrote s (s.use ρ u).2 (s.use ρ u).1 := by
  cases u with
  | lease required assign =>
    rcases Nat.lt_or_ge s.capacity required with hlarge | hfit
    · simp only [use, lease_error hlarge]
      exact .refl s
    · obtain ⟨cells, leased, hlease, hleased⟩ := exists_leased hfit
      simp only [use, hlease]
      refine hleased.giveBack (size_setAll cells _) (contents_setAll cells _) fun w hw => ?_
      exact of_decide_eq_true (List.mem_filter.1 hw).2
  | contract a net => exact wrote_contract
  | access a net q =>
    rw [use_access]
    split
    · exact wrote_contract
    · exact .refl s

theorem wrote_run (s : Scratch α) (us : List (Use α)) : Wrote s (s.run ρ us) (s.log ρ us) := by
  induction us generalizing s with
  | nil => exact .refl s
  | cons u us ih => exact (wrote_use s u).trans (ih (s.use ρ u).2)

end

variable (ρ) in
/-- However it was used, a pool is a memory of fixed size that is zero at first: leases within its
capacity, a whole number of cells of sixteen bytes, see what was written there last. -/
theorem run_refines_memory {bytes : Nat} (hbytes : bytes < 2 ^ 64) (uses : List (Use α)) :
    let s := (ofBytes bytes : Scratch α).run ρ uses
    let log := (ofBytes bytes : Scratch α).log ρ uses
    -- A lease beyond the capacity is refused, and changes nothing.
    (∀ required, 16 * (bytes / 16) < required →
      s.lease required = .error (.workspace required (16 * (bytes / 16))) ∧
        ∀ assign, s.use ρ (.lease required assign) = ([], s)) ∧
    -- A lease within it is granted, and shows the last write to each of its cells.
    (∀ required, required ≤ 16 * (bytes / 16) → ∃ cells leased,
      s.lease required = .ok (cells, leased) ∧ cells.size = required ⌈/⌉ 16 ∧
        cells.size ≤ bytes / 16 ∧ ∀ i, i < cells.size →
          (∀ before v after, log = before ++ (i, v) :: after → (∀ w ∈ after, w.1 ≠ i) →
            cells[i]? = some v) ∧
          ((∀ w ∈ log, w.1 ≠ i) → cells[i]? = some 0)) ∧
    -- A contraction writes the vectors after its operators, to two halves by turns, or nothing.
    (∀ a net, 16 * (bytes / 16) < Dense.workspace net.qubits →
      s.use ρ (.contract a net) = ([], s)) ∧
    (∀ a net, Dense.workspace net.qubits ≤ 16 * (bytes / 16) →
      (∀ op ∈ net.ops, op.FitsOrDead a net.qubits) → (s.use ρ (.contract a net)).1 =
        Dense.halves (2 ^ net.qubits) false (net.stages a)) ∧
    (∀ a net q, s.use ρ (.access a net q) =
      if (q.pattern net.qubits).isOk then s.use ρ (.contract a net) else ([], s)) ∧
    -- The committed cells are no more than there are, and no fewer later on.
    s.memory.size ≤ bytes / 16 ∧ ∀ later, s.memory.size ≤ (s.run ρ later).memory.size := by
  intro s log
  have hfresh : (ofBytes bytes : Scratch α).limit = bytes / 16 := by
    have hword : min bytes (2 ^ 64 - 1) = bytes := by omega
    show min bytes (2 ^ 64 - 1) / 16 = bytes / 16
    rw [hword]
  have hwrote : Wrote (ofBytes bytes) s log := wrote_run (ofBytes bytes) uses
  have hlimit : s.limit = bytes / 16 := hwrote.limit.trans hfresh
  have hcapacity : s.capacity = 16 * (bytes / 16) := by
    rw [capacity, hlimit, mul_comm]
    rfl
  have hzero : contents (ofBytes bytes : Scratch α).memory = fun _ => 0 :=
    funext fun i => contents_of_le (Nat.zero_le i)
  rw [← hcapacity]
  refine ⟨fun required hlarge => ?_, fun required hfit => ?_, fun a net => use_refused,
    fun a net hfit hops => ?_, fun a net q => use_access s q, ?_, fun later => ?_⟩
  · have hrefused := lease_error hlarge
    exact ⟨hrefused, fun assign => by simp only [use, hrefused]⟩
  · obtain ⟨cells, leased, hlease, hleased⟩ := exists_leased hfit
    have hsize : cells.size = required ⌈/⌉ 16 := by
      rw [hleased.size, Nat.ceilDiv_eq_add_pred_div]
      rfl
    refine ⟨cells, leased, hlease, hsize, hlimit ▸ hleased.le_limit, fun i hi => ?_⟩
    have hcell : cells[i]? = some (written (fun _ => 0) log i) := by
      rw [getElem?_eq_contents hi, hleased.cell i hi, hwrote.holds, hzero]
    refine ⟨fun before v after hlog hlast => ?_, fun hnever => ?_⟩
    · rw [hcell, hlog, written_last hlast]
    · rw [hcell, written_of_forall_ne hnever]
  · rw [use, if_pos hfit]
    exact Dense.writes_eq hops
  · have hbounded := hwrote.bounded
    rw [hfresh] at hbounded
    exact hbounded.trans (max_le (Nat.zero_le _) le_rfl)
  · exact (wrote_run s later).grows

end Scratch

/-- Integers are exact scalars that can be computed with. -/
instance : Magnitude ℤ ℤ := ⟨fun z => z * z, fun z => z.natAbs⟩

/-- Six cells under a lease, the contraction of a negation over the cells of that lease, a lease
that is refused, and one that writes the first cell again. -/
theorem Scratch.run_refines_memory_six_cells :
    let a : Arena ℤ := ((Arena.empty 0).store Gate.x.matrix).2
    let net : Network := ⟨0, 1, [⟨[0], [], ⟨0, 0, 0⟩, .unitary, false⟩], 1⟩
    let uses : List (Use ℤ) := [.lease 20 fun _ => [(0, 7), (1, 8), (5, 9)], .contract a net,
      .lease 97 fun _ => [(0, 1)], .lease 16 fun cells => [(0, 4 + cells.getD 0 0)]]
    let s := (ofBytes 100).run ℤ uses
    100 < 2 ^ 64 ∧ s.lease 97 = .error (.workspace 97 96) ∧ s.memory.size ≤ 6 ∧
      (s.use ℤ (.contract a net)).1 = Dense.halves 2 false [#[1, 0], #[0, 1]] ∧
      ∃ cells leased, s.lease 80 = .ok (cells, leased) ∧ cells.size = 5 ∧ cells[0]? = some 5 ∧
        cells[1]? = some 0 ∧ cells[3]? = some 1 ∧ cells[4]? = some 0 := by
  intro a net uses
  dsimp only
  have hlog : (ofBytes 100).log ℤ uses =
      [(0, 7), (1, 8), (0, 1), (1, 0), (2, 0), (3, 1), (0, 5)] := by decide +kernel
  have hstages : net.stages a = [#[1, 0], #[0, 1]] := by decide +kernel
  have hfits : ∀ op ∈ net.ops, op.FitsOrDead a net.qubits := by
    intro op hop
    obtain rfl := List.mem_singleton.1 hop
    exact .inl ⟨by simp, by simp [Operator.wires, net], by simp [Operator.wires], by simp, _, rfl,
      rfl, rfl⟩
  obtain ⟨hrefused, hgranted, -, hwrites, -, hsize, -⟩ :=
    run_refines_memory ℤ (by decide : 100 < 2 ^ 64) uses
  obtain ⟨cells, leased, hlease, hcells, -, hcell⟩ := hgranted 80 (by decide)
  have hfive : cells.size = 5 := hcells
  rw [hlog] at hcell
  refine ⟨by decide, (hrefused 97 (by decide)).1, hsize, ?_, cells, leased, hlease, hfive, ?_⟩
  · rw [hwrites a net (by decide) hfits, hstages]
    rfl
  refine ⟨(hcell 0 (by omega)).1 [(0, 7), (1, 8), (0, 1), (1, 0), (2, 0), (3, 1)] 5 [] rfl ?_,
    (hcell 1 (by omega)).1 [(0, 7), (1, 8), (0, 1)] 0 [(2, 0), (3, 1), (0, 5)] rfl ?_,
    (hcell 3 (by omega)).1 [(0, 7), (1, 8), (0, 1), (1, 0), (2, 0)] 1 [(0, 5)] rfl ?_,
    (hcell 4 (by omega)).2 ?_⟩ <;> simp

end GateNetwork
