import GateNetwork.Proofs.Basis
import GateNetwork.Proofs.Contraction

/-!
# What an access gives

An access contracts the whole network and reads the amplitudes that the pins leave free out of its
vector; every place that it reads lies within the vector.
-/

namespace GateNetwork

variable {α ρ σ : Type}

/-- Where sums may be regrouped, adding up the halves of a vector on their own gives the sum over the
whole of it. -/
theorem normSqByHalves_eq_sum [AddMonoid ρ] [Magnitude α ρ] (v : Array α) :
    normSqByHalves v = (v.toList.map normSq).sum := by
  have hlist (w : Array α) : normSqOf w = (w.toList.map normSq).sum := by
    rw [normSqOf, ← Array.foldl_toList, List.sum_eq_foldl, List.foldl_map]
  rw [normSqByHalves, hlist, hlist, ← List.sum_append, ← List.map_append]
  refine congrArg (fun xs : List α => (xs.map normSq).sum) ?_
  rw [← Array.toList_append, Array.extract_append_extract]
  simp [Nat.div_le_self]

namespace Dense

/-- The modes that a mask of pins leaves free, in ascending order. -/
def freeModes (qubits pinned : Nat) : List Nat :=
  (List.range qubits).filter fun q => !pinned.testBit q

theorem freeModes_lt {n pinned : Nat} : ∀ q ∈ freeModes n pinned, q < n :=
  fun _ hq => List.mem_range.1 (List.mem_filter.1 hq).1

theorem freeModes_pinned (n : Nat) : freeModes n (2 ^ n - 1) = [] := by
  refine List.filter_eq_nil_iff.2 fun q hq => ?_
  simp [List.mem_range.1 hq]

/-- The amplitudes of a vector that pins leave free. -/
def slice [Zero α] (qubits pinned bits : Nat) (v : Array α) : Array α :=
  Array.ofFn fun k : Fin (2 ^ (freeModes qubits pinned).length) =>
    v.getD (bits ||| spread (freeModes qubits pinned) k) 0

theorem slice?_eq [Zero α] {n pinned bits : Nat} (hbits : bits < 2 ^ n) {v : Array α}
    (hv : v.size = 2 ^ n) : slice? n pinned bits v = some (slice n pinned bits v) := by
  refine mapM_range_eq_some fun k _ => getElem?_eq_some_getD ?_
  rw [hv]
  exact Nat.or_lt_two_pow hbits (spread_lt freeModes_lt k)

/-- With every mode pinned, one amplitude is left. -/
theorem slice_pinned [Zero α] (n bits : Nat) (v : Array α) :
    (slice n (2 ^ n - 1) bits v)[0]? = some (v.getD bits 0) := by
  have hspread : spread (freeModes n (2 ^ n - 1)) 0 = 0 := by rw [freeModes_pinned, spread]
  rw [slice, Array.getElem?_ofFn, dif_pos (Nat.two_pow_pos _), hspread, Nat.or_zero]

/-- Taking the one amplitude that is left when every mode is pinned. -/
theorem first_eq [Zero α] {τ : Type} {act : Attempt Error τ (Slice α ρ)} {s t : τ}
    {r : Except Error (Array α)} {n i : Nat} {norm : Array α → ρ}
    (h : act s = Attempt.ofExcept (r.map fun v => ⟨slice n (2 ^ n - 1) i v, norm v⟩) t)
    (e : Error) :
    (act >>= fun answer =>
      match answer.amplitudes[0]? with
      | some a => pure a
      | none => throw e) s = Attempt.ofExcept (r.map fun v => v.getD i 0) t := by
  cases r with
  | error e => exact Attempt.bind_error h _
  | ok v =>
    refine (Attempt.bind_ok h _).trans ?_
    rw [slice_pinned]
    rfl

variable [Zero α] [One α] [Add α] [Mul α] [Conj α] [Magnitude α ρ] [Zero ρ] [Add ρ]

/-- Accessing a network reads its vector if the workspace fits the pool, and leaves everything but
the pool's memory alone. The pins are read only then, so they need to be valid only then. -/
theorem access_eq {a : Arena α} {net : Network} (h : net.Fits a) (bench : Bench α σ) {q : Query}
    {pinned bits : Nat} (hpins : 32 * 2 ^ net.qubits ≤ bench.scratch.capacity →
      q.pattern net.qubits = .ok (pinned, bits) ∧ bits < 2 ^ net.qubits) :
    ∃ memory, access a net q bench =
      Attempt.ofExcept ((net.contracted a bench.scratch.capacity).map fun v =>
        ⟨slice net.qubits pinned bits v, normSqByHalves v⟩) (bench.withMemory memory) := by
  rw [access, Attempt.bind_ok (Attempt.get_apply bench)]
  by_cases hfit : 32 * 2 ^ net.qubits ≤ bench.scratch.capacity
  · obtain ⟨hpattern, hbits⟩ := hpins hfit
    obtain ⟨memory, hcontract⟩ := contract_eq h bench
    have hcheck := Scratch.check_ok ((workspace_le_iff bench.scratch net.qubits).2 hfit)
    have hcontracted : net.contracted a bench.scratch.capacity = .ok (net.vector a) :=
      Network.contracted_eq_ok_iff.2 ⟨hfit, rfl⟩
    refine ⟨memory, ?_⟩
    rw [hcontracted, Attempt.ofExcept_ok] at hcontract
    rw [hcheck, Attempt.bind_ok (Attempt.ofExcept_ok () bench), hpattern,
      Attempt.bind_ok (Attempt.ofExcept_ok (pinned, bits) bench), hcontracted]
    show (contract a net >>= _) bench = _
    rw [Attempt.bind_ok hcontract, slice?_eq hbits (net.size_vector a)]
    rfl
  · have hlt : bench.scratch.capacity < workspace net.qubits :=
      Nat.not_le.1 fun hle => hfit ((workspace_le_iff bench.scratch net.qubits).1 hle)
    refine ⟨bench.scratch.memory, ?_⟩
    rw [Scratch.check_error hlt, Attempt.bind_error (Attempt.ofExcept_error _ bench),
      Network.contracted, if_neg hfit]
    rfl

/-- Accessing a network with every mode pinned to an assignment that has an index. -/
theorem access_pinAll_eq {a : Arena α} {net : Network} (h : net.Fits a) (bench : Bench α σ)
    {digits : List Nat} {i : Nat} (hi : basisIndex digits net.qubits = .ok i) (hyperSamples : Nat) :
    ∃ memory, access a net (.pinAll digits hyperSamples) bench =
      Attempt.ofExcept ((net.contracted a bench.scratch.capacity).map fun v =>
        ⟨slice net.qubits (2 ^ net.qubits - 1) i v, normSqByHalves v⟩)
        (bench.withMemory memory) := by
  refine access_eq h bench fun hfit => ?_
  have hn := wide_le_of_pow_le (capacity_lt bench.scratch) hfit
  obtain ⟨hlen, hbits, rfl, hlt⟩ := eq_indexOf_of_basisIndex (by omega) hi
  exact ⟨pattern_pinAll (by omega) hlen hbits hyperSamples, hlt⟩

/-- Accessing a network at the all-zero state. -/
theorem access_allZero_eq {a : Arena α} {net : Network} (h : net.Fits a) (bench : Bench α σ)
    (hyperSamples : Nat) : ∃ memory, access a net (.allZero net.qubits hyperSamples) bench =
      Attempt.ofExcept ((net.contracted a bench.scratch.capacity).map fun v =>
        ⟨slice net.qubits (2 ^ net.qubits - 1) 0 v, normSqByHalves v⟩)
        (bench.withMemory memory) := by
  refine access_eq h bench fun hfit => ⟨?_, Nat.two_pow_pos _⟩
  have hn := wide_le_of_pow_le (capacity_lt bench.scratch) hfit
  have hbits : ∀ d ∈ List.replicate net.qubits 0, d ≤ 1 := fun d hd => by
    simp [List.eq_of_mem_replicate hd]
  rw [Query.allZero, pattern_pinAll (by omega) List.length_replicate hbits, indexOf_replicate_zero]

end Dense

end GateNetwork
