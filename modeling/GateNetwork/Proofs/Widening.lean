import GateNetwork.Proofs.OperatorMatrix

/-!
# Wider registers

Over a ring, what fits a register acts on the first amplitudes of a wider one alone: a vector with
zeros added is taken to the same vector with zeros added. So a network that is made anew over a
wider register has the same amplitudes, and the qubits that were added stay zero.
-/

namespace GateNetwork

variable {α ρ σ : Type}

section

variable [Semiring α] {n m : Nat} {v : Array α}

/-- The vector with zeros added up to `m` qubits. -/
def widened (m : Nat) (v : Array α) : Array α := Array.ofFn fun i : Fin (2 ^ m) => v.getD i 0

theorem getD_of_le {i : Nat} (hi : v.size ≤ i) : v.getD i 0 = 0 := by
  simp [Array.getD_eq_getD_getElem?, Array.getElem?_eq_none hi]

theorem getD_widened {i : Nat} (hi : i < 2 ^ m) : (widened m v).getD i 0 = v.getD i 0 := by
  simp [widened, hi]

theorem widened_zeroState (n m : Nat) :
    widened m (Dense.Buffers.zeroState (2 ^ n) : Array α) = Dense.Buffers.zeroState (2 ^ m) := by
  refine congrArg Array.ofFn (funext fun i => ?_)
  by_cases hi : i.val < 2 ^ n
  · simp [Dense.Buffers.zeroState, hi]
  · have hne : i.val ≠ 0 := fun h => hi (h ▸ Nat.two_pow_pos n)
    rw [getD_of_le (by simpa [Dense.Buffers.zeroState] using hi), if_neg hne]

/-- An index beyond a register stays beyond it when bits of the register are exchanged. -/
theorem le_clear_or_spread {qs : List Nat} (hqs : ∀ q ∈ qs, q < n) {i : Nat} (hi : 2 ^ n ≤ i)
    (k : Nat) : 2 ^ n ≤ clear qs i ||| spread qs k := by
  by_contra hlt
  obtain ⟨p, hp, hbit⟩ := Nat.exists_ge_and_testBit_of_ge_two_pow hi
  have hbeyond : (clear qs i ||| spread qs k).testBit p = false :=
    testBit_of_ge (Nat.not_le.1 hlt) hp
  have hnot : p ∉ qs := fun hmem => absurd (hqs p hmem) (Nat.not_lt.2 hp)
  rw [Nat.testBit_or, testBit_clear, hbit] at hbeyond
  simp [hnot] at hbeyond

namespace Action

variable {x : Action α}

/-- Beyond the register an action finds nothing but zeros. -/
theorem amplitudeAt_beyond (hx : x.Fits n) (hv : v.size = 2 ^ n) {i : Nat} (hi : 2 ^ n ≤ i) :
    x.amplitudeAt v i = 0 := by
  unfold amplitudeAt
  split
  · rw [foldl_range_add]
    refine Finset.sum_eq_zero fun k _ => ?_
    have hread := le_clear_or_spread hx.target_lt hi k
    rw [getD_of_le (hv ▸ hread), mul_zero]
  · exact getD_of_le (hv ▸ hi)

/-- On indices of the wider register the widened vector is read like the vector itself. -/
theorem amplitudeAt_widened (hx : x.Fits m) {i : Nat} (hi : i < 2 ^ m) :
    x.amplitudeAt (widened m v) i = x.amplitudeAt v i := by
  unfold amplitudeAt
  rw [getD_widened hi, foldl_range_add, foldl_range_add]
  have hsum : ∀ k, (widened m v).getD (clear x.targets i ||| spread x.targets k) 0 =
      v.getD (clear x.targets i ||| spread x.targets k) 0 := by
    intro k
    exact getD_widened (clear_or_spread_lt hx.target_lt hi k)
  simp only [hsum]

theorem apply_widened (hx : x.Fits n) (hnm : n ≤ m) (hv : v.size = 2 ^ n) :
    x.apply (widened m v) = widened m (x.apply v) := by
  refine Array.ext (by simp [widened]) fun i hi hi' => ?_
  have hlt : i < 2 ^ m := by simpa [widened] using hi'
  have hleft : (x.apply (widened m v))[i] = x.amplitudeAt v i := by
    simpa [apply] using amplitudeAt_widened (hx.mono hnm) hlt
  have hright : (widened m (x.apply v))[i] = (x.apply v).getD i 0 := by simp [widened]
  rw [hleft, hright]
  -- Within the narrow register both sides read the same amplitudes, beyond it both are zero.
  rcases Nat.lt_or_ge i (2 ^ n) with hin | hout
  · simp [apply, hv, hin]
  · rw [amplitudeAt_beyond hx hv hout, getD_of_le (by rw [size_apply, hv]; exact hout)]

theorem applyAll_widened {xs : List (Action α)} (hxs : ∀ x ∈ xs, x.Fits n) (hnm : n ≤ m)
    (hv : v.size = 2 ^ n) : applyAll xs (widened m v) = widened m (applyAll xs v) := by
  induction xs generalizing v with
  | nil => rfl
  | cons x xs ih =>
    have hx := hxs x List.mem_cons_self
    rw [applyAll_cons, applyAll_cons, apply_widened hx hnm hv]
    exact ih (fun y hy => hxs y (List.mem_cons_of_mem x hy)) (by rw [size_apply, hv])

end Action

end

/-! ## Networks -/

namespace Network

section

variable [Semiring α] [Conj α] {net : Network} {a : Arena α} {store : Store α}

/-- The operators of a network, over a register that is at least as wide, prepare the same vector
with zeros added. -/
theorem Fits.vector_ofOps (h : net.Fits a) {m : Nat} (hm : net.qubits ≤ m) :
    (ofOps net.arena m net.ops).vector a = widened m (net.vector a) := by
  have hsize : (Dense.Buffers.zeroState (2 ^ net.qubits) : Array α).size = 2 ^ net.qubits := by
    rw [Dense.Buffers.zeroState, Array.size_ofFn]
  rw [vector, vector, ← Action.applyAll_widened (Arena.actions_fit h) hm hsize, widened_zeroState]
  rfl

/-- The operators of a network are accepted over a register with `m` more qubits. Within a pool that
holds two buffers of that size contraction gives the amplitudes of the first network, followed by
zeros. -/
theorem Built.widen_with_zeros [Magnitude α ρ] [Zero ρ] [Add ρ] (h : net.Built store) (m : Nat) :
    let n := net.qubits
    let wide := ofOps net.arena (n + m) net.ops
    pushAll store (.empty net.arena (n + m)) net.ops = .ok wide ∧
      ∀ bench : Bench α σ, 32 * 2 ^ (n + m) ≤ bench.scratch.capacity → ∃ v w : Array α,
        ((Dense.backend : Backend α ρ σ).materialize (store.arena net.arena) net).outcome bench =
          .ok v ∧
        ((Dense.backend : Backend α ρ σ).materialize (store.arena wide.arena) wide).outcome bench =
          .ok w ∧
        v.size = 2 ^ n ∧ w.size = 2 ^ (n + m) ∧ (∀ i < 2 ^ n, w[i]? = v[i]?) ∧
          ∀ i, 2 ^ n ≤ i → i < 2 ^ (n + m) → w[i]? = some 0 := by
  intro n wide
  have hle : n ≤ n + m := Nat.le_add_right n m
  have hpow : 2 ^ n ≤ 2 ^ (n + m) := Nat.pow_le_pow_right (by decide) hle
  have hwide : wide.Fits (store.arena net.arena) := fun op hop => (h.fits op hop).mono hle
  refine ⟨pushAll_empty hwide, fun bench hfit => ?_⟩
  have hnarrow : 32 * 2 ^ net.qubits ≤ bench.scratch.capacity :=
    (Nat.mul_le_mul_left 32 hpow).trans hfit
  obtain ⟨_, hv⟩ := Dense.materialize_eq_vector (ρ := ρ) h.fits hnarrow
  obtain ⟨_, hw⟩ := Dense.materialize_eq_vector (ρ := ρ) hwide hfit
  rw [h.fits.vector_ofOps hle] at hw
  have hentry : ∀ i < 2 ^ (n + m), (widened (n + m) (net.vector (store.arena net.arena)))[i]? =
      some ((net.vector (store.arena net.arena)).getD i 0) := by
    intro i hi
    simp [widened, hi]
  refine ⟨_, _, Attempt.outcome_of_eq (r := .ok _) hv, Attempt.outcome_of_eq (r := .ok _) hw,
    size_vector net _, by simp [widened], fun i hi => ?_, fun i hi hlt => ?_⟩
  · rw [hentry i (hi.trans_le hpow), getElem?_eq_some_getD (by rwa [size_vector])]
  · rw [hentry i hlt, getD_of_le (by rwa [size_vector])]

end

/-- The raising network with two more qubits. -/
theorem widen_with_zeros_raising :
    let store : Store ℂ := .sample Complex.I
    let bench : Bench ℂ Unit := ⟨.ofBytes 1024, ()⟩
    let wide : Network := ofOps 1 5 raising.ops
    raising.Built store ∧ 32 * 2 ^ 5 ≤ bench.scratch.capacity ∧
      pushAll store (.empty 1 5) raising.ops = .ok wide ∧ ∃ v w : Array ℂ,
        ((Dense.backend : Backend ℂ ℝ Unit).materialize (store.arena 1) raising).outcome bench =
          .ok v ∧
        ((Dense.backend : Backend ℂ ℝ Unit).materialize (store.arena 1) wide).outcome bench =
          .ok w ∧
        v.size = 8 ∧ w.size = 32 ∧ (∀ i < 8, w[i]? = v[i]?) ∧
          ∀ i, 8 ≤ i → i < 32 → w[i]? = some 0 := by
  intro store bench wide
  have hbuilt : raising.Built store := raising_built Complex.I
  have hfit : 32 * 2 ^ 5 ≤ bench.scratch.capacity := by decide
  obtain ⟨hpush, hwiden⟩ := hbuilt.widen_with_zeros (ρ := ℝ) (σ := Unit) 2
  exact ⟨hbuilt, hfit, hpush, hwiden bench hfit⟩

end Network

end GateNetwork
