import GateNetwork.Decimal.Dyadic
import GateNetwork.Proofs.Reversible

/-!
# Entangled pairs and registers

The two preparations start with a Hadamard gate, which leaves the same amplitude at index zero and
at the index of its qubit. Each controlled negation that follows moves the second of these
amplitudes: its control is one there, and its target is not yet. So all along there are two
amplitudes, one at index zero, where no control is ever one, and one at an index that gains a bit
with every gate.
-/

open Matrix

namespace GateNetwork

variable {α ρ σ : Type}

/-! ## Exact gate scalars -/

/-- The real number that a double stands for, zero if it stands for none. -/
noncomputable def DoubleValue.toReal : DoubleValue → ℝ
  | .finite d => (if d.negative then -1 else 1) * d.mantissa * 2 ^ d.exponent
  | .nan => 0
  | .infinite _ => 0

noncomputable instance : GateScalar ℂ ℝ where
  ofParts re im := ⟨re, im⟩
  invSqrtTwo := 1 / √2
  cos angle := Real.cos (DoubleValue.ofFloat angle).toReal
  sin angle := Real.sin (DoubleValue.ofFloat angle).toReal

/-! ## Two amplitudes -/

theorem two_pow_or_two_pow {a b : Nat} (hne : a ≠ b) : 2 ^ a ||| 2 ^ b = 2 ^ a + 2 ^ b := by
  rcases lt_or_gt_of_ne hne with hlt | hgt
  · have hsum := Nat.two_pow_add_eq_or_of_lt (Nat.pow_lt_pow_right (by decide : 1 < 2) hlt) 1
    rw [mul_one] at hsum
    rw [Nat.lor_comm, ← hsum, add_comm]
  · have hsum := Nat.two_pow_add_eq_or_of_lt (Nat.pow_lt_pow_right (by decide : 1 < 2) hgt) 1
    rw [mul_one] at hsum
    exact hsum.symm

/-- The vector with `c` at index zero and at the index `j`, and zero elsewhere. -/
def peaks [Zero α] (n : Nat) (c : α) (j : Nat) : Array α :=
  Array.ofFn fun i : Fin (2 ^ n) => if i.val = 0 ∨ i.val = j then c else 0

section

variable [CommSemiring α] {n j : Nat} {c : α}

/-- Two amplitudes are the scaled sum of two basis vectors. -/
theorem peaks_eq (hj : j ≠ 0) : peaks n c j = Array.ofFn
    (c • ((fun i => if i.val = 0 then 1 else 0) + fun i => if i.val = j then 1 else 0) :
      Fin (2 ^ n) → α) := by
  refine congrArg Array.ofFn (funext fun i => ?_)
  rw [Pi.smul_apply, Pi.add_apply, smul_eq_mul]
  by_cases hzero : i.val = 0
  · have hother : i.val ≠ j := fun h => hj (h.symm.trans hzero)
    rw [if_pos (.inl hzero), if_pos hzero, if_neg hother, add_zero, mul_one]
  · by_cases hother : i.val = j
    · rw [if_pos (.inr hother), if_neg hzero, if_pos hother, zero_add, mul_one]
    · rw [if_neg (not_or.2 ⟨hzero, hother⟩), if_neg hzero, if_neg hother, add_zero, mul_zero]

variable [Conj α]

/-- A controlled negation adds its target to an index that has the control and not the target. -/
theorem apply_cnot_peaks {control target : Nat}
    (hp : (.cnot control target : Placement α).Fits n) (hj : j < 2 ^ n)
    (hcontrol : j.testBit control = true) (htarget : j.testBit target = false) :
    (.cnot control target : Placement α).action.apply (peaks n c j) =
      peaks n c (j ||| 2 ^ target) := by
  let x : Action α := (Placement.cnot control target).action
  have hmove {i : Nat} (hi : i < 2 ^ n) : (x.toMatrix n *ᵥ fun k => if k.val = i then 1 else 0) =
      fun k => if k.val = (if allSet [control] i then
        clear [target] i ||| spread [target] (1 - collect [target] i) else i) then 1 else 0 :=
    Action.mulVec_basis hp.action (fun k _ => show 1 - k < 2 by omega) Gate.entryD_x hi
  have hstay : (if allSet [control] 0 then
      clear [target] 0 ||| spread [target] (1 - collect [target] 0) else 0) = 0 := by
    simp [allSet]
  have hgain : (if allSet [control] j then
      clear [target] j ||| spread [target] (1 - collect [target] j) else j) = j ||| 2 ^ target := by
    have hset : allSet [control] j = true := by simp [allSet, hcontrol]
    have hread : collect [target] j = 0 := by
      refine Nat.eq_of_testBit_eq fun b => ?_
      rw [testBit_collect]
      cases b <;> simp [htarget]
    have hkept : clear [target] j = j := by
      refine Nat.eq_of_testBit_eq fun p => ?_
      rw [testBit_clear]
      by_cases hp : p = target <;> simp [hp, htarget]
    rw [if_pos hset, hread, hkept]
    simp [spread, Nat.one_shiftLeft]
  have hne : j ≠ 0 := by
    rintro rfl
    simp at hcontrol
  have hne' : j ||| 2 ^ target ≠ 0 := fun h => hne (Nat.or_eq_zero_iff.1 h).1
  rw [peaks_eq hne, peaks_eq hne', Action.apply_ofFn hp.action, Matrix.mulVec_smul,
    Matrix.mulVec_add, hmove (Nat.two_pow_pos n), hmove hj, hstay, hgain]

end

/-! ## The first gate -/

section

variable [CommRing α] [Conj α] [Zero ρ] [GateScalar α ρ] {n : Nat}

/-- The amplitude that a Hadamard gate leaves at both values of a qubit. -/
def hadamardFactor (α : Type) {ρ : Type} [Zero ρ] [GateScalar α ρ] : α :=
  GateScalar.ofParts (GateScalar.invSqrtTwo α) (0 : ρ)

/-- The indices without a bit off the wire are zero and the one of the wire. -/
theorem clear_singleton_eq_zero_iff {q i : Nat} :
    clear [q] i = clear [q] 0 ↔ i = 0 ∨ i = 2 ^ q := by
  have hzero : clear [q] 0 = 0 := by simp [clear]
  rw [hzero]
  constructor
  · intro hclear
    have hlt : collect [q] i < 2 := collect_lt [q] i
    have hi := clear_or_spread_collect (List.nodup_singleton q) i
    rw [hclear, Nat.zero_or] at hi
    generalize collect [q] i = k at hi hlt
    interval_cases k
    · exact .inl (by simpa [spread] using hi.symm)
    · exact .inr (by simpa [spread, Nat.one_shiftLeft] using hi.symm)
  · rintro (rfl | rfl)
    · exact hzero
    · refine Nat.eq_of_testBit_eq fun p => ?_
      rw [testBit_clear, Nat.testBit_two_pow]
      by_cases hp : q = p <;> simp [hp]

/-- A Hadamard gate on the all-zero state leaves two amplitudes. -/
theorem apply_h_zeroState {q : Nat} (hp : (.single .h q : Placement α).Fits n) :
    (.single .h q : Placement α).action.apply (Dense.Buffers.zeroState (2 ^ n)) =
      peaks n (hadamardFactor α) (2 ^ q) := by
  have hcolumn : ∀ k < 2, (Gate.h.matrix : Tensor α).entryD k 0 = hadamardFactor α := by
    intro k hk
    interval_cases k <;> rfl
  rw [zeroState_eq, Action.apply_ofFn hp.action, Matrix.mulVec_single_one]
  refine congrArg Array.ofFn (funext fun i => ?_)
  rw [Matrix.col_apply, Action.toMatrix_apply]
  refine (if_pos rfl).trans (if_congr clear_singleton_eq_zero_iff ?_ rfl)
  show (Gate.h.matrix : Tensor α).entryD (collect [q] i) (collect [q] 0) = hadamardFactor α
  have hread : collect [q] 0 = 0 := by simp [collect]
  rw [hread]
  exact hcolumn _ (collect_lt [q] i)

/-! ## Preparations -/

/-- The negations along a register carry the second amplitude to the last index that they reach. -/
theorem applyAll_cascade {m : Nat} (hm : m < n) (c : α) :
    Action.applyAll ((List.range m).map fun q => (.cnot q (q + 1) : Placement α).action)
      (peaks n c 1) = peaks n c (2 ^ (m + 1) - 1) := by
  induction m with
  | zero => rfl
  | succ m ih =>
    have hfits : (.cnot m (m + 1) : Placement α).Fits n :=
      Draft.fits_cnot_iff.2 ⟨by omega, by omega, by omega⟩
    have hlt : 2 ^ (m + 1) - 1 < 2 ^ n := by
      have hle : 2 ^ (m + 1) ≤ 2 ^ n := Nat.pow_le_pow_right (by decide) hm.le
      have hpos : 0 < 2 ^ (m + 1) := Nat.two_pow_pos _
      omega
    have hgain : (2 ^ (m + 1) - 1) ||| 2 ^ (m + 1) = 2 ^ (m + 1 + 1) - 1 := by
      refine Nat.eq_of_testBit_eq fun p => ?_
      rw [Nat.testBit_or, Nat.testBit_two_pow_sub_one, Nat.testBit_two_pow_sub_one,
        Nat.testBit_two_pow, ← Bool.decide_or]
      exact decide_eq_decide.2 (by omega)
    rw [List.range_succ, List.map_append, Action.applyAll_append, ih (by omega), List.map_singleton,
      Action.applyAll_cons, Action.applyAll_nil, ← hgain]
    refine apply_cnot_peaks hfits hlt ?_ ?_
    · rw [Nat.testBit_two_pow_sub_one]
      exact decide_eq_true (Nat.lt_succ_self m)
    · rw [Nat.testBit_two_pow_sub_one]
      exact decide_eq_false (lt_irrefl _)

omit [Conj α] in
theorem length_ghz (n : Nat) : (Placement.ghz n : List (Placement α)).length = n := by
  cases n with
  | zero => rfl
  | succ m => simp [Placement.ghz]

theorem applyAll_ghz (hn : 1 ≤ n) :
    Action.applyAll ((Placement.ghz n : List (Placement α)).map Placement.action)
      (Dense.Buffers.zeroState (2 ^ n)) = peaks n (hadamardFactor α) (2 ^ n - 1) := by
  obtain ⟨m, rfl⟩ := Nat.exists_eq_add_one.2 hn
  rw [Placement.ghz, List.map_cons, Action.applyAll_cons, List.map_map,
    apply_h_zeroState (Draft.fits_h_iff.2 hn)]
  exact applyAll_cascade (Nat.lt_succ_self m) _

omit [Conj α] in
theorem fits_bellPair {a b : Nat} (ha : a < n) (hb : b < n) (hne : a ≠ b) :
    ∀ p ∈ (Placement.bellPair a b : List (Placement α)), p.Fits n := by
  intro p hp
  have hcases : p = .single .h a ∨ p = .cnot a b := by simpa [Placement.bellPair] using hp
  rcases hcases with rfl | rfl
  · exact Draft.fits_h_iff.2 ha
  · exact Draft.fits_cnot_iff.2 ⟨ha, hb, hne⟩

theorem applyAll_bellPair {a b : Nat} (ha : a < n) (hb : b < n) (hne : a ≠ b) :
    Action.applyAll ((Placement.bellPair a b : List (Placement α)).map Placement.action)
      (Dense.Buffers.zeroState (2 ^ n)) = peaks n (hadamardFactor α) (2 ^ a + 2 ^ b) := by
  rw [Placement.bellPair, List.map_cons, List.map_singleton, Action.applyAll_cons,
    Action.applyAll_cons, Action.applyAll_nil, apply_h_zeroState (Draft.fits_h_iff.2 ha),
    ← two_pow_or_two_pow hne]
  refine apply_cnot_peaks (Draft.fits_cnot_iff.2 ⟨ha, hb, hne⟩) ?_ ?_ ?_
  · exact Nat.pow_lt_pow_right (by decide) ha
  · simp
  · rw [Nat.testBit_two_pow]
    exact decide_eq_false hne

/-! ## Drafts -/

namespace Draft

variable [Magnitude α ρ] [Add ρ] {bench : Bench α σ}

/-- A call whose gates all fit an empty network succeeds, and they act on the all-zero state. -/
theorem call_on_empty (arena : Nat) (store : Store α) {c : Call α}
    (hps : ∀ p ∈ c.placements n, p.Fits n) (hfit : 32 * 2 ^ n ≤ bench.scratch.capacity) :
    ∃ positions d, call c ⟨.empty arena n, store⟩ = .ok positions d ∧
      d.network.ops.length = (c.placements n).length ∧
      ((Dense.backend : Backend α ρ σ).materialize (d.store.arena d.network.arena)
        d.network).outcome bench =
        .ok (Action.applyAll ((c.placements n).map Placement.action)
          (Dense.Buffers.zeroState (2 ^ n))) := by
  obtain ⟨positions, d, hcall, hbuilt, hn, hvector⟩ :=
    vector_placeAll (d := ⟨.empty arena n, store⟩) (.empty store arena n) hps
  have hqubits : d.network.qubits = n := hn
  have hlength : d.network.ops.length = 0 + (c.placements n).length :=
    (placeAll_eq_ok hcall).1
  refine ⟨positions, d, hcall, hlength.trans (Nat.zero_add _), ?_⟩
  rw [outcome_materialize hbuilt, hqubits, if_pos hfit, hvector]
  rfl

/-- On an empty network both preparations succeed: the one for a register with a gate for each qubit
and the one for a pair of distinct qubits with two. What is contracted then is the amplitude of the
first gate at index zero and at the index with all the bits of the register, or those of the pair,
and zero at all others. -/
theorem call_entangles (hn : 1 ≤ n) (arena : Nat) (store : Store α)
    (hfit : 32 * 2 ^ n ≤ bench.scratch.capacity) :
    let start : Draft α := ⟨.empty arena n, store⟩
    (∃ positions d, call .ghz start = .ok positions d ∧ d.network.ops.length = n ∧
      ((Dense.backend : Backend α ρ σ).materialize (d.store.arena d.network.arena)
        d.network).outcome bench = .ok (peaks n (hadamardFactor α) (2 ^ n - 1))) ∧
    ∀ a b, a < n → b < n → a ≠ b →
      ∃ positions d, call (.bellPair a b) start = .ok positions d ∧ d.network.ops.length = 2 ∧
        ((Dense.backend : Backend α ρ σ).materialize (d.store.arena d.network.arena)
          d.network).outcome bench = .ok (peaks n (hadamardFactor α) (2 ^ a + 2 ^ b)) := by
  intro start
  refine ⟨?_, fun a b ha hb hne => ?_⟩
  · obtain ⟨positions, d, hcall, hlength, hcontract⟩ :=
      call_on_empty arena store (c := .ghz) fits_ghz hfit
    refine ⟨positions, d, hcall, hlength.trans (length_ghz n), hcontract.trans ?_⟩
    exact congrArg Except.ok (applyAll_ghz hn)
  · obtain ⟨positions, d, hcall, hlength, hcontract⟩ :=
      call_on_empty arena store (c := .bellPair a b) (fits_bellPair ha hb hne) hfit
    refine ⟨positions, d, hcall, hlength, hcontract.trans ?_⟩
    exact congrArg Except.ok (applyAll_bellPair ha hb hne)

end Draft

end

/-- Three qubits, entangled as a register, and of them the last with the first. -/
theorem Draft.call_entangles_three_qubits :
    let bench : Bench ℂ Unit := ⟨.ofBytes 256, ()⟩
    let start : Draft ℂ := ⟨.empty 0 3, .empty⟩
    let f : ℂ := ⟨1 / √2, 0⟩
    1 ≤ 3 ∧ 32 * 2 ^ 3 ≤ bench.scratch.capacity ∧ 2 < 3 ∧ 0 < 3 ∧ 2 ≠ 0 ∧
      (∃ positions d, call .ghz start = .ok positions d ∧ d.network.ops.length = 3 ∧
        ((Dense.backend : Backend ℂ ℝ Unit).materialize (d.store.arena d.network.arena)
          d.network).outcome bench = .ok #[f, 0, 0, 0, 0, 0, 0, f]) ∧
      ∃ positions d, call (.bellPair 2 0) start = .ok positions d ∧ d.network.ops.length = 2 ∧
        ((Dense.backend : Backend ℂ ℝ Unit).materialize (d.store.arena d.network.arena)
          d.network).outcome bench = .ok #[f, 0, 0, 0, 0, f, 0, 0] := by
  intro bench start f
  have hfit : 32 * 2 ^ 3 ≤ bench.scratch.capacity := by decide
  obtain ⟨hghz, hpair⟩ := call_entangles (n := 3) (by decide) 0 .empty hfit
  exact ⟨by decide, hfit, by decide, by decide, by decide, hghz, hpair 2 0 (by decide) (by decide)
    (by decide)⟩

end GateNetwork
