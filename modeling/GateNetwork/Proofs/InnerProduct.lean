import GateNetwork.Proofs.Joining
import GateNetwork.Proofs.Widening

/-!
# Overlaps as inner products

Over a ring with a conjugation, the bra-side form of an operator stands for the conjugate transpose
of what the operator stands for, whatever its kind and its flag. Reversed, the bra side is therefore
the conjugate transpose of the whole other network, and the amplitude of the joined network at zero
is the inner product of the two vectors. A register that is widened only gains amplitudes that are
zero.
-/

open Matrix

namespace GateNetwork

variable {α ρ σ : Type}

/-! ## Adjoints -/

section

variable [Semiring α] [StarRing α] {n : Nat}

/-- The adjoint of a controlled matrix is the controlled adjoint. -/
theorem conjTranspose_controlled {targets controls : List Nat}
    (hcontrols : ∀ c ∈ controls, c < n ∧ c ∉ targets)
    (E : Matrix (Fin (2 ^ targets.length)) (Fin (2 ^ targets.length)) α) :
    (controlled n targets controls E)ᴴ = controlled n targets controls Eᴴ := by
  ext i j
  simp only [controlled, Matrix.conjTranspose_apply, Matrix.of_apply]
  by_cases hagree : ∀ p < n, p ∉ targets → i.val.testBit p = j.val.testBit p
  · -- Both indices have the same controls, which are no targets.
    have hback : ∀ p < n, p ∉ targets → j.val.testBit p = i.val.testBit p := by
      intro p hp hnot
      exact (hagree p hp hnot).symm
    have hset : (∀ c ∈ controls, j.val.testBit c) ↔ ∀ c ∈ controls, i.val.testBit c := by
      refine forall₂_congr fun c hc => ?_
      rw [hagree c (hcontrols c hc).1 (hcontrols c hc).2]
    by_cases hon : ∀ c ∈ controls, i.val.testBit c
    · rw [if_pos (hset.2 hon), if_pos hback, if_pos hon, if_pos hagree]
    · rw [if_neg (mt hset.1 hon), if_neg hon, ← Matrix.conjTranspose_apply,
        Matrix.conjTranspose_one]
  · have hback : ¬ ∀ p < n, p ∉ targets → j.val.testBit p = i.val.testBit p := by
      intro h
      exact hagree fun p hp hnot => (h p hp hnot).symm
    have hne : i ≠ j := by
      rintro rfl
      exact hagree fun _ _ _ => rfl
    rw [if_neg hagree, if_neg hback, Matrix.one_apply_ne hne, Matrix.one_apply_ne hne.symm]
    simp only [ite_self, star_zero]

namespace Operator

omit [StarRing α] in
/-- The stored matrix of the bra-side form. -/
theorem toMatrix_braTensor (op : Operator) (t : Tensor α) (m : Nat) :
    (op.braTensor t).toMatrix m =
      match op.kind with
      | .unitary => t.toMatrix m
      | .nonUnitary => (t.toMatrix m)ᵀ := by
  unfold braTensor
  cases op.kind with
  | unitary => rfl
  | nonUnitary => exact t.toMatrix_transpose m

/-- With its flag flipped and its bra-side tensor an operator applies the conjugate transpose of
what it applied. -/
theorem effective_braTensor (op : Operator) (t : Tensor α) (m : Nat) :
    ({ op with adjoint := !op.adjoint } : Operator).effective ((op.braTensor t).toMatrix m) =
      (op.effective (t.toMatrix m))ᴴ := by
  rw [toMatrix_braTensor]
  cases hkind : op.kind with
  | unitary =>
    cases hadjoint : op.adjoint with
    | false => simp only [effective, hkind, hadjoint, Bool.not_false]; rfl
    | true =>
      simp only [effective, hkind, hadjoint, Bool.not_true]
      exact (Matrix.conjTranspose_conjTranspose _).symm
  | nonUnitary =>
    cases hadjoint : op.adjoint with
    | false => simp only [effective, hkind, hadjoint, Bool.not_false]; rfl
    | true =>
      simp only [effective, hkind, hadjoint, Bool.not_true]
      ext i j
      exact (star_star _).symm

end Operator

/-- On the bra side an operator stands for the conjugate transpose of what it stands for. -/
theorem Operator.Fits.toMatrix_braAction {a : Arena α} {op : Operator} (h : op.Fits a n) :
    (a.braAction op).toMatrix n = (a.matrix n op)ᴴ := by
  obtain ⟨t, hget, hrows, hcols⟩ := h.stored
  obtain ⟨hrows, hcols⟩ := op.braTensor_shape hrows hcols
  have hcontrols : ∀ c ∈ op.controls, c < n ∧ c ∉ op.targets := by
    intro c hc
    exact ⟨h.lt c (List.mem_append_right _ hc), h.action.apart c hc⟩
  rw [Arena.matrix, Arena.stored, Arena.tensorD_of_get hget, conjTranspose_controlled hcontrols,
    ← op.effective_braTensor, ← Operator.applied_toMatrix _ hrows hcols, Arena.braAction,
    Arena.tensorD_of_get hget]
  rfl

/-! ## Vectors of both sides -/

namespace Network

variable {net k l : Network} {a : Arena α} {s : Store α}

theorem Fits.widened_vector (h : net.Fits a) {m : Nat} (hm : net.qubits ≤ m) :
    widened m (net.vector a) =
      Array.ofFn ((net.ops.map (a.matrix m)).reverse.prod *ᵥ Pi.single 0 1) := by
  rw [← h.vector_ofOps hm]
  exact applyAll_zeroState fun op hop => (h op hop).mono hm

/-- The vector of a network read on a register that is at least as wide. -/
theorem Fits.getD_vector (h : net.Fits a) {m : Nat} (hm : net.qubits ≤ m)
    (i : Fin (2 ^ m)) : (net.vector a).getD i 0 =
      ((net.ops.map (a.matrix m)).reverse.prod *ᵥ Pi.single 0 1) i := by
  rw [← getD_widened i.isLt, h.widened_vector hm, Action.getD_ofFn]

/-- The bra side multiplies by the conjugate transpose of the product of the bra's matrices. -/
theorem Fits.applyAll_braAction (h : net.Fits a) {m : Nat} (hm : net.qubits ≤ m)
    (f : Fin (2 ^ m) → α) :
    Action.applyAll (net.ops.reverse.map a.braAction) (Array.ofFn f) =
      Array.ofFn ((net.ops.map (a.matrix m)).reverse.prodᴴ *ᵥ f) := by
  have hops : ∀ op ∈ net.ops.reverse, op.Fits a m := by
    intro op hop
    exact (h op (List.mem_reverse.1 hop)).mono hm
  have hfits : ∀ x ∈ net.ops.reverse.map a.braAction, x.Fits m := by
    intro x hx
    obtain ⟨op, hop, rfl⟩ := List.mem_map.1 hx
    exact (hops op hop).braAction
  have hmatrices : (net.ops.reverse.map a.braAction).map (fun x => x.toMatrix m) =
      (net.ops.map (a.matrix m)).reverse.map conjTranspose := by
    rw [← List.map_reverse, List.map_map, List.map_map]
    exact List.map_congr_left fun op hop => (hops op hop).toMatrix_braAction
  rw [Action.applyAll_ofFn hfits, hmatrices, Matrix.conjTranspose_list_prod]

/-- The amplitude of the joined network at zero is the inner product of the two vectors. -/
theorem joinedVector_zero (hk : k.Fits (s.arena k.arena)) (hl : l.Fits (s.arena l.arena)) :
    (k.joinedVector l s).getD 0 0 = ∑ i ∈ Finset.range (2 ^ max k.qubits l.qubits),
      star ((l.vector (s.arena l.arena)).getD i 0) * (k.vector (s.arena k.arena)).getD i 0 := by
  have hkm : k.qubits ≤ max k.qubits l.qubits := Nat.le_max_left _ _
  have hlm : l.qubits ≤ max k.qubits l.qubits := Nat.le_max_right _ _
  let K := (k.ops.map ((s.arena k.arena).matrix (max k.qubits l.qubits))).reverse.prod
  let L := (l.ops.map ((s.arena l.arena).matrix (max k.qubits l.qubits))).reverse.prod
  have hket (i : Fin (2 ^ max k.qubits l.qubits)) :
      (k.vector (s.arena k.arena)).getD i 0 = (K *ᵥ Pi.single 0 1) i := hk.getD_vector hkm i
  have hbra (i : Fin (2 ^ max k.qubits l.qubits)) :
      (l.vector (s.arena l.arena)).getD i 0 = L i 0 := by
    rw [hl.getD_vector hlm, Matrix.mulVec_single_one]
    rfl
  have hjoined : k.joinedVector l s = Array.ofFn (Lᴴ *ᵥ (K *ᵥ Pi.single 0 1)) := by
    rw [joinedVector, joinedActions, Action.applyAll_append,
      applyAll_zeroState fun op hop => (hk op hop).mono hkm, hl.applyAll_braAction hlm]
  calc (k.joinedVector l s).getD 0 0 = (Lᴴ *ᵥ (K *ᵥ Pi.single 0 1)) 0 := by
        rw [hjoined]
        exact Action.getD_ofFn _ 0
    _ = ∑ i, star (L i 0) * (K *ᵥ Pi.single 0 1) i := rfl
    _ = _ := by
        rw [Finset.sum_range]
        exact Finset.sum_congr rfl fun i _ => by rw [hket, hbra]

end Network

namespace NetworkState

variable [Magnitude α ρ] [Zero ρ] [Add ρ]

/-- The overlap of two states succeeds within a pool that holds two buffers of the wider register,
and the amplitude whose modulus it answers is the inner product of the two vectors, the shorter one
followed by zeros. -/
theorem overlap_eq_inner_product {ket bra : NetworkState α} {k l : Network}
    (hket : ket.network = some k) (hbra : bra.network = some l) {store : Store α}
    (hk : k.Built store) (hl : l.Built store) (hk₀ : 1 ≤ k.qubits) (hl₀ : 1 ≤ l.qubits)
    {bench : Bench α σ} (hfit : 32 * 2 ^ max k.qubits l.qubits ≤ bench.scratch.capacity) :
    ∃ v w bench₁ bench₂ amplitude site,
      (Dense.backend : Backend α ρ σ).materialize (store.arena k.arena) k bench = .ok v bench₁ ∧
      (Dense.backend : Backend α ρ σ).materialize (store.arena l.arena) l bench = .ok w bench₂ ∧
      inner (Dense.backend : Backend α ρ σ) ket bra ⟨store, bench⟩ = .ok amplitude site ∧
      overlap (Dense.backend : Backend α ρ σ) ket bra ⟨store, bench⟩ =
        .ok (modulus amplitude) site ∧
      amplitude =
        ∑ i ∈ Finset.range (2 ^ max k.qubits l.qubits), star (w.getD i 0) * v.getD i 0 := by
  have hkfit : 32 * 2 ^ k.qubits ≤ bench.scratch.capacity := by
    have hpow : 2 ^ k.qubits ≤ 2 ^ max k.qubits l.qubits :=
      Nat.pow_le_pow_right (by decide) (Nat.le_max_left _ _)
    omega
  have hlfit : 32 * 2 ^ l.qubits ≤ bench.scratch.capacity := by
    have hpow : 2 ^ l.qubits ≤ 2 ^ max k.qubits l.qubits :=
      Nat.pow_le_pow_right (by decide) (Nat.le_max_right _ _)
    omega
  obtain ⟨bench₁, hv⟩ := Dense.materialize_eq_vector (ρ := ρ) hk.fits hkfit
  obtain ⟨bench₂, hw⟩ := Dense.materialize_eq_vector (ρ := ρ) hl.fits hlfit
  obtain ⟨store', memory, hinner, -⟩ := inner_eq (ρ := ρ) hket hbra hk.fits hl.fits bench
  have hanswer : k.overlapAnswer l store bench.scratch.capacity =
      .ok ((k.joinedVector l store).getD 0 0) := by
    rw [Network.overlapAnswer, if_neg (by omega), if_pos hfit]
  rw [hanswer, Attempt.ofExcept_ok] at hinner
  refine ⟨_, _, bench₁, bench₂, _, _, hv, hw, hinner, ?_, ?_⟩
  · exact Attempt.bind_ok hinner _
  · exact Network.joinedVector_zero hk.fits hl.fits

end NetworkState

end

/-- The overlap of the negation network with the wider raising one, whose tensor lies elsewhere. -/
theorem NetworkState.overlap_negation_raising :
    let store : Store ℂ := .sample Complex.I
    let bench : Bench ℂ Unit := ⟨.ofBytes 300, ()⟩
    let ket : NetworkState ℂ := ofNetwork .negation {}
    let bra : NetworkState ℂ := ofNetwork .raising {}
    ket.network = some .negation ∧ bra.network = some .raising ∧ Network.negation.Built store ∧
      Network.raising.Built store ∧ 1 ≤ Network.negation.qubits ∧ 1 ≤ Network.raising.qubits ∧
      32 * 2 ^ max Network.negation.qubits Network.raising.qubits ≤ bench.scratch.capacity ∧
      ∃ v w bench₁ bench₂ amplitude site,
        (Dense.backend : Backend ℂ ℝ Unit).materialize (store.arena 0) .negation bench =
          .ok v bench₁ ∧
        (Dense.backend : Backend ℂ ℝ Unit).materialize (store.arena 1) .raising bench =
          .ok w bench₂ ∧
        inner (Dense.backend : Backend ℂ ℝ Unit) ket bra ⟨store, bench⟩ = .ok amplitude site ∧
        overlap (Dense.backend : Backend ℂ ℝ Unit) ket bra ⟨store, bench⟩ =
          .ok (modulus amplitude) site ∧
        amplitude = ∑ i ∈ Finset.range (2 ^ 3), star (w.getD i 0) * v.getD i 0 := by
  intro store bench ket bra
  have hk : Network.negation.Built store := Network.negation_built Complex.I
  have hl : Network.raising.Built store := Network.raising_built Complex.I
  have hfit : 32 * 2 ^ max Network.negation.qubits Network.raising.qubits ≤
      bench.scratch.capacity := by decide
  exact ⟨rfl, rfl, hk, hl, by decide, by decide, hfit,
    overlap_eq_inner_product rfl rfl hk hl (by decide) (by decide) hfit⟩

end GateNetwork
