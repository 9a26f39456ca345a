import GateNetwork.Proofs.FromVector

/-!
# Unitary operators

Controlling wires and scattering legs is multiplicative: two matrices on the same wires multiply to
the matrix of their product. So a unitary matrix stays unitary on the whole register, in whichever
form it is applied, and an operator with a unitary tensor changes no inner product. What is made of
such operators alone has norm one.
-/

open Matrix

namespace GateNetwork

variable {α ρ σ : Type}

/-! ## Products of controlled matrices -/

section

variable [Semiring α] {n : Nat} {targets controls : List Nat}

theorem controlled_one (htargets : targets.Nodup) :
    controlled n targets controls (1 : Matrix _ _ α) = 1 := by
  ext i j
  rw [controlled_apply]
  split
  · by_cases hij : i = j
    · subst hij
      simp
    · rw [Matrix.one_apply_ne hij]
      split
      · rename_i hclear
        -- Indices that agree off the targets differ at the targets.
        refine Matrix.one_apply_ne fun hlocal => hij (Fin.ext ?_)
        have hcollect : collect targets i = collect targets j := by
          rw [← val_localIndex, ← val_localIndex, hlocal]
        exact eq_of_clear_eq_of_collect_eq htargets hclear hcollect
      · rfl
  · rfl

/-- Matrices on the same wires multiply to the matrix of the product. -/
theorem controlled_mul (htargets : targets.Nodup) (hlt : ∀ q ∈ targets, q < n)
    (hcontrols : ∀ c ∈ controls, c ∉ targets)
    (E F : Matrix (Fin (2 ^ targets.length)) (Fin (2 ^ targets.length)) α) :
    controlled n targets controls E * controlled n targets controls F =
      controlled n targets controls (E * F) := by
  ext i j
  rw [Matrix.mul_apply, controlled_apply (E * F)]
  by_cases hset : allSet controls i = true
  · rw [if_pos hset]
    -- Only indices that agree with `i` off the targets are met on the way, and these have the same
    -- controls.
    let g (k : Nat) : α := E (localIndex targets i) (localIndex targets k) *
      if clear targets i = clear targets j then F (localIndex targets k) (localIndex targets j)
      else 0
    have hterm (k : Fin (2 ^ n)) :
        controlled n targets controls E i k * controlled n targets controls F k j =
          if clear targets i = clear targets k then g k else 0 := by
      rw [controlled_apply E, if_pos hset]
      by_cases hclear : clear targets i = clear targets k
      · rw [if_pos hclear, if_pos hclear, controlled_apply F,
          if_pos ((allSet_eq_of_clear_eq hcontrols hclear).symm.trans hset), ← hclear]
      · rw [if_neg hclear, if_neg hclear, zero_mul]
    calc ∑ k, controlled n targets controls E i k * controlled n targets controls F k j
        = ∑ k : Fin (2 ^ n), if clear targets i = clear targets k then g k else 0 :=
          Finset.sum_congr rfl fun k _ => hterm k
      _ = ∑ k ∈ Finset.range (2 ^ n) with clear targets i = clear targets k, g k := by
          rw [Finset.sum_filter, Finset.sum_range]
      _ = ∑ m ∈ Finset.range (2 ^ targets.length), g (clear targets i ||| spread targets m) :=
          sum_clear_eq htargets hlt i.isLt g
      _ = ∑ m : Fin (2 ^ targets.length), E (localIndex targets i) m *
            if clear targets i = clear targets j then F m (localIndex targets j) else 0 := by
          rw [Finset.sum_range]
          refine Finset.sum_congr rfl fun m _ => ?_
          dsimp only [g]
          rw [localIndex_clear_or_spread htargets]
      _ = _ := by
          split
          · rw [Matrix.mul_apply]
          · simp
  · rw [if_neg hset]
    have hrow (k : Fin (2 ^ n)) : controlled n targets controls E i k =
        (1 : Matrix (Fin (2 ^ n)) (Fin (2 ^ n)) α) i k := by
      rw [controlled_apply, if_neg hset]
    simp only [hrow]
    rw [← Matrix.mul_apply, one_mul, controlled_apply, if_neg hset]

end

/-! ## Unitary matrices -/

section

variable [CommRing α] [StarRing α] {n : Nat}

/-- A controlled matrix is unitary if the matrix is. -/
theorem controlled_mem_unitaryGroup {targets controls : List Nat} (htargets : targets.Nodup)
    (hlt : ∀ q ∈ targets, q < n) (hcontrols : ∀ c ∈ controls, c < n ∧ c ∉ targets)
    {E : Matrix (Fin (2 ^ targets.length)) (Fin (2 ^ targets.length)) α}
    (hE : E ∈ Matrix.unitaryGroup (Fin (2 ^ targets.length)) α) :
    controlled n targets controls E ∈ Matrix.unitaryGroup (Fin (2 ^ n)) α := by
  have hE' : E * Eᴴ = 1 := Matrix.mem_unitaryGroup_iff.1 hE
  rw [Matrix.mem_unitaryGroup_iff, Matrix.star_eq_conjTranspose, conjTranspose_controlled hcontrols,
    controlled_mul htargets hlt (fun c hc => (hcontrols c hc).2), hE', controlled_one htargets]

/-- In whichever form a unitary matrix is applied, the applied matrix is unitary. -/
theorem Operator.effective_mem_unitaryGroup (op : Operator) {m : Nat}
    {M : Matrix (Fin m) (Fin m) α} (hM : M ∈ Matrix.unitaryGroup (Fin m) α) :
    op.effective M ∈ Matrix.unitaryGroup (Fin m) α := by
  have hM' : Mᴴ ∈ Matrix.unitaryGroup (Fin m) α := Unitary.star_mem hM
  unfold effective
  split
  · exact hM
  · exact hM'
  · -- The conjugate of a matrix is the transpose of its conjugate transpose.
    have hconj : M.map conj = Mᴴᵀ := rfl
    have htranspose : (Mᴴᵀ)ᴴ = Mᵀ := by
      ext i j
      exact star_star _
    have hmul : Mᴴ * M = 1 := Matrix.mem_unitaryGroup_iff'.1 hM
    rw [hconj, Matrix.mem_unitaryGroup_iff', Matrix.star_eq_conjTranspose, htranspose,
      ← Matrix.transpose_mul, hmul, Matrix.transpose_one]

/-- An operator whose stored tensor is unitary stands for a unitary matrix on the register. -/
theorem Operator.Fits.matrix_mem_unitaryGroup {op : Operator} {a : Arena α} (h : op.Fits a n)
    (hM : a.stored op ∈ Matrix.unitaryGroup _ α) :
    a.matrix n op ∈ Matrix.unitaryGroup (Fin (2 ^ n)) α := by
  refine controlled_mem_unitaryGroup h.action.targets_nodup h.action.target_lt (fun c hc => ?_) ?_
  · exact ⟨h.lt c (List.mem_append_right _ hc), h.action.apart c hc⟩
  · exact op.effective_mem_unitaryGroup hM

/-- A unitary matrix changes no inner product. -/
theorem star_mulVec_dotProduct {m : Nat} {U : Matrix (Fin m) (Fin m) α}
    (hU : U ∈ Matrix.unitaryGroup (Fin m) α) (f g : Fin m → α) :
    star (U *ᵥ f) ⬝ᵥ (U *ᵥ g) = star f ⬝ᵥ g := by
  have hmul : Uᴴ * U = 1 := Matrix.mem_unitaryGroup_iff'.1 hU
  rw [Matrix.star_mulVec, Matrix.dotProduct_mulVec, Matrix.vecMul_vecMul, hmul, Matrix.vecMul_one]

/-! ## Inner products of networks -/

namespace Network

variable {k l net k' l' : Network} {s : Store α}

/-- The inner product of the vectors of two networks, conjugate in the second, the shorter vector
followed by zeros. -/
def innerProduct (k l : Network) (s : Store α) : α :=
  ∑ i ∈ Finset.range (2 ^ max k.qubits l.qubits),
    star ((l.vector (s.arena l.arena)).getD i 0) * (k.vector (s.arena k.arena)).getD i 0

theorem innerProduct_eq (hk : k.Fits (s.arena k.arena)) (hl : l.Fits (s.arena l.arena)) :
    let m := max k.qubits l.qubits
    k.innerProduct l s =
      star ((l.ops.map ((s.arena l.arena).matrix m)).reverse.prod *ᵥ Pi.single 0 1) ⬝ᵥ
        ((k.ops.map ((s.arena k.arena).matrix m)).reverse.prod *ᵥ Pi.single 0 1) := by
  intro m
  rw [innerProduct, Finset.sum_range, dotProduct]
  refine Finset.sum_congr rfl fun i _ => ?_
  rw [hk.getD_vector (Nat.le_max_left _ _), hl.getD_vector (Nat.le_max_right _ _)]
  rfl

omit [CommRing α] [StarRing α] in
/-- Networks that accept the same operator have the same arena, the one that issued its tensor. -/
theorem arena_eq_of_push {op : Operator} {i j : Nat} (hk : k.push s op = .ok (i, k'))
    (hl : l.push s op = .ok (j, l')) : k.arena = l.arena := by
  obtain ⟨t, ht, -⟩ := (push_eq_ok hk).1.stored
  obtain ⟨u, hu, -⟩ := (push_eq_ok hl).1.stored
  have hkown := (Arena.get_eq_ok_iff.1 ht).1
  have hlown := (Arena.get_eq_ok_iff.1 hu).1
  simp only [Arena.owns, Store.number_arena, beq_iff_eq] at hkown hlown
  exact hkown.symm.trans hlown

/-- An operator with a unitary tensor, appended to two networks, changes no inner product. -/
theorem innerProduct_push (hk : k.Fits (s.arena k.arena)) (hl : l.Fits (s.arena l.arena))
    {op : Operator} {i j : Nat} (hpushk : k.push s op = .ok (i, k'))
    (hpushl : l.push s op = .ok (j, l'))
    (hunitary : (s.arena k.arena).stored op ∈ Matrix.unitaryGroup _ α) :
    k'.innerProduct l' s = k.innerProduct l s := by
  have harena := arena_eq_of_push hpushk hpushl
  obtain ⟨hop, rfl⟩ := push_eq_ok hpushk
  obtain ⟨hop', rfl⟩ := push_eq_ok hpushl
  have hU := (hop.mono (Nat.le_max_left k.qubits l.qubits)).matrix_mem_unitaryGroup hunitary
  have hfits {net : Network} (h : net.Fits (s.arena net.arena))
      (hop : op.Fits (s.arena net.arena) net.qubits) :
      Fits { net with ops := net.ops ++ [op], version := net.version + 1 } (s.arena net.arena) := by
    intro o ho
    rcases List.mem_append.1 ho with ho | ho
    · exact h o ho
    · rw [List.mem_singleton.1 ho]
      exact hop
  rw [innerProduct_eq (hfits hk hop) (hfits hl hop'), innerProduct_eq hk hl]
  simp only [List.map_append, List.map_singleton, List.reverse_append, List.reverse_singleton,
    List.singleton_append, List.prod_cons]
  rw [← Matrix.mulVec_mulVec, ← Matrix.mulVec_mulVec, ← harena]
  exact star_mulVec_dotProduct hU _ _

/-- The vector of a network of unitary operators has inner product one with itself. -/
theorem innerProduct_self (hnet : net.Fits (s.arena net.arena))
    (hunitary : ∀ op ∈ net.ops, (s.arena net.arena).stored op ∈ Matrix.unitaryGroup _ α) :
    net.innerProduct net s = 1 := by
  have hprod : (net.ops.map ((s.arena net.arena).matrix (max net.qubits net.qubits))).reverse.prod ∈
      Matrix.unitaryGroup (Fin (2 ^ max net.qubits net.qubits)) α := by
    refine Submonoid.list_prod_mem _ fun U hU => ?_
    obtain ⟨op, hop, rfl⟩ := List.mem_map.1 (List.mem_reverse.1 hU)
    exact ((hnet op hop).mono (Nat.le_max_left _ _)).matrix_mem_unitaryGroup (hunitary op hop)
  rw [innerProduct_eq hnet hnet, star_mulVec_dotProduct hprod]
  simp

end Network

end

/-! ## Norms -/

/-- The squared norm of a vector over a register is the sum over its amplitudes. -/
theorem normSqByHalves_ofFn [AddCommMonoid ρ] [Magnitude α ρ] {m : Nat} (f : Fin m → α) :
    normSqByHalves (Array.ofFn f) = ∑ i, normSq (f i) := by
  rw [normSqByHalves_eq_sum, Array.toList_ofFn, List.map_ofFn, List.sum_ofFn]
  rfl

namespace Network

/-- Every operator of the network has a unitary tensor. -/
def IsUnitary [CommRing α] [StarRing α] (net : Network) (a : Arena α) : Prop :=
  ∀ op ∈ net.ops, a.stored op ∈ Matrix.unitaryGroup _ α

variable {net : Network} {store : Store ℂ}

/-- The squared norm of a vector is its inner product with itself. -/
theorem normSq_vector (hnet : net.Fits (store.arena net.arena)) :
    ((normSqByHalves (net.vector (store.arena net.arena)) : ℝ) : ℂ) =
      net.innerProduct net store := by
  let f := net.matrix (store.arena net.arena) *ᵥ Pi.single 0 1
  have hentry (i : Fin (2 ^ net.qubits)) : (net.vector (store.arena net.arena)).getD i 0 = f i :=
    hnet.getD_vector le_rfl i
  rw [innerProduct, max_self, Finset.sum_range]
  simp only [hentry]
  rw [hnet.vector_eq, normSqByHalves_ofFn, Complex.ofReal_sum]
  exact Finset.sum_congr rfl fun i _ => Complex.normSq_eq_conj_mul_self

/-- A network of unitary operators has norm one. -/
theorem normAnswer_of_isUnitary (hnet : net.Fits (store.arena net.arena))
    (hunitary : net.IsUnitary (store.arena net.arena)) {capacity : Nat}
    (hfit : 32 * 2 ^ net.qubits ≤ capacity) :
    net.normAnswer (store.arena net.arena) capacity = .ok (1 : ℝ) := by
  have hone : ((normSqByHalves (net.vector (store.arena net.arena)) : ℝ) : ℂ) = 1 :=
    (normSq_vector hnet).trans (innerProduct_self hnet hunitary)
  rw [normAnswer, contracted_eq_ok_iff.2 ⟨hfit, rfl⟩]
  exact congrArg Except.ok (Complex.ofReal_eq_one.1 hone)

/-- A network of unitary operators has overlap one with itself. -/
theorem overlapAnswer_of_isUnitary (hnet : net.Fits (store.arena net.arena))
    (hunitary : net.IsUnitary (store.arena net.arena)) (hpos : 1 ≤ net.qubits) {capacity : Nat}
    (hfit : 32 * 2 ^ net.qubits ≤ capacity) :
    net.overlapAnswer net store capacity = .ok (1 : ℂ) := by
  have hone : (net.joinedVector net store).getD 0 0 = 1 :=
    (joinedVector_zero hnet hnet).trans (innerProduct_self hnet hunitary)
  rw [overlapAnswer, if_neg (by omega), max_self, if_pos hfit, hone]

end Network

namespace NetworkState

/-- Unitary operators change no inner product: an operator with a unitary tensor, of either kind and
with either flag, that two networks over registers of any size accept leaves the inner product of
their vectors as it was, and within a pool that holds two buffers these are the vectors that
contraction gives. What is made of such operators alone, however many, has norm one and overlap one
with itself. -/
theorem unitary_isometry (store : Store ℂ) :
    (∀ {k l k' l' : Network} {op : Operator} {i j : Nat}, k.Built store → l.Built store →
      k.push store op = .ok (i, k') → l.push store op = .ok (j, l') →
      (store.arena k.arena).stored op ∈ Matrix.unitaryGroup _ ℂ →
      k'.innerProduct l' store = k.innerProduct l store) ∧
    (∀ {net : Network} {bench : Bench ℂ σ}, net.Built store →
      32 * 2 ^ net.qubits ≤ bench.scratch.capacity →
      ((Dense.backend : Backend ℂ ℝ σ).materialize (store.arena net.arena) net).outcome bench =
        .ok (net.vector (store.arena net.arena))) ∧
    ∀ {net : Network} {s : NetworkState ℂ} {bench : Bench ℂ σ}, net.Built store →
      1 ≤ net.qubits → net.IsUnitary (store.arena net.arena) → s.network = some net →
      32 * 2 ^ net.qubits ≤ bench.scratch.capacity →
      (norm (Dense.backend : Backend ℂ ℝ σ) store s).outcome bench = .ok 1 ∧
      (overlap (Dense.backend : Backend ℂ ℝ σ) s s).outcome ⟨store, bench⟩ = .ok 1 := by
  refine ⟨fun hk hl hpushk hpushl hunitary =>
    Network.innerProduct_push hk.fits hl.fits hpushk hpushl hunitary, fun hnet hfit => ?_,
    fun {net s bench} hnet hpos hunitary hs hfit => ⟨?_, ?_⟩⟩
  · obtain ⟨bench', hvector⟩ := Dense.materialize_eq_vector (ρ := ℝ) hnet.fits hfit
    exact Attempt.outcome_of_eq (r := .ok _) hvector
  · obtain ⟨memory, hnorm⟩ := norm_of_fits (ρ := ℝ) hs hnet.fits bench
    rw [Attempt.outcome_of_eq hnorm, Network.normAnswer_of_isUnitary hnet.fits hunitary hfit]
  · rw [outcome_overlap hs hs hnet.fits hnet.fits,
      Network.overlapAnswer_of_isUnitary hnet.fits hunitary hpos hfit]
    exact congrArg Except.ok norm_one

end NetworkState

/-- The negation matrix is unitary. -/
theorem Gate.matrix_x_mem_unitaryGroup [CommRing α] [StarRing α] :
    (Gate.x.matrix : Tensor α).toMatrix 2 ∈ Matrix.unitaryGroup (Fin 2) α := by
  have hmatrix : (Gate.x.matrix : Tensor α).toMatrix 2 = !![0, 1; 1, 0] := by
    ext i j
    fin_cases i <;> fin_cases j <;> rfl
  rw [hmatrix, Matrix.mem_unitaryGroup_iff, Matrix.star_eq_conjTranspose]
  ext i j
  fin_cases i <;> fin_cases j <;> simp [Matrix.mul_apply]

/-- The negation network, started from no operators. -/
theorem NetworkState.unitary_isometry_negation :
    let store : Store ℂ := .sample Complex.I
    let bench : Bench ℂ Unit := ⟨.ofBytes 128, ()⟩
    let start : Network := .empty 0 2
    let op : Operator := ⟨[1], [0], ⟨0, 0, 0⟩, .unitary, false⟩
    start.Built store ∧ start.push store op = .ok (0, .negation) ∧
      (store.arena 0).stored op ∈ Matrix.unitaryGroup _ ℂ ∧
      Network.negation.Built store ∧ 1 ≤ Network.negation.qubits ∧
      Network.negation.IsUnitary (store.arena 0) ∧
      32 * 2 ^ Network.negation.qubits ≤ bench.scratch.capacity ∧
      Network.negation.innerProduct .negation store = start.innerProduct start store ∧
      (norm (Dense.backend : Backend ℂ ℝ Unit) store (ofNetwork .negation {})).outcome bench =
        .ok 1 ∧
      (overlap (Dense.backend : Backend ℂ ℝ Unit) (ofNetwork .negation {})
        (ofNetwork .negation {})).outcome ⟨store, bench⟩ = .ok 1 := by
  intro store bench start op
  have hstart : start.Built store := .empty store 0 2
  have hnet : Network.negation.Built store := Network.negation_built Complex.I
  have hop : op.Fits (store.arena start.arena) start.qubits :=
    hnet.fits op (List.mem_singleton_self op)
  have hpush : start.push store op = .ok (0, .negation) := Network.push_of_fits hop
  have hunitary : (store.arena 0).stored op ∈ Matrix.unitaryGroup _ ℂ := by
    rw [Arena.stored, Arena.tensorD_of_get (Store.get_sample_negation Complex.I)]
    exact Gate.matrix_x_mem_unitaryGroup
  have hall : Network.negation.IsUnitary (store.arena 0) := by
    intro o ho
    obtain rfl := List.mem_singleton.1 ho
    exact hunitary
  have hfit : 32 * 2 ^ Network.negation.qubits ≤ bench.scratch.capacity := by decide
  obtain ⟨hinner, -, hanswers⟩ := unitary_isometry (σ := Unit) store
  obtain ⟨hnorm, hoverlap⟩ := hanswers (s := ofNetwork .negation {}) hnet (by decide) hall rfl hfit
  exact ⟨hstart, hpush, hunitary, hnet, by decide, hall, hfit,
    hinner hstart hstart hpush hpush hunitary, hnorm, hoverlap⟩

end GateNetwork
