import GateNetwork.Proofs.Contraction

/-!
# The matrix of a network

An operator stands for a matrix on the whole register: where the controls are one it couples the
indices that agree off the targets, and elsewhere it is the identity. Over scalars that satisfy the
laws of a ring, the gather over masks and offsets multiplies by this matrix, and the vector of a
network is the product of the matrices of its operators applied to the first basis vector.
-/

open Matrix

namespace GateNetwork

variable {α ρ σ : Type}

/-- Where there is a star, it is the conjugation. -/
instance (priority := low) [Star α] : Conj α := ⟨star⟩

noncomputable instance : Magnitude ℂ ℝ := ⟨Complex.normSq, fun z => ‖z‖⟩

/-! ## The matrices that operators stand for -/

/-- The index into a matrix on the targets: its bit `b` is the bit of `i` at the `b`-th target. -/
def localIndex (targets : List Nat) (i : Nat) : Fin (2 ^ targets.length) :=
  ⟨Nat.ofBits fun b : Fin targets.length => i.testBit targets[b], Nat.ofBits_lt_two_pow _⟩

/-- The matrix on a register of `n` qubits that applies `E` to the targets where the controls are
one. -/
def controlled [Zero α] [One α] (n : Nat) (targets controls : List Nat)
    (E : Matrix (Fin (2 ^ targets.length)) (Fin (2 ^ targets.length)) α) :
    Matrix (Fin (2 ^ n)) (Fin (2 ^ n)) α :=
  Matrix.of fun i j =>
    if ∀ c ∈ controls, i.val.testBit c then
      if ∀ p < n, p ∉ targets → i.val.testBit p = j.val.testBit p then
        E (localIndex targets i) (localIndex targets j)
      else 0
    else (1 : Matrix (Fin (2 ^ n)) (Fin (2 ^ n)) α) i j

/-- The matrix that an operator applies to its targets, given the stored one. -/
def Operator.effective [Conj α] {m : Type} (op : Operator) (M : Matrix m m α) : Matrix m m α :=
  match op.adjoint, op.kind with
  | false, _ => M
  | true, .unitary => Mᵀ.map conj
  | true, .nonUnitary => M.map conj

/-- The leading square of a tensor as a matrix. -/
def Tensor.toMatrix [Zero α] (t : Tensor α) (m : Nat) : Matrix (Fin m) (Fin m) α :=
  Matrix.of fun i j => t.entryD i j

namespace Arena

/-- The matrix that is stored for an operator. -/
def stored [Zero α] (a : Arena α) (op : Operator) :
    Matrix (Fin (2 ^ op.targets.length)) (Fin (2 ^ op.targets.length)) α :=
  (a.tensorD op.tensor).toMatrix _

/-- The matrix of an operator on a register of `n` qubits. -/
def matrix [Zero α] [One α] [Conj α] (a : Arena α) (n : Nat) (op : Operator) :
    Matrix (Fin (2 ^ n)) (Fin (2 ^ n)) α :=
  controlled n op.targets op.controls (op.effective (a.stored op))

end Arena

/-- The matrix of a network: the product of the matrices of its operators, the first one applied
first. -/
def Network.matrix [Semiring α] [Conj α] (net : Network) (a : Arena α) :
    Matrix (Fin (2 ^ net.qubits)) (Fin (2 ^ net.qubits)) α :=
  (net.ops.map (a.matrix net.qubits)).reverse.prod

/-! ## Indices -/

theorem val_localIndex (targets : List Nat) (i : Nat) :
    (localIndex targets i).val = collect targets i := by
  refine Nat.eq_of_testBit_eq fun b => ?_
  rw [localIndex, Nat.testBit_ofBits, testBit_collect]
  split
  · rename_i hb
    simp [List.getElem?_eq_getElem hb]
  · rename_i hb
    simp [List.getElem?_eq_none (Nat.not_lt.1 hb)]

theorem allSet_iff {controls : List Nat} {i : Nat} :
    allSet controls i = true ↔ ∀ c ∈ controls, i.testBit c := by
  simp [allSet]

/-- Indices of a register agree off the wires when clearing the wires makes them equal. -/
theorem clear_eq_clear_iff_of_lt {qs : List Nat} {n i j : Nat} (hi : i < 2 ^ n) (hj : j < 2 ^ n) :
    clear qs i = clear qs j ↔ ∀ p < n, p ∉ qs → i.testBit p = j.testBit p := by
  rw [clear_eq_clear_iff]
  refine ⟨fun h p _ hp => h p hp, fun h p hp => ?_⟩
  rcases Nat.lt_or_ge p n with hlt | hge
  · exact h p hlt hp
  · rw [testBit_of_ge hi hge, testBit_of_ge hj hge]

theorem localIndex_clear_or_spread {targets : List Nat} (htargets : targets.Nodup) (i : Nat)
    (k : Fin (2 ^ targets.length)) :
    localIndex targets (clear targets i ||| spread targets k) = k := by
  refine Fin.ext ?_
  rw [val_localIndex, collect_clear_or_spread htargets i k.isLt]

/-- Bits that are no targets have the same value in indices that agree off the targets. -/
theorem allSet_eq_of_clear_eq {targets controls : List Nat}
    (hcontrols : ∀ c ∈ controls, c ∉ targets) {i j : Nat}
    (h : clear targets i = clear targets j) : allSet controls i = allSet controls j := by
  rw [Bool.eq_iff_iff, allSet_iff, allSet_iff]
  refine forall₂_congr fun c hc => ?_
  rw [clear_eq_clear_iff.1 h c (hcontrols c hc)]

/-- A row of a controlled matrix, by the bits at the wires and off them. -/
theorem controlled_apply [Zero α] [One α] {n : Nat} {targets controls : List Nat}
    (E : Matrix (Fin (2 ^ targets.length)) (Fin (2 ^ targets.length)) α)
    (i j : Fin (2 ^ n)) :
    controlled n targets controls E i j =
      if allSet controls i then
        if clear targets i = clear targets j then E (localIndex targets i) (localIndex targets j)
        else 0
      else (1 : Matrix (Fin (2 ^ n)) (Fin (2 ^ n)) α) i j := by
  simp only [controlled, Matrix.of_apply, allSet_iff, clear_eq_clear_iff_of_lt i.isLt j.isLt]

/-! ## The gather as a product -/

section

variable [Semiring α]

theorem foldl_range_add (f : Nat → α) (m : Nat) :
    (List.range m).foldl (fun total k => total + f k) 0 = ∑ k ∈ Finset.range m, f k := by
  induction m with
  | zero => rfl
  | succ m ih => rw [List.range_succ, List.foldl_append, ih, Finset.sum_range_succ]; rfl

namespace Action

variable {x : Action α} {n : Nat}

/-- The matrix of an action on a register of `n` qubits. -/
def toMatrix (x : Action α) (n : Nat) : Matrix (Fin (2 ^ n)) (Fin (2 ^ n)) α :=
  controlled n x.targets x.controls (x.matrix.toMatrix _)

theorem getD_ofFn (f : Fin (2 ^ n) → α) (j : Fin (2 ^ n)) : (Array.ofFn f).getD j 0 = f j := by
  simp

/-- A row of the matrix picks the indices that agree off the targets. -/
theorem toMatrix_apply (x : Action α) (i j : Fin (2 ^ n)) :
    x.toMatrix n i j =
      if allSet x.controls i then
        if clear x.targets i = clear x.targets j then
          x.matrix.entryD (collect x.targets i) (collect x.targets j)
        else 0
      else (1 : Matrix (Fin (2 ^ n)) (Fin (2 ^ n)) α) i j := by
  simp only [toMatrix, controlled_apply, Tensor.toMatrix, Matrix.of_apply, val_localIndex]

/-- The gather at an index is the row of the matrix times the vector. -/
theorem amplitudeAt_ofFn (hx : x.Fits n) (f : Fin (2 ^ n) → α) (i : Fin (2 ^ n)) :
    x.amplitudeAt (Array.ofFn f) i = (x.toMatrix n *ᵥ f) i := by
  rw [Matrix.mulVec, dotProduct]
  simp only [toMatrix_apply]
  unfold amplitudeAt
  split
  · rw [foldl_range_add]
    let g (j : Nat) : α :=
      x.matrix.entryD (collect x.targets i) (collect x.targets j) * (Array.ofFn f).getD j 0
    calc ∑ k ∈ Finset.range (2 ^ x.targets.length), x.matrix.entryD (collect x.targets i) k *
            (Array.ofFn f).getD (clear x.targets i ||| spread x.targets k) 0
        = ∑ k ∈ Finset.range (2 ^ x.targets.length),
            g (clear x.targets i ||| spread x.targets k) := by
          refine Finset.sum_congr rfl fun k hk => ?_
          dsimp only [g]
          rw [collect_clear_or_spread hx.targets_nodup i.val (Finset.mem_range.1 hk)]
      _ = ∑ j ∈ Finset.range (2 ^ n) with clear x.targets i = clear x.targets j, g j :=
          (sum_clear_eq hx.targets_nodup hx.target_lt i.isLt g).symm
      _ = ∑ j : Fin (2 ^ n), if clear x.targets i = clear x.targets j then g j else 0 := by
          rw [Finset.sum_filter, Finset.sum_range]
      _ = _ := by
          refine Finset.sum_congr rfl fun j _ => ?_
          rw [ite_mul, zero_mul, ← getD_ofFn f j]
  · rw [getD_ofFn]
    exact (congrFun (Matrix.one_mulVec f) i).symm

/-- An action multiplies a vector by its matrix. -/
theorem apply_ofFn (hx : x.Fits n) (f : Fin (2 ^ n) → α) :
    x.apply (Array.ofFn f) = Array.ofFn (x.toMatrix n *ᵥ f) := by
  refine Array.ext (by simp) fun i hi hi' => ?_
  have hlt : i < 2 ^ n := by simpa using hi'
  simpa [apply] using amplitudeAt_ofFn hx f ⟨i, hlt⟩

/-- Several actions multiply a vector by the product of their matrices. -/
theorem applyAll_ofFn {xs : List (Action α)} (hxs : ∀ x ∈ xs, x.Fits n) (f : Fin (2 ^ n) → α) :
    applyAll xs (Array.ofFn f) =
      Array.ofFn ((xs.map fun x => x.toMatrix n).reverse.prod *ᵥ f) := by
  induction xs generalizing f with
  | nil => simp
  | cons x xs ih =>
    rw [applyAll_cons, apply_ofFn (hxs x List.mem_cons_self),
      ih fun y hy => hxs y (List.mem_cons_of_mem x hy), List.map_cons, List.reverse_cons,
      List.prod_append, List.prod_singleton, Matrix.mulVec_mulVec]

end Action

end

/-! ## Networks as products -/

theorem Tensor.toMatrix_transpose [Zero α] (t : Tensor α) (m : Nat) :
    t.transpose.toMatrix m = (t.toMatrix m)ᵀ := by
  ext i j
  exact t.entryD_transpose i j

theorem Tensor.toMatrix_map [Zero α] (f : α → α) {t : Tensor α} {m : Nat} (hrows : t.rows = m)
    (hcols : t.cols = m) : (t.map f).toMatrix m = (t.toMatrix m).map f := by
  ext i j
  exact t.entryD_map f (hrows ▸ i.isLt) (hcols ▸ j.isLt)

/-- What is applied for a stored tensor is the effective matrix of the operator. -/
theorem Operator.applied_toMatrix [Zero α] [Conj α] (op : Operator) {t : Tensor α} {m : Nat}
    (hrows : t.rows = m) (hcols : t.cols = m) :
    (op.applied t).toMatrix m = op.effective (t.toMatrix m) := by
  cases hadjoint : op.adjoint with
  | false => rw [applied, effective, hadjoint]
  | true =>
    cases hkind : op.kind with
    | unitary =>
      rw [applied, effective, hadjoint, hkind, ← Tensor.toMatrix_transpose]
      exact Tensor.toMatrix_map conj hcols hrows
    | nonUnitary =>
      rw [applied, effective, hadjoint, hkind]
      exact Tensor.toMatrix_map conj hrows hcols

section

variable [Semiring α] [Conj α] {a : Arena α} {net : Network}

theorem Operator.Fits.toMatrix_action {op : Operator} {n : Nat} (h : op.Fits a n) :
    (a.action op).toMatrix n = a.matrix n op := by
  obtain ⟨t, hget, hrows, hcols⟩ := h.stored
  rw [Arena.action, Arena.matrix, Arena.stored, Arena.tensorD_of_get hget,
    ← op.applied_toMatrix hrows hcols]
  rfl

omit [Conj α] in
theorem zeroState_eq (n : Nat) :
    (Dense.Buffers.zeroState (2 ^ n) : Array α) = Array.ofFn (Pi.single (0 : Fin (2 ^ n)) 1) := by
  refine congrArg Array.ofFn (funext fun i => ?_)
  rw [Pi.single_apply]
  exact if_congr Fin.val_eq_zero_iff rfl rfl

/-- Operators that fit take the all-zero state to the first column of the product of their matrices.
-/
theorem applyAll_zeroState {ops : List Operator} {n : Nat} (h : ∀ op ∈ ops, op.Fits a n) :
    Action.applyAll (ops.map a.action) (Dense.Buffers.zeroState (2 ^ n)) =
      Array.ofFn ((ops.map (a.matrix n)).reverse.prod *ᵥ Pi.single 0 1) := by
  have hmatrices : (ops.map a.action).map (fun x => x.toMatrix n) = ops.map (a.matrix n) := by
    rw [List.map_map]
    exact List.map_congr_left fun op hop => (h op hop).toMatrix_action
  rw [zeroState_eq, Action.applyAll_ofFn (Arena.actions_fit h), hmatrices]

/-- The vector of a network is its matrix times the first basis vector. -/
theorem Network.Fits.vector_eq (h : net.Fits a) :
    net.vector a = Array.ofFn (net.matrix a *ᵥ Pi.single 0 1) := applyAll_zeroState h

variable [Magnitude α ρ] [Zero ρ] [Add ρ] {store : Store α}

/-- Contraction succeeds within a pool that holds two buffers, and answers with the product of the
operators in list order, applied to the first basis vector. -/
theorem Network.Built.materialize_eq (h : net.Built store) {bench : Bench α σ}
    (hfit : 32 * 2 ^ net.qubits ≤ bench.scratch.capacity) :
    ∃ bench', (Dense.backend : Backend α ρ σ).materialize (store.arena net.arena) net bench =
      .ok (Array.ofFn (net.matrix (store.arena net.arena) *ᵥ Pi.single 0 1)) bench' := by
  rw [← h.fits.vector_eq]
  exact Dense.materialize_eq_vector h.fits hfit

end

/-- The raising network, one of whose operators is an adjoint that is not unitary. -/
theorem Network.materialize_raising :
    let store : Store ℂ := .sample Complex.I
    let bench : Bench ℂ Unit := ⟨.ofBytes 300, ()⟩
    Network.raising.Built store ∧ 32 * 2 ^ Network.raising.qubits ≤ bench.scratch.capacity ∧
      ∃ bench', (Dense.backend : Backend ℂ ℝ Unit).materialize (store.arena 1) .raising bench =
        .ok (Array.ofFn (Network.raising.matrix (store.arena 1) *ᵥ Pi.single 0 1)) bench' := by
  intro store bench
  have hbuilt : Network.raising.Built store := raising_built Complex.I
  have hfit : 32 * 2 ^ Network.raising.qubits ≤ bench.scratch.capacity := by decide
  exact ⟨hbuilt, hfit, hbuilt.materialize_eq hfit⟩

end GateNetwork
