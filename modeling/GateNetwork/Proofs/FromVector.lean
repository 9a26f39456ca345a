import GateNetwork.Proofs.Answers
import GateNetwork.Proofs.InnerProduct

/-!
# Networks of given vectors

A vector is loaded as the first column of one operator on the whole register, so contracting the
network gives the vector back. A state over this network and the dense state over the vector then
answer alike: the same amplitudes, the same copies and the same overlaps, with the same errors.
-/

open Matrix

namespace GateNetwork

variable {α ρ σ : Type}

/-! ## All wires of a register -/

theorem collect_range {n i : Nat} (hi : i < 2 ^ n) : collect (List.range n) i = i := by
  refine Nat.eq_of_testBit_eq fun b => ?_
  rw [testBit_collect]
  rcases Nat.lt_or_ge b n with hlt | hge
  · rw [List.getElem?_range hlt]
    rfl
  · rw [List.getElem?_eq_none (by simpa using hge), testBit_of_ge hi hge]
    rfl

theorem clear_range {n i : Nat} (hi : i < 2 ^ n) : clear (List.range n) i = 0 := by
  refine eq_of_testBit_eq (clear_lt _ hi) (Nat.two_pow_pos n) fun p hp => ?_
  rw [testBit_clear, Nat.zero_testBit]
  simp [hp]

/-- An action on all wires of a register multiplies by its own matrix. -/
theorem Action.toMatrix_range [Semiring α] (t : Tensor α) (n : Nat) :
    (⟨List.range n, [], t⟩ : Action α).toMatrix n = t.toMatrix (2 ^ n) := by
  ext i j
  rw [toMatrix_apply, clear_range i.isLt, clear_range j.isLt, collect_range i.isLt,
    collect_range j.isLt]
  rfl

/-! ## Loading -/

theorem Tensor.hasGateShape_ofFirstColumn [Zero α] {v : Array α} {n : Nat} (hv : v.size = 2 ^ n) :
    (Tensor.ofFirstColumn v).hasGateShape = true :=
  hasGateShape_of_eq hv hv

theorem Tensor.entryD_ofFirstColumn [Zero α] {v : Array α} {i : Nat} (hi : i < v.size) :
    (Tensor.ofFirstColumn v).entryD i 0 = v[i] := by
  rw [entryD_eq (ofFirstColumn v) hi (Nat.zero_lt_of_lt hi)]
  exact (entry_ofFn _ _ _).trans (if_pos rfl)

/-- The operator that loads a vector: its tensor acts on the whole register. -/
def Operator.loading (n : Nat) (h : Handle) : Operator := ⟨List.range n, [], h, .nonUnitary, false⟩

theorem Operator.fits_loading {a : Arena α} {n : Nat} {h : Handle} {t : Tensor α} (hn : 1 ≤ n)
    (hlarge : n < 64) (hget : a.get h = .ok t) (hrows : t.rows = 2 ^ n) (hcols : t.cols = 2 ^ n) :
    (loading n h).Fits a n := by
  have hlength : (loading n h).targets.length = n := List.length_range
  have hwires : (loading n h).wires = List.range n := List.append_nil _
  refine ⟨List.length_pos_iff.1 ?_, fun q hq => ?_, ?_, ?_, t, hget, ?_⟩
  · rwa [hlength]
  · rw [hwires] at hq
    exact List.mem_range.1 hq
  · rw [hwires]
    exact List.nodup_range
  · rwa [hlength]
  · rw [hlength]
    exact ⟨hrows, hcols⟩

namespace Network

/-- The network holds the vector in one operator on its whole register. -/
structure Holds [Zero α] (net : Network) (store : Store α) (n : Nat) (v : Array α) : Prop where
  built : net.Built store
  qubits : net.qubits = n
  loaded : ∃ h, net.ops = [.loading n h] ∧
    (store.arena net.arena).get h = .ok (Tensor.ofFirstColumn v)

theorem Holds.kept [Zero α] {net : Network} {store store' : Store α} {n : Nat} {v : Array α}
    (hnet : net.Holds store n v) (hkept : net.Kept store store') : net.Holds store' n v := by
  obtain ⟨hbuilt, hqubits, h, hops, hget⟩ := hnet
  refine ⟨hbuilt.kept hkept, hqubits, h, hops, ?_⟩
  rw [← hget]
  exact hkept (.loading n h) (by rw [hops]; exact List.mem_cons_self)

/-- Vectors of two or more amplitudes are loaded, as far as a word can count the amplitudes. -/
theorem ofVector_eq [Zero α] (store : Store α) (arena : Nat) {v : Array α} {n : Nat}
    (hv : v.size = 2 ^ n) (hn : 1 ≤ n) (hlarge : n < 64) : ∃ net store',
      ofVector store arena v = .ok (net, store') ∧ net.arena = arena ∧ net.Holds store' n v ∧
      ∀ k h t, (store.arena k).get h = .ok t → (store'.arena k).get h = .ok t := by
  obtain ⟨h, store', heq⟩ := store.exists_allocate arena (Tensor.hasGateShape_ofFirstColumn hv)
  have hget := Store.get_allocated heq
  have hpush : (empty arena n).push store' (.loading n h) = _ :=
    push_of_fits (Operator.fits_loading hn hlarge hget hv hv)
  have hsize : (v.size < 2 || !isPowerOfTwo v.size) = false := by
    have hpow : 2 ^ 1 ≤ v.size := hv ▸ Nat.pow_le_pow_right (by decide) hn
    have hshape : isPowerOfTwo v.size = true := isPowerOfTwo_iff.2 ⟨n, hv⟩
    simp only [hshape, Bool.not_true, Bool.or_false, decide_eq_false_iff_not]
    omega
  refine ⟨_, store', ?_, rfl, ⟨(Built.empty store' arena n).push hpush, rfl, h, rfl, hget⟩,
    fun k i t => Store.get_allocate heq⟩
  rw [ofVector, hsize]
  simp only [Bool.false_eq_true, if_false, hv, Nat.log2_two_pow, heq]
  show ((empty arena n).push store' (.loading n h) >>= fun r => pure (r.2, store')) = _
  rw [hpush]
  rfl

section

variable [Semiring α] [StarRing α] {net k l : Network} {store : Store α} {n capacity : Nat}
  {v w : Array α}

/-- Contracting the network gives the vector back. -/
theorem Holds.vector_eq (hnet : net.Holds store n v) (hv : v.size = 2 ^ n) :
    net.vector (store.arena net.arena) = v := by
  obtain ⟨hbuilt, rfl, h, hops, hget⟩ := hnet
  have hmem : .loading net.qubits h ∈ net.ops := by
    rw [hops]
    exact List.mem_cons_self
  have haction : (store.arena net.arena).action (.loading net.qubits h) =
      ⟨List.range net.qubits, [], .ofFirstColumn v⟩ := by
    have htensor : (store.arena net.arena).tensorD (Operator.loading net.qubits h).tensor =
        .ofFirstColumn v := Arena.tensorD_of_get hget
    rw [Arena.action, htensor]
    rfl
  have hfits := (hbuilt.fits _ hmem).action
  rw [haction] at hfits
  have hvector : net.vector (store.arena net.arena) =
      Array.ofFn (((Tensor.ofFirstColumn v).toMatrix (2 ^ net.qubits)).col 0) := by
    rw [vector, hops, zeroState_eq]
    show Action.apply ((store.arena net.arena).action (.loading net.qubits h)) _ = _
    rw [haction, Action.apply_ofFn hfits, Action.toMatrix_range, Matrix.mulVec_single_one]
  rw [hvector]
  refine Array.ext (by rw [Array.size_ofFn, hv]) fun i hi hi' => ?_
  rw [Array.getElem_ofFn]
  exact Tensor.entryD_ofFirstColumn hi'

/-! ## Answers -/

theorem Holds.contracted_eq (hnet : net.Holds store n v) (hv : v.size = 2 ^ n)
    (hfit : 32 * 2 ^ n ≤ capacity) :
    net.contracted (store.arena net.arena) capacity = .ok v := by
  rw [contracted_eq_ok_iff, hnet.qubits]
  exact ⟨hfit, (hnet.vector_eq hv).symm⟩

theorem Holds.amplitudeAnswer_eq (hnet : net.Holds store n v) (hv : v.size = 2 ^ n)
    (hfit : 32 * 2 ^ n ≤ capacity) (digits : List Nat) :
    net.amplitudeAnswer (store.arena net.arena) capacity digits =
      (⟨n, v⟩ : StateVector α).amplitude digits := by
  rw [amplitudeAnswer, hnet.contracted_eq hv hfit, hnet.qubits, StateVector.amplitude]
  cases hi : basisIndex digits n with
  | error e => rfl
  | ok i =>
    have hlt : i < v.size := hv ▸ basisIndex_lt hi
    simp only [bind, Except.bind, getElem?_eq_some_getD hlt]

theorem Holds.copyAnswer_eq (hnet : net.Holds store n v) (hv : v.size = 2 ^ n) (hn : n < 64)
    (hfit : 32 * 2 ^ n ≤ capacity) (buffer : Array α) :
    net.copyAnswer (store.arena net.arena) capacity buffer =
      ((⟨n, v⟩ : StateVector α).copyTo.outcome buffer,
        (⟨n, v⟩ : StateVector α).copyTo.final buffer) := by
  have hdim : dimension? n = some (2 ^ n) := dimension?_eq_some.2 ⟨hn, rfl⟩
  rw [copyAnswer, vectorFor, hnet.contracted_eq hv hfit, hnet.qubits, hdim, Attempt.outcome,
    Attempt.final, StateVector.copyTo_apply, StateVector.dimension, hv]
  dsimp only
  split <;> rfl

/-- The sum over two vectors side by side is a sum over indices. -/
theorem sumFrom_zipWith {m : Nat} (hv : v.size = m) (hw : w.size = m) :
    sumFrom (List.zipWith (fun a b => conj a * b) w.toList v.toList) =
      ∑ i ∈ Finset.range m, star (w.getD i 0) * v.getD i 0 := by
  have hlist : List.zipWith (fun a b => conj a * b) w.toList v.toList =
      (List.range m).map fun i => star (w.getD i 0) * v.getD i 0 := by
    refine List.ext_getElem (by simp [hv, hw]) fun i hi hi' => ?_
    have hlt : i < m := by simpa using hi'
    have hiv : i < v.size := by omega
    have hiw : i < w.size := by omega
    simp [hiv, hiw]
    rfl
  rw [hlist, sumFrom, List.foldl_map, foldl_range_add]

theorem overlapAnswer_eq [Magnitude α ρ] [Zero ρ] [Add ρ] (hk : k.Holds store n v)
    (hl : l.Holds store n w) (hv : v.size = 2 ^ n) (hw : w.size = 2 ^ n) (hn : 1 ≤ n)
    (hfit : 32 * 2 ^ n ≤ capacity) : (k.overlapAnswer l store capacity).map modulus =
      (⟨n, v⟩ : StateVector α).overlap ⟨n, w⟩ := by
  have hqubits : max k.qubits l.qubits = n := by rw [hk.qubits, hl.qubits, max_self]
  rw [overlapAnswer, joinedVector_zero hk.built.fits hl.built.fits, hqubits, hk.vector_eq hv,
    hl.vector_eq hw, if_neg (by rw [hk.qubits, hl.qubits]; omega), if_pos hfit,
    ← sumFrom_zipWith hv hw]
  rw [StateVector.overlap, StateVector.inner, if_neg (not_not.2 rfl)]
  rfl

end

end Network

/-! ## Both representations -/

namespace StateVector

theorem ofAmplitudes_eq {v : Array α} {n : Nat} (hv : v.size = 2 ^ n) :
    ofAmplitudes v = .ok ⟨n, v⟩ := by
  have hpow : isPowerOfTwo v.size = true := isPowerOfTwo_iff.2 ⟨n, hv⟩
  rw [ofAmplitudes, if_pos hpow, hv, Nat.log2_two_pow]

theorem copyTo_eq {v : Array α} {n : Nat} (hv : v.size = 2 ^ n) (buffer : Array α) :
    (⟨n, v⟩ : StateVector α).copyTo buffer =
      if buffer.size = 2 ^ n then .ok () v
      else .error (.lengthMismatch (2 ^ n) buffer.size) buffer := by
  rw [copyTo_apply, dimension, hv]
  by_cases hsize : buffer.size = 2 ^ n
  · have hwhole : overwrite buffer v = v := by
      simp [overwrite, hsize, hv]
    rw [if_neg (not_not.2 hsize), if_pos hsize, hwhole]
  · rw [if_pos hsize, if_neg hsize]

end StateVector

namespace NetworkState

theorem ofDataLike_eq [Zero α] {s : NetworkState α} {own : Network} (hs : s.network = some own)
    (store : Store α) {v : Array α} {n : Nat} (hv : v.size = 2 ^ n) (hn : 1 ≤ n) (hlarge : n < 64) :
    ∃ net store', s.ofDataLike store (.dense v) = .ok (ofNetwork net s.settings, store') ∧
      net.Holds store' n v ∧
      ∀ k h t, (store.arena k).get h = .ok t → (store'.arena k).get h = .ok t := by
  obtain ⟨net, store', heq, -, hnet, hkeep⟩ :=
    Network.ofVector_eq store own.arena hv hn hlarge
  refine ⟨net, store', ?_, hnet, hkeep⟩
  rw [ofDataLike, ofVectorLike, getNetwork, hs]
  show (Network.ofVector store own.arena v >>= _) = _
  rw [heq]
  rfl

variable [Semiring α] [StarRing α] [Magnitude α ρ] [Zero ρ] [Add ρ]

theorem outcome_overlap {ket bra : NetworkState α} {k l : Network} (hket : ket.network = some k)
    (hbra : bra.network = some l) {store : Store α} (hk : k.Fits (store.arena k.arena))
    (hl : l.Fits (store.arena l.arena)) (bench : Bench α σ) :
    (overlap (Dense.backend : Backend α ρ σ) ket bra).outcome ⟨store, bench⟩ =
      (k.overlapAnswer l store bench.scratch.capacity).map modulus := by
  obtain ⟨store', memory, hinner, -⟩ := inner_eq (ρ := ρ) hket hbra hk hl bench
  exact Attempt.outcome_of_eq (Attempt.map_ofExcept hinner modulus)

/-- Amplitudes given to a network state and to a dense state are answered for alike, within a pool
that holds two buffers: the same amplitude or the same error for every assignment, whatever the
settings of the state and the questions before; the same copy or the same error for every buffer;
and the same overlap with any other such pair. -/
theorem dense_data_agrees {s s' : NetworkState α} {own own' : Network} (hs : s.network = some own)
    (hs' : s'.network = some own') (store : Store α) {v w : Array α} {n : Nat} (hn : 1 ≤ n)
    (hv : v.size = 2 ^ n) (hw : w.size = 2 ^ n) {bench : Bench α σ}
    (hfit : 32 * 2 ^ n ≤ bench.scratch.capacity) :
    ∃ made store₁ x made' store₂ y,
      s.ofDataLike store (.dense v) = .ok (made, store₁) ∧ StateVector.ofAmplitudes v = .ok x ∧
      s'.ofDataLike store₁ (.dense w) = .ok (made', store₂) ∧ StateVector.ofAmplitudes w = .ok y ∧
      made.Reached bench.scratch.capacity store₁ ∧
      (∀ t : NetworkState α, t.Reached bench.scratch.capacity store₁ → t.network = made.network →
        (∀ digits, (amplitude (Dense.backend : Backend α ρ σ) store₁ digits).outcome ⟨t, bench⟩ =
          x.amplitude digits) ∧
        ∀ buffer,
          (copyTo (Dense.backend : Backend α ρ σ) store₁ t).outcome (bench, buffer) =
            x.copyTo.outcome buffer ∧
          ((copyTo (Dense.backend : Backend α ρ σ) store₁ t).final (bench, buffer)).2 =
            x.copyTo.final buffer) ∧
      (∀ buffer, x.copyTo buffer =
        if buffer.size = 2 ^ n then .ok () v
        else .error (.lengthMismatch (2 ^ n) buffer.size) buffer) ∧
      ∀ t t' : NetworkState α, t.network = made.network → t'.network = made'.network →
        (overlap (Dense.backend : Backend α ρ σ) t t').outcome ⟨store₂, bench⟩ = x.overlap y := by
  have hlarge : n < 59 := wide_le_of_pow_le (capacity_lt bench.scratch) hfit
  obtain ⟨net, store₁, hmade, hnet, -⟩ := ofDataLike_eq hs store hv hn (by omega)
  obtain ⟨net', store₂, hmade', hnet', hkeep⟩ := ofDataLike_eq hs' store₁ hw hn (by omega)
  -- The second vector is stored beside the first one, which is still there.
  have hnet₂ : net.Holds store₂ n v := hnet.kept fun op hop => by
    obtain ⟨t, ht, -⟩ := (hnet.built.fits op hop).stored
    rw [ht, hkeep _ _ _ ht]
  refine ⟨_, store₁, ⟨n, v⟩, _, store₂, ⟨n, w⟩, hmade, StateVector.ofAmplitudes_eq hv, hmade',
    StateVector.ofAmplitudes_eq hw, .fresh hnet.built s.settings, ?_, StateVector.copyTo_eq hv, ?_⟩
  · intro t ht hsame
    obtain ⟨last, hserves⟩ := ht.serves
    obtain rfl : net = last := Option.some.inj (hsame.symm.trans hserves.network)
    refine ⟨fun digits => ?_, fun buffer => ?_⟩
    · obtain ⟨_, _, heq, -⟩ := amplitude_eq (ρ := ρ) ⟨t, bench⟩ hserves digits
      rw [Attempt.outcome_of_eq heq, hnet.amplitudeAnswer_eq hv hfit]
    · obtain ⟨memory, heq⟩ := copyTo_eq (ρ := ρ) hserves buffer
      rw [Attempt.outcome_of_eq heq, Attempt.final_of_eq heq,
        hnet.copyAnswer_eq hv (by omega) hfit]
      exact ⟨rfl, rfl⟩
  · intro t t' ht ht'
    rw [outcome_overlap ht ht' hnet₂.built.fits hnet'.built.fits,
      Network.overlapAnswer_eq hnet₂ hnet' hv hw hn hfit]

end NetworkState

/-- Two vectors of one qubit, the first of them not normalized. -/
theorem NetworkState.dense_data_agrees_one_qubit :
    let s : NetworkState ℂ := ofNetwork .negation {}
    let s' : NetworkState ℂ := ofNetwork .raising {}
    let bench : Bench ℂ Unit := ⟨.ofBytes 64, ()⟩
    let store : Store ℂ := .sample 1
    s.network = some .negation ∧ s'.network = some .raising ∧ 1 ≤ 1 ∧
      #[3, Complex.I].size = 2 ^ 1 ∧ #[0, Complex.I].size = 2 ^ 1 ∧
      32 * 2 ^ 1 ≤ bench.scratch.capacity ∧
      ∃ made store₁ x made' store₂ y,
        s.ofDataLike store (.dense #[3, Complex.I]) = .ok (made, store₁) ∧
        StateVector.ofAmplitudes #[3, Complex.I] = .ok x ∧
        s'.ofDataLike store₁ (.dense #[0, Complex.I]) = .ok (made', store₂) ∧
        StateVector.ofAmplitudes #[0, Complex.I] = .ok y ∧
        made.Reached bench.scratch.capacity store₁ ∧
        (amplitude (Dense.backend : Backend ℂ ℝ Unit) store₁ [1]).outcome ⟨made, bench⟩ =
          x.amplitude [1] ∧
        (overlap (Dense.backend : Backend ℂ ℝ Unit) made made').outcome ⟨store₂, bench⟩ =
          x.overlap y := by
  intro s s' bench store
  have hs : s.network = some .negation := rfl
  have hs' : s'.network = some .raising := rfl
  have hv : #[3, Complex.I].size = 2 ^ 1 := rfl
  have hw : #[0, Complex.I].size = 2 ^ 1 := rfl
  have hfit : 32 * 2 ^ 1 ≤ bench.scratch.capacity := by decide
  obtain ⟨made, store₁, x, made', store₂, y, hmade, hx, hmade', hy, hreached, hanswers, -,
    hoverlap⟩ := dense_data_agrees hs hs' store le_rfl hv hw hfit
  exact ⟨hs, hs', le_rfl, hv, hw, hfit, made, store₁, x, made', store₂, y, hmade, hx, hmade', hy,
    hreached, (hanswers made hreached rfl).1 [1], hoverlap made made' rfl rfl⟩

end GateNetwork
