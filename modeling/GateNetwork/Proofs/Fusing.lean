import GateNetwork.Proofs.AdjointGates
import GateNetwork.Proofs.Isometry
import GateNetwork.Proofs.Replacing

/-!
# Operators on the same wires

Actions on the same wires multiply like the matrices that they apply. So two neighbours of a network
can be replaced by one operator that stores the product of what they apply, and a unitary gate
cancels with its adjoint wherever the two stand next to each other in a circuit.
-/

open Matrix

namespace GateNetwork

variable {α ρ σ : Type}

/-! ## Products of tensors -/

section

variable [Semiring α] {s t : Tensor α} {m : Nat}

theorem foldl_finRange_mulAdd {n : Nat} (f g : Fin n → α) :
    (List.finRange n).foldl (fun total k => mulAdd (f k) (g k) total) 0 = ∑ k, f k * g k := by
  rw [Fin.sum_univ_def, List.sum_eq_foldl, List.foldl_map]
  rfl

/-- Tensors multiply like matrices. -/
theorem Tensor.toMatrix_mul (h : s.cols = t.rows) (hrows : s.rows = m) (hinner : s.cols = m)
    (hcols : t.cols = m) : (s.mul t h).toMatrix m = s.toMatrix m * t.toMatrix m := by
  ext i j
  have hi : i.val < s.rows := hrows ▸ i.isLt
  have hj : j.val < t.cols := hcols ▸ j.isLt
  calc (s.mul t h).entryD i j = s.mulEntry t h ⟨i, hi⟩ ⟨j, hj⟩ :=
        ((s.mul t h).entryD_eq hi hj).trans (entry_ofFn _ _ _)
    _ = ∑ k : Fin s.cols, s.entry ⟨i, hi⟩ k * t.entry (k.cast h) ⟨j, hj⟩ :=
        foldl_finRange_mulAdd _ _
    _ = ∑ k : Fin s.cols, s.entryD i k * t.entryD k j :=
        Finset.sum_congr rfl fun k _ => by
          rw [s.entryD_eq hi k.isLt, t.entryD_eq (h ▸ k.isLt) hj]
          rfl
    _ = ∑ k : Fin m, s.entryD i k * t.entryD k j := by
        rw [Fin.sum_univ_eq_sum_range (fun k => s.entryD i k * t.entryD k j), hinner,
          Fin.sum_univ_eq_sum_range (fun k => s.entryD i k * t.entryD k j)]

end

theorem Tensor.toMatrix_adjoint [Semiring α] [StarRing α] {t : Tensor α} {m : Nat}
    (hrows : t.rows = m) (hcols : t.cols = m) : t.adjoint.toMatrix m = (t.toMatrix m)ᴴ := by
  rw [adjoint, toMatrix_map conj hcols hrows, toMatrix_transpose]
  rfl

/-! ## Actions on the same wires -/

/-- Controls are a set: their order does not matter. -/
theorem controlled_congr [Zero α] [One α] {n : Nat} {targets controls controls' : List Nat}
    (h : ∀ q, q ∈ controls ↔ q ∈ controls')
    (E : Matrix (Fin (2 ^ targets.length)) (Fin (2 ^ targets.length)) α) :
    controlled n targets controls E = controlled n targets controls' E := by
  simp only [controlled, h]

/-- Actions on the same wires multiply like their matrices. -/
theorem Action.toMatrix_mul_toMatrix [Semiring α] {x y : Action α} {n : Nat} (hx : x.Fits n)
    (htargets : y.targets = x.targets) (hcontrols : ∀ q, q ∈ y.controls ↔ q ∈ x.controls) :
    y.toMatrix n * x.toMatrix n = controlled n x.targets x.controls
      (y.matrix.toMatrix (2 ^ x.targets.length) * x.matrix.toMatrix (2 ^ x.targets.length)) := by
  obtain ⟨targets, controls, M⟩ := y
  dsimp only at htargets hcontrols
  subst htargets
  rw [← controlled_mul hx.targets_nodup hx.target_lt hx.apart, ← controlled_congr hcontrols]
  rfl

/-! ## Fusing neighbours -/

namespace Operator

/-- The operators have the same targets, in one order, and the same controls, in any order. -/
structure SameWires (r s : Operator) : Prop where
  targets : s.targets = r.targets
  controls : ∀ q, q ∈ s.controls ↔ q ∈ r.controls

/-- The operator stands on the wires of `r` and stores the product of what `s` and `r` apply, to be
applied as it is stored. -/
structure Fuses [Semiring α] [Conj α] (f r s : Operator) (a : Arena α) : Prop where
  same : r.SameWires f
  nodup : f.controls.Nodup
  adjoint : f.adjoint = false
  stored : ∃ h, a.get f.tensor = .ok ((a.action s).matrix.mul (a.action r).matrix h)

section

variable [Semiring α] [Conj α] {a : Arena α} {n : Nat} {f r s : Operator}

theorem Fuses.fits (hf : f.Fuses r s a) (hr : r.Fits a n) (hs : s.Fits a n)
    (hrs : r.SameWires s) : f.Fits a n := by
  obtain ⟨h, hget⟩ := hf.stored
  obtain ⟨htargets, hcontrols⟩ := hf.same
  have hperm : f.wires.Perm r.wires := by
    rw [wires, wires, htargets]
    have hsame := List.perm_ext_iff_of_nodup hf.nodup hr.action.controls_nodup
    exact (hsame.2 hcontrols).append_left _
  refine ⟨htargets ▸ hr.targets_ne, fun q hq => hr.lt q (hperm.mem_iff.1 hq),
    hperm.nodup_iff.2 hr.nodup, htargets ▸ hr.few, _, hget, ?_, ?_⟩
  · rw [htargets, ← hrs.targets]
    exact hs.action.rows
  · rw [htargets]
    exact hr.action.cols

/-- The matrix of the fused operator is the product of the matrices. -/
theorem Fuses.matrix_eq (hf : f.Fuses r s a) (hr : r.Fits a n) (hs : s.Fits a n)
    (hrs : r.SameWires s) : a.matrix n f = a.matrix n s * a.matrix n r := by
  have hproduct : a.matrix n s * a.matrix n r = controlled n r.targets r.controls
      ((a.action s).matrix.toMatrix _ * (a.action r).matrix.toMatrix _) := by
    rw [← hs.toMatrix_action, ← hr.toMatrix_action]
    exact Action.toMatrix_mul_toMatrix hr.action hrs.targets hrs.controls
  obtain ⟨⟨htargets, hcontrols⟩, -, hadjoint, h, hget⟩ := hf
  have hrows : (a.action s).matrix.rows = 2 ^ r.targets.length := by
    rw [← hrs.targets]
    exact hs.action.rows
  rw [hproduct, ← Tensor.toMatrix_mul h hrows (h.trans hr.action.rows) hr.action.cols]
  -- The type of the stored matrix names the targets of `f`, so these are replaced all at once.
  obtain ⟨targets, controls, k, kind, adjoint⟩ := f
  dsimp only at htargets hcontrols hadjoint hget
  subst htargets hadjoint
  rw [← controlled_congr hcontrols, Arena.matrix, Arena.stored, Arena.tensorD_of_get hget]
  rfl

end

end Operator

namespace Network

variable [Semiring α] [StarRing α] {net : Network} {store : Store α} {before after : List Operator}
  {f r s : Operator}

/-- The product of what two neighbours on the same wires apply can be stored. -/
theorem Built.exists_fuses (h : net.Built store) (hops : net.ops = before ++ r :: s :: after)
    (hrs : r.SameWires s) : ∃ product k store',
      store.allocate net.arena product = .ok (k, store') ∧ net.Kept store store' ∧
        ∀ kind, Operator.Fuses ⟨r.targets, r.controls, k, kind, false⟩ r s
          (store'.arena net.arena) := by
  let a := store.arena net.arena
  have hrmem : r ∈ net.ops := by simp [hops]
  have hsmem : s ∈ net.ops := by simp [hops]
  have hr := h.fits r hrmem
  have hs := h.fits s hsmem
  have hside : 2 ^ s.targets.length = 2 ^ r.targets.length := congrArg (2 ^ ·.length) hrs.targets
  have hinner : (a.action s).matrix.cols = (a.action r).matrix.rows := by
    rw [hs.action.cols, hr.action.rows]
    exact hside
  obtain ⟨k, store', heq, hget, hkept, haction⟩ :=
    h.exists_stored (t := (a.action s).matrix.mul (a.action r).matrix hinner)
      (hs.action.rows.trans hside) hr.action.cols
  refine ⟨_, k, store', heq, hkept, fun kind =>
    ⟨⟨rfl, fun _ => .rfl⟩, hr.action.controls_nodup, rfl, ?_⟩⟩
  rw [haction s hsmem, haction r hrmem]
  exact ⟨hinner, hget⟩

/-- Two neighbours on the same wires are replaced by one operator that fuses them. -/
theorem Built.fuse [Magnitude α ρ] [Zero ρ] [Add ρ] (h : net.Built store)
    (hops : net.ops = before ++ r :: s :: after) (hrs : r.SameWires s)
    (hf : f.Fuses r s (store.arena net.arena)) :
    let fused := ofOps net.arena net.qubits (before ++ f :: after)
    pushAll store (.empty net.arena net.qubits) (before ++ f :: after) = .ok fused ∧
      fused.vector (store.arena net.arena) = net.vector (store.arena net.arena) ∧
      net.AnswersAlike (ρ := ρ) σ fused store := by
  have hr := h.fits r (by simp [hops])
  have hs := h.fits s (by simp [hops])
  refine h.replace [r, s] [f] hops (fun op hop => ?_) ?_
  · rw [List.mem_singleton.1 hop]
    exact hf.fits hr hs hrs
  · simp [hf.matrix_eq hr hs hrs]

end Network

/-! ## A gate and its adjoint -/

section

variable [CommRing α] [StarRing α] {g : Gate α} {targets controls controls' : List Nat} {n : Nat}

/-- A gate with a unitary matrix cancels with its adjoint, in either order. -/
theorem Placement.toMatrix_mul_adjoint {b : Bool}
    (hfits : (⟨g, targets, controls, b⟩ : Placement α).Fits n)
    (hcontrols : ∀ q, q ∈ controls' ↔ q ∈ controls) (hflag : g.isUnitary = true)
    (hunitary : g.matrix.toMatrix (2 ^ targets.length) ∈ Matrix.unitaryGroup _ α) :
    (⟨g, targets, controls', !b⟩ : Placement α).action.toMatrix n *
      (⟨g, targets, controls, b⟩ : Placement α).action.toMatrix n = 1 := by
  let p : Placement α := ⟨g, targets, controls, b⟩
  let q : Placement α := ⟨g, targets, controls', !b⟩
  have hadjoint : g.matrix.adjoint.toMatrix (2 ^ targets.length) =
      (g.matrix.toMatrix (2 ^ targets.length))ᴴ := Tensor.toMatrix_adjoint hfits.rows hfits.cols
  have hone : q.applied.toMatrix (2 ^ targets.length) * p.applied.toMatrix (2 ^ targets.length) =
      1 := by
    cases b with
    | false =>
      simp only [p, q, applied, Bool.not_false, hflag]
      rw [hadjoint]
      exact Matrix.mem_unitaryGroup_iff'.1 hunitary
    | true =>
      simp only [p, q, applied, Bool.not_true, hflag]
      rw [hadjoint]
      exact Matrix.mem_unitaryGroup_iff.1 hunitary
  calc q.action.toMatrix n * p.action.toMatrix n
      = GateNetwork.controlled n targets controls
          (q.applied.toMatrix (2 ^ targets.length) * p.applied.toMatrix (2 ^ targets.length)) :=
        Action.toMatrix_mul_toMatrix (y := q.action) hfits.action rfl hcontrols
    _ = GateNetwork.controlled n targets controls 1 := congrArg _ hone
    _ = 1 := controlled_one hfits.action.targets_nodup

variable [Magnitude α ρ] [Zero ρ] [Add ρ]

/-- Both circuits are accepted behind the draft, and contracting gives the same for both. -/
def Draft.PreparesAlike (σ : Type) (d : Draft α) (ps qs : List (Placement α)) : Prop :=
  ∃ positions d₁ positions' d₂,
    placeAll ps d = .ok positions d₁ ∧ placeAll qs d = .ok positions' d₂ ∧
      d₁.vector = d₂.vector ∧ ∀ bench : Bench α σ,
        ((Dense.backend : Backend α ρ σ).materialize (d₁.store.arena d₁.network.arena)
          d₁.network).outcome bench =
        ((Dense.backend : Backend α ρ σ).materialize (d₂.store.arena d₂.network.arena)
          d₂.network).outcome bench

theorem Draft.preparesAlike_of_vector (σ : Type) {d : Draft α} {ps qs : List (Placement α)}
    (hd : d.network.Built d.store) (hps : ∀ p ∈ ps, p.Fits d.network.qubits)
    (hqs : ∀ q ∈ qs, q.Fits d.network.qubits)
    (h : Action.applyAll (ps.map Placement.action) d.vector =
      Action.applyAll (qs.map Placement.action) d.vector) : d.PreparesAlike (ρ := ρ) σ ps qs := by
  obtain ⟨positions, d₁, hplace, hbuilt, hn, hvector⟩ := vector_placeAll hd hps
  obtain ⟨positions', d₂, hplace', hbuilt', hn', hvector'⟩ := vector_placeAll hd hqs
  have hsame : d₁.vector = d₂.vector := (hvector.trans h).trans hvector'.symm
  refine ⟨positions, d₁, positions', d₂, hplace, hplace', hsame, fun bench => ?_⟩
  rw [outcome_materialize hbuilt, outcome_materialize hbuilt', hn, hn', hsame]

/-- A circuit prepares the same with and without a gate that is followed by its adjoint, or an
adjoint that is followed by its gate. -/
theorem Draft.cancel_adjoint (σ : Type) {d : Draft α} {before after : List (Placement α)} {b : Bool}
    (hd : d.network.Built d.store) (hflag : g.isUnitary = true)
    (hunitary : g.matrix.toMatrix (2 ^ g.qubits) ∈ Matrix.unitaryGroup _ α)
    (hcontrols : ∀ q, q ∈ controls' ↔ q ∈ controls)
    (hfits : ∀ p ∈ before ++ ⟨g, targets, controls, b⟩ :: ⟨g, targets, controls', !b⟩ :: after,
      p.Fits d.network.qubits) :
    d.PreparesAlike (ρ := ρ) σ
      (before ++ ⟨g, targets, controls, b⟩ :: ⟨g, targets, controls', !b⟩ :: after)
      (before ++ after) := by
  let n := d.network.qubits
  let p : Placement α := ⟨g, targets, controls, b⟩
  let q : Placement α := ⟨g, targets, controls', !b⟩
  have hp : p.Fits n := hfits p (by simp [p])
  have hq : q.Fits n := hfits q (by simp [q])
  have hbefore : ∀ x ∈ before.map Placement.action, x.Fits n := by
    intro x hx
    obtain ⟨o, ho, rfl⟩ := List.mem_map.1 hx
    exact (hfits o (List.mem_append_left _ ho)).action
  have hrest : ∀ o ∈ before ++ after, o.Fits n := by
    intro o ho
    rcases List.mem_append.1 ho with ho | ho
    · exact hfits o (by simp [ho])
    · exact hfits o (by simp [ho])
  have hone : q.action.toMatrix n * p.action.toMatrix n = 1 := by
    have hqubits : g.qubits = targets.length := hp.qubits
    rw [hqubits] at hunitary
    exact Placement.toMatrix_mul_adjoint hp hcontrols hflag hunitary
  obtain ⟨f, hf⟩ : ∃ f : Fin (2 ^ n) → α, d.vector = Array.ofFn f := ⟨_, hd.fits.vector_eq⟩
  -- Behind the same actions before them the two multiply by one.
  refine preparesAlike_of_vector σ hd hfits hrest ?_
  rw [hf, List.map_append, List.map_append, List.map_cons, List.map_cons, Action.applyAll_append,
    Action.applyAll_append, Action.applyAll_cons, Action.applyAll_cons,
    Action.applyAll_ofFn hbefore, Action.apply_ofFn hp.action, Action.apply_ofFn hq.action,
    Matrix.mulVec_mulVec, hone, Matrix.one_mulVec]

/-- Operators on the same wires fuse. The product of what two neighbours apply can be stored, and
one operator that stores it takes their place in the network: it is accepted, and neither the vector
nor what is answered from it changes. In particular a gate with a unitary matrix that counts as
unitary cancels with its adjoint on the same wires, in either order and anywhere in a circuit. -/
theorem Network.same_wires_fuse (σ : Type) :
    (∀ (store : Store α) (net : Network) (r s : Operator) (before after : List Operator),
      net.Built store → net.ops = before ++ r :: s :: after → r.SameWires s →
      (∃ product k store', store.allocate net.arena product = .ok (k, store') ∧
        net.Built store' ∧
        net.vector (store'.arena net.arena) = net.vector (store.arena net.arena) ∧
        ∀ kind, Operator.Fuses ⟨r.targets, r.controls, k, kind, false⟩ r s
          (store'.arena net.arena)) ∧
      ∀ f : Operator, f.Fuses r s (store.arena net.arena) →
        let fused := ofOps net.arena net.qubits (before ++ f :: after)
        pushAll store (.empty net.arena net.qubits) (before ++ f :: after) = .ok fused ∧
          fused.vector (store.arena net.arena) = net.vector (store.arena net.arena) ∧
          net.AnswersAlike (ρ := ρ) σ fused store) ∧
    ∀ (d : Draft α) (g : Gate α) (targets controls controls' : List Nat) (b : Bool)
      (before after : List (Placement α)), d.network.Built d.store → g.isUnitary = true →
      g.matrix.toMatrix (2 ^ g.qubits) ∈ Matrix.unitaryGroup _ α →
      (∀ q, q ∈ controls' ↔ q ∈ controls) →
      (∀ p ∈ before ++ ⟨g, targets, controls, b⟩ :: ⟨g, targets, controls', !b⟩ :: after,
        p.Fits d.network.qubits) →
      d.PreparesAlike (ρ := ρ) σ
        (before ++ ⟨g, targets, controls, b⟩ :: ⟨g, targets, controls', !b⟩ :: after)
        (before ++ after) := by
  refine ⟨fun store net r s before after h hops hrs => ⟨?_, fun f hf => h.fuse hops hrs hf⟩,
    fun d g targets controls controls' b before after hd hflag hunitary hcontrols hfits => ?_⟩
  · obtain ⟨product, k, store', heq, hkept, hfuses⟩ := h.exists_fuses hops hrs
    exact ⟨product, k, store', heq, h.kept hkept, Network.vector_congr hkept, hfuses⟩
  · exact Draft.cancel_adjoint σ hd hflag hunitary hcontrols hfits

end

/-- Two operators that raise a qubit where two others are one, both of them adjoints, one of which
counts as unitary, and a negation that cancels with its adjoint. -/
theorem Network.same_wires_fuse_raising :
    let store : Store ℂ := .sample Complex.I
    let r : Operator := ⟨[2], [0, 1], ⟨1, 0, 0⟩, .nonUnitary, true⟩
    let s : Operator := ⟨[2], [1, 0], ⟨1, 0, 0⟩, .unitary, true⟩
    let net : Network := ⟨1, 3, [r, s], 2⟩
    let start : Draft ℂ := ⟨.empty 0 2, .empty⟩
    let first : Placement ℂ := ⟨.x, [1], [0], true⟩
    let second : Placement ℂ := ⟨.x, [1], [0], false⟩
    net.Built store ∧ r.SameWires s ∧
      (∃ product k store', store.allocate 1 product = .ok (k, store') ∧
        net.vector (store'.arena 1) = net.vector (store.arena 1) ∧
        let fused := ofOps 1 3 [⟨[2], [0, 1], k, .unitary, false⟩]
        pushAll store' (.empty 1 3) fused.ops = .ok fused ∧
          fused.vector (store'.arena 1) = net.vector (store'.arena 1) ∧
          net.AnswersAlike (ρ := ℝ) Unit fused store') ∧
      start.PreparesAlike (ρ := ℝ) Unit [first, second] [] := by
  intro store r s net start first second
  have hr : r.Fits (store.arena 1) 3 :=
    ⟨by decide, by decide, by decide, by decide, _, Store.get_sample_raising Complex.I, rfl, rfl⟩
  have hs : s.Fits (store.arena 1) 3 :=
    ⟨by decide, by decide, by decide, by decide, _, Store.get_sample_raising Complex.I, rfl, rfl⟩
  have hbuilt : net.Built store := by
    refine built_iff.2 ⟨fun op hop => ?_, rfl⟩
    rcases List.mem_cons.1 hop with rfl | hop
    · exact hr
    · obtain rfl := List.mem_singleton.1 hop
      exact hs
  have hsame : r.SameWires s := ⟨rfl, fun q => by simp [r, s, or_comm]⟩
  obtain ⟨hfuse, hcancel⟩ := same_wires_fuse (α := ℂ) (ρ := ℝ) Unit
  obtain ⟨product, k, store', heq, hbuilt', hvector, hfuses⟩ :=
    (hfuse store net r s [] [] hbuilt rfl hsame).1
  refine ⟨hbuilt, hsame, ⟨product, k, store', heq, hvector, ?_⟩, ?_⟩
  · exact (hfuse store' net r s [] [] hbuilt' rfl hsame).2 _ (hfuses .unitary)
  · refine hcancel start .x [1] [0] [0] true [] [] (.empty _ 0 2) rfl Gate.matrix_x_mem_unitaryGroup
      (fun _ => .rfl) fun p hp => ?_
    have hfits (b : Bool) : (⟨.x, [1], [0], b⟩ : Placement ℂ).Fits start.network.qubits :=
      ⟨rfl, by simp, by simp [start, empty], by simp, by simp, rfl, rfl⟩
    rcases List.mem_cons.1 hp with rfl | hp
    · exact hfits true
    · obtain rfl := List.mem_singleton.1 hp
      exact hfits false

end GateNetwork
