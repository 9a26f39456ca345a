import GateNetwork.Proofs.FromVector
import GateNetwork.Proofs.Placing

/-!
# Adjoints of placed gates

A placed gate takes the vector of the network one action further. The adjoint of a gate that counts
as unitary acts by the conjugate transpose of its matrix, and the adjoint of any other gate by the
conjugate alone. So an adjoint acts as the gate with the adjoint matrix if the gate counts as
unitary or its matrix is symmetric. For every other gate there is a state that tells the two apart.
-/

open Matrix

namespace GateNetwork

variable {α ρ σ : Type}

theorem Scratch.capacity_ofBytes_of_lt {n : Nat} (hn : n < 59) :
    (ofBytes (32 * 2 ^ n) : Scratch α).capacity = 32 * 2 ^ n := by
  have hpow : 2 ^ n ≤ 2 ^ 58 := Nat.pow_le_pow_right (by decide) (by omega)
  show min (32 * 2 ^ n) (2 ^ 64 - 1) / 16 * 16 = 32 * 2 ^ n
  omega

/-! ## Actions of placements -/

namespace Placement

variable [Conj α]

/-- The matrix that a placed gate applies. -/
def applied (p : Placement α) : Tensor α :=
  match p.adjoint, p.gate.isUnitary with
  | false, _ => p.gate.matrix
  | true, true => p.gate.matrix.adjoint
  | true, false => p.gate.matrix.map conj

def action (p : Placement α) : Action α := ⟨p.targets, p.controls, p.applied⟩

theorem action_operator (p : Placement α) (h : Handle) :
    (p.operator h).action p.gate.matrix = p.action := by
  obtain ⟨g, targets, controls, adjoint⟩ := p
  cases adjoint with
  | false => rfl
  | true =>
    unfold action applied operator Operator.action Operator.applied
    cases g.isUnitary <;> rfl

theorem Fits.action {p : Placement α} {n : Nat} (hp : p.Fits n) : p.action.Fits n := by
  have hshape : p.applied.rows = 2 ^ p.targets.length ∧ p.applied.cols = 2 ^ p.targets.length := by
    unfold applied
    split
    · exact ⟨hp.rows, hp.cols⟩
    · exact ⟨hp.cols, hp.rows⟩
    · exact ⟨hp.rows, hp.cols⟩
  exact ⟨hp.lt, hp.nodup, hshape.1, hshape.2⟩

end Placement

/-! ## Vectors of drafts -/

namespace Draft

variable [Zero α] [One α] [Add α] [Mul α] [Conj α] {d d' : Draft α} {p : Placement α}

def vector (d : Draft α) : Array α := d.network.vector (d.store.arena d.network.arena)

/-- A placed gate acts on what was prepared before. -/
theorem vector_place (hd : d.network.Built d.store) {position : Nat}
    (h : place p d = .ok position d') :
    d'.network.Built d'.store ∧ d'.network.qubits = d.network.qubits ∧
      d'.vector = p.action.apply d.vector := by
  obtain ⟨hp, k, store, heq, -, rfl⟩ := place_eq_ok h
  have hget := Store.get_allocated heq
  have hkept : d.network.Kept d.store store := hd.fits.kept_allocate heq
  have hpush : d.network.push store (p.operator k) = _ :=
    Network.push_of_fits ((Placement.fits_iff_operator hget).1 hp).2
  refine ⟨(hd.kept hkept).push hpush, rfl, ?_⟩
  have hold : d.network.ops.map (store.arena d.network.arena).action =
      d.network.ops.map (d.store.arena d.network.arena).action := Arena.map_action_congr hkept
  have hnew : (store.arena d.network.arena).action (p.operator k) = p.action := by
    rw [Arena.action, ← p.action_operator k]
    exact congrArg (p.operator k).action (Arena.tensorD_of_get hget)
  show Action.applyAll ((d.network.ops ++ [p.operator k]).map (store.arena d.network.arena).action)
    (Dense.Buffers.zeroState (2 ^ d.network.qubits)) = _
  rw [List.map_append, hold, Action.applyAll_append, List.map_singleton, hnew]
  rfl

/-- Placed gates act one after the other. -/
theorem vector_placeAll {ps : List (Placement α)} (hd : d.network.Built d.store)
    (hps : ∀ p ∈ ps, p.Fits d.network.qubits) : ∃ positions d',
      placeAll ps d = .ok positions d' ∧ d'.network.Built d'.store ∧
        d'.network.qubits = d.network.qubits ∧
        d'.vector = Action.applyAll (ps.map Placement.action) d.vector := by
  induction ps generalizing d with
  | nil => exact ⟨_, _, rfl, hd, rfl, rfl⟩
  | cons p ps ih =>
    obtain ⟨k, store, -, hplace⟩ := place_of_fits (hps p List.mem_cons_self)
    obtain ⟨hbuilt, hn, hvector⟩ := vector_place hd hplace
    obtain ⟨positions, last, hrest, hlast, hn', hvector'⟩ := ih hbuilt fun q hq => by
      rw [hn]
      exact hps q (List.mem_cons_of_mem p hq)
    refine ⟨d.network.ops.length :: positions, last, ?_, hlast, hn'.trans hn, ?_⟩
    · rw [placeAll_cons_ok hplace, Attempt.bind_ok hrest]
      rfl
    · rw [hvector', hvector]
      rfl

theorem outcome_materialize [Magnitude α ρ] [Zero ρ] [Add ρ] (hd : d.network.Built d.store)
    (bench : Bench α σ) :
    ((Dense.backend : Backend α ρ σ).materialize (d.store.arena d.network.arena)
      d.network).outcome bench =
      if 32 * 2 ^ d.network.qubits ≤ bench.scratch.capacity then .ok d.vector
      else .error (.workspace (Dense.workspace d.network.qubits) bench.scratch.capacity) := by
  obtain ⟨memory, heq⟩ := Dense.contract_eq hd.fits bench
  exact Attempt.outcome_of_eq heq

end Draft

/-! ## Adjoints -/

section

variable [Semiring α] [StarRing α] [Magnitude α ρ] [Zero ρ] [Add ρ] {g g' : Gate α}

/-- Wherever the adjoint of the gate is placed, a gate that has the adjoint matrix is placed too, and
contracting gives the same. -/
def Gate.AdjointActs (σ : Type) (g : Gate α) : Prop :=
  ∀ (d : Draft α) (targets controls : List Nat) (position : Nat) (d₁ : Draft α),
    d.network.Built d.store → Draft.place ⟨g, targets, controls, true⟩ d = .ok position d₁ →
    ∀ g' : Gate α, g'.qubits = g.qubits → g'.matrix = g.adjointMatrix →
      ∃ d₂, Draft.place ⟨g', targets, controls, false⟩ d = .ok position d₂ ∧
        ∀ bench : Bench α σ,
          ((Dense.backend : Backend α ρ σ).materialize (d₁.store.arena d₁.network.arena)
            d₁.network).outcome bench =
          ((Dense.backend : Backend α ρ σ).materialize (d₂.store.arena d₂.network.arena)
            d₂.network).outcome bench

theorem Placement.fits_adjointMatrix {targets controls : List Nat} {n : Nat}
    (hqubits : g'.qubits = g.qubits) (hmatrix : g'.matrix = g.adjointMatrix)
    (hp : (⟨g, targets, controls, true⟩ : Placement α).Fits n) :
    (⟨g', targets, controls, false⟩ : Placement α).Fits n := by
  refine ⟨hqubits.trans hp.qubits, hp.targets_ne, hp.lt, hp.nodup, hp.few, ?_, ?_⟩
  · rw [hmatrix]
    exact hp.cols
  · rw [hmatrix]
    exact hp.rows

theorem Placement.applied_adjoint (h : g.isUnitary = true ∨ g.matrix.transpose = g.matrix)
    (targets controls : List Nat) :
    (⟨g, targets, controls, true⟩ : Placement α).applied = g.adjointMatrix := by
  unfold applied
  cases hflag : g.isUnitary with
  | true => rfl
  | false =>
    have hsymmetric : g.matrix.transpose = g.matrix := by simpa [hflag] using h
    show g.matrix.map conj = g.matrix.transpose.map conj
    rw [hsymmetric]

theorem Gate.adjointActs_of (σ : Type) (h : g.isUnitary = true ∨ g.matrix.transpose = g.matrix) :
    g.AdjointActs σ := by
  intro d targets controls position d₁ hd hplace g' hqubits hmatrix
  obtain ⟨hp, k, store, heq, hposition, -⟩ := Draft.place_eq_ok hplace
  have hp' := Placement.fits_adjointMatrix hqubits hmatrix hp
  obtain ⟨k', store', -, hplace'⟩ := Draft.place_of_fits hp'
  obtain ⟨hbuilt, hn, hvector⟩ := Draft.vector_place hd hplace
  obtain ⟨hbuilt', hn', hvector'⟩ := Draft.vector_place hd hplace'
  rw [← hposition] at hplace'
  refine ⟨_, hplace', fun bench => ?_⟩
  have haction : (⟨g, targets, controls, true⟩ : Placement α).action =
      (⟨g', targets, controls, false⟩ : Placement α).action := by
    unfold Placement.action
    rw [Placement.applied_adjoint h targets controls, ← hmatrix]
    rfl
  have hsame := hvector.trans ((congrArg (·.apply d.vector) haction).trans hvector'.symm)
  rw [Draft.outcome_materialize hbuilt, Draft.outcome_materialize hbuilt', hn, hn', hsame]

/-- A gate on the whole register takes a basis vector to a column of its matrix. -/
theorem Draft.outcome_place_range {d d' : Draft α} {p : Placement α} {n : Nat} {j : Fin (2 ^ n)}
    (hd : d.network.Built d.store) (hn : d.network.qubits = n)
    (hbasis : d.vector = Array.ofFn (Pi.single j 1 : Fin (2 ^ n) → α))
    (htargets : p.targets = List.range n) (hcontrols : p.controls = []) {position : Nat}
    (h : place p d = .ok position d') {bench : Bench α σ}
    (hfit : 32 * 2 ^ n ≤ bench.scratch.capacity) :
    ((Dense.backend : Backend α ρ σ).materialize (d'.store.arena d'.network.arena)
      d'.network).outcome bench = .ok (Array.ofFn ((p.applied.toMatrix (2 ^ n)).col j)) := by
  obtain ⟨hbuilt, hn', hvector⟩ := vector_place hd h
  have haction : p.action = ⟨List.range n, [], p.applied⟩ := by
    rw [Placement.action, htargets, hcontrols]
  have hfits := (place_eq_ok h).1.action
  rw [hn, haction] at hfits
  rw [outcome_materialize hbuilt, hn', hn, if_pos hfit, hvector, hbasis, haction,
    Action.apply_ofFn hfits, Action.toMatrix_range, Matrix.mulVec_single_one]

/-- If the adjoint acts as the gate with the adjoint matrix, then it does so on every basis vector of
a register that the gate fills, so both apply the same matrix. -/
theorem Gate.AdjointActs.col_eq [Inhabited σ] (hacts : g.AdjointActs σ) (hpos : 1 ≤ g.qubits)
    (hsmall : g.qubits < 59) (hrows : g.matrix.rows = 2 ^ g.qubits)
    (hcols : g.matrix.cols = 2 ^ g.qubits) (j : Fin (2 ^ g.qubits)) :
    ((⟨g, List.range g.qubits, [], true⟩ : Placement α).applied.toMatrix (2 ^ g.qubits)).col j =
      (g.adjointMatrix.toMatrix (2 ^ g.qubits)).col j := by
  obtain ⟨net, store, -, -, hnet, -⟩ := Network.ofVector_eq .empty 0
    (v := Array.ofFn (Pi.single j 1 : Fin (2 ^ g.qubits) → α)) Array.size_ofFn hpos (by omega)
  have hfits : (⟨g, List.range g.qubits, [], true⟩ : Placement α).Fits net.qubits := by
    rw [hnet.qubits]
    exact Placement.fits_range rfl hpos (by omega) hrows hcols true
  have hbasis : (⟨net, store⟩ : Draft α).vector = _ := hnet.vector_eq Array.size_ofFn
  let bench : Bench α σ := ⟨.ofBytes (32 * 2 ^ g.qubits), default⟩
  have hfit : 32 * 2 ^ g.qubits ≤ bench.scratch.capacity :=
    (Scratch.capacity_ofBytes_of_lt hsmall).ge
  obtain ⟨h, store₁, -, hplace⟩ := Draft.place_of_fits (d := ⟨net, store⟩) hfits
  obtain ⟨d₂, hplace₂, hsame⟩ := hacts _ _ _ _ _ hnet.built hplace
    ⟨g.name, g.qubits, g.adjointMatrix, false⟩ rfl rfl
  have houtcome := hsame bench
  rw [Draft.outcome_place_range hnet.built hnet.qubits hbasis rfl rfl hplace hfit,
    Draft.outcome_place_range hnet.built hnet.qubits hbasis rfl rfl hplace₂ hfit] at houtcome
  funext i
  have hentry := congrArg (·.getD i.val 0) (Except.ok.inj houtcome)
  rwa [Action.getD_ofFn, Action.getD_ofFn] at hentry

/-- An adjoint acts as the gate with the adjoint matrix exactly if the gate counts as unitary or its
matrix is symmetric. -/
theorem Gate.adjointActs_iff [Inhabited σ] (hpos : 1 ≤ g.qubits) (hsmall : g.qubits < 59)
    (hrows : g.matrix.rows = 2 ^ g.qubits) (hcols : g.matrix.cols = 2 ^ g.qubits) :
    g.AdjointActs σ ↔ g.isUnitary = true ∨ g.matrix.transpose = g.matrix := by
  refine ⟨fun hacts => ?_, Gate.adjointActs_of σ⟩
  by_cases hflag : g.isUnitary = true
  · exact .inl hflag
  · right
    have happlied : (⟨g, List.range g.qubits, [], true⟩ : Placement α).applied =
        g.matrix.map conj := by
      rw [Placement.applied, Bool.eq_false_of_not_eq_true hflag]
    refine Tensor.eq_of_entry hcols hrows hrows hcols fun i j hi hj => ?_
    have hi' : i < g.matrix.rows := by rwa [hrows]
    have hj' : j < g.matrix.cols := by rwa [hcols]
    have hit : i < g.matrix.transpose.rows := by rwa [Tensor.rows_transpose, hcols]
    have hjt : j < g.matrix.transpose.cols := by rwa [Tensor.cols_transpose, hrows]
    have hcol := congrFun (hacts.col_eq hpos hsmall hrows hcols ⟨j, hj⟩) ⟨i, hi⟩
    rw [happlied] at hcol
    have hstar : star (g.matrix.entryD i j) = star (g.matrix.transpose.entryD i j) :=
      calc star (g.matrix.entryD i j) = (g.matrix.map conj).entryD i j :=
            (g.matrix.entryD_map conj hi' hj').symm
        _ = g.adjointMatrix.entryD i j := hcol
        _ = star (g.matrix.transpose.entryD i j) := g.matrix.transpose.entryD_map conj hit hjt
    rw [Tensor.get?_eq_some _ hit hjt, Tensor.get?_eq_some _ hi' hj', star_injective hstar]

end

theorem Tensor.transpose_ofFour [Zero α] (a b c d : α) :
    (ofFour a b c d).transpose = ofFour a c b d := by
  refine eq_of_entry rfl rfl rfl rfl fun i j (hi : i < 2) (hj : j < 2) => ?_
  rw [get?_eq_some (ofFour a b c d).transpose hi hj, get?_eq_some (ofFour a c b d) hi hj,
    entryD_transpose]
  interval_cases i <;> interval_cases j <;> rfl

/-- A projector does not count as unitary, but it is its own adjoint. -/
theorem Gate.adjointActs_projector :
    let g : Gate ℂ := .projector .one
    1 ≤ g.qubits ∧ g.qubits < 59 ∧ g.matrix.rows = 2 ^ g.qubits ∧ g.matrix.cols = 2 ^ g.qubits ∧
      g.isUnitary = false ∧ g.AdjointActs Unit := by
  intro g
  have hsymmetric : g.matrix.transpose = g.matrix := Tensor.transpose_ofFour 0 0 0 1
  exact ⟨le_rfl, by decide, rfl, rfl, rfl,
    (Gate.adjointActs_iff (g := g) le_rfl (by decide) rfl rfl).2 (.inr hsymmetric)⟩

theorem Tensor.entryD_raising [Zero α] (c : α) {i j : Nat} (hi : i < 2) (hj : j < 2) :
    (raising c).entryD i j = if i = 1 ∧ j = 0 then c else 0 :=
  (entryD_eq (raising c) hi hj).trans (entry_ofFn _ _ _)

/-- The matrix that raises a qubit is taken for its own adjoint, which lowers it. -/
theorem Gate.adjoint_raising_raises :
    let g : Gate ℂ := ⟨"raise", 1, .raising 1, false⟩
    let g' : Gate ℂ := ⟨"lower", 1, g.adjointMatrix, false⟩
    let start : Draft ℂ := ⟨.empty 0 1, .empty⟩
    let bench : Bench ℂ Unit := ⟨.ofBytes 64, ()⟩
    ∃ d₁ d₂, Draft.place ⟨g, [0], [], true⟩ start = .ok 0 d₁ ∧
      Draft.place ⟨g', [0], [], false⟩ start = .ok 0 d₂ ∧
      ((Dense.backend : Backend ℂ ℝ Unit).materialize (d₁.store.arena 0) d₁.network).outcome bench =
        .ok #[0, 1] ∧
      ((Dense.backend : Backend ℂ ℝ Unit).materialize (d₂.store.arena 0) d₂.network).outcome bench =
        .ok #[0, 0] := by
  intro g g' start bench
  have hstart : start.network.Built start.store := .empty _ 0 1
  have hzero : start.vector = Array.ofFn (Pi.single (0 : Fin (2 ^ 1)) 1 : Fin (2 ^ 1) → ℂ) :=
    zeroState_eq 1
  have hfits : (⟨g, [0], [], true⟩ : Placement ℂ).Fits start.network.qubits :=
    Placement.fits_range rfl le_rfl (by decide) rfl rfl true
  have hfits' : (⟨g', [0], [], false⟩ : Placement ℂ).Fits start.network.qubits :=
    Placement.fits_adjointMatrix (g := g) rfl rfl hfits
  obtain ⟨h, store, -, hplace⟩ := Draft.place_of_fits hfits
  obtain ⟨h', store', -, hplace'⟩ := Draft.place_of_fits hfits'
  have hfit : 32 * 2 ^ 1 ≤ bench.scratch.capacity := by decide
  refine ⟨_, _, hplace, hplace', ?_, ?_⟩
  · refine (Draft.outcome_place_range hstart rfl hzero rfl rfl hplace hfit).trans ?_
    refine congrArg Except.ok ?_
    show #[((Tensor.raising (1 : ℂ)).map conj).entryD 0 0,
      ((Tensor.raising (1 : ℂ)).map conj).entryD 1 0] = #[0, 1]
    rw [Tensor.entryD_map conj (.raising 1) (by decide) (by decide),
      Tensor.entryD_map conj (.raising 1) (by decide) (by decide)]
    simp [Tensor.entryD_raising, conj]
  · refine (Draft.outcome_place_range hstart rfl hzero rfl rfl hplace' hfit).trans ?_
    refine congrArg Except.ok ?_
    show #[((Tensor.raising (1 : ℂ)).transpose.map conj).entryD 0 0,
      ((Tensor.raising (1 : ℂ)).transpose.map conj).entryD 1 0] = #[0, 0]
    rw [Tensor.entryD_map conj (Tensor.raising 1).transpose (by decide) (by decide),
      Tensor.entryD_map conj (Tensor.raising 1).transpose (by decide) (by decide)]
    simp [Tensor.entryD_transpose, Tensor.entryD_raising, conj]

end GateNetwork
