import GateNetwork.Amplitude
import GateNetwork.Circuit
import GateNetwork.Proofs.Network

/-!
# Placing gates

A gate is placed where it fits: it has as many qubits as targets, its matrix has the size that they
call for, and the wires are distinct and within the register. A refused placement leaves the network
as it was and every handle with the tensor that it named. Of a preparation, what was placed before
the refused gate stays.
-/

namespace GateNetwork

variable {α : Type}

/-! ## Stores that agree -/

namespace Store

variable {s s' : Store α} {t : Tensor α} {h : Handle} {k : Nat}

/-- Every handle names in the second store what it names in the first. -/
def Agrees (s s' : Store α) : Prop := ∀ k h, (s'.arena k).get h = (s.arena k).get h

theorem Agrees.refl (s : Store α) : s.Agrees s := fun _ _ => rfl

/-- Releasing what was just allocated takes the allocation back. -/
theorem agrees_release_allocated (e : s.allocate k t = .ok (h, s')) :
    s.Agrees (s'.release k h) := by
  obtain ⟨a, heq, rfl⟩ := allocate_eq_ok e
  have ha : a.number = k := Arena.number_allocate heq
  intro j i
  rw [release, arena_put_same s k a ha, arena_put _ ((Arena.number_release a h).trans ha)]
  split
  · rename_i hj
    subst hj
    by_cases hi : i = h
    · subst hi
      have hnumber : (a.release i).number = (s.arena j).number :=
        (Arena.number_release a i).trans ha
      exact Arena.get_error_congr hnumber (Arena.get_before_allocate heq)
        (Arena.get_release_same a i)
    · rw [Arena.get_release_other a hi, Arena.get_allocate heq, if_neg hi]
  · rename_i hj
    rw [arena_put_other s a hj]

end Store

/-! ## One placement -/

namespace Placement

/-- The placements that a register of `n` qubits accepts. -/
structure Fits (p : Placement α) (n : Nat) : Prop where
  qubits : p.gate.qubits = p.targets.length
  targets_ne : p.targets ≠ []
  lt : ∀ q ∈ p.targets ++ p.controls, q < n
  nodup : (p.targets ++ p.controls).Nodup
  few : p.targets.length < 64
  rows : p.gate.matrix.rows = 2 ^ p.targets.length
  cols : p.gate.matrix.cols = 2 ^ p.targets.length

/-- The operator that is appended for a placement, once its matrix is stored. -/
def operator (p : Placement α) (h : Handle) : Operator :=
  ⟨p.targets, p.controls, h, .ofUnitary p.gate.isUnitary, p.adjoint⟩

theorem single_fits_iff {g : Gate α} {q n : Nat} (hqubits : g.qubits = 1)
    (hrows : g.matrix.rows = 2) (hcols : g.matrix.cols = 2) : (single g q).Fits n ↔ q < n := by
  constructor
  · intro hfits
    exact hfits.lt q (by simp [single])
  · intro hq
    exact ⟨hqubits, by simp [single], by simp [single, hq], by simp [single], by simp [single],
      hrows, hcols⟩

theorem controlled_fits_iff {g : Gate α} {control target n : Nat} (hqubits : g.qubits = 1)
    (hrows : g.matrix.rows = 2) (hcols : g.matrix.cols = 2) :
    (controlled g control target).Fits n ↔ control < n ∧ target < n ∧ control ≠ target := by
  constructor
  · intro hfits
    have hnodup := hfits.nodup
    refine ⟨hfits.lt control (by simp [controlled]), hfits.lt target (by simp [controlled]), ?_⟩
    rintro rfl
    simp [controlled] at hnodup
  · rintro ⟨hcontrol, htarget, hne⟩
    exact ⟨hqubits, by simp [controlled], by simp [controlled, hcontrol, htarget],
      by simp [controlled, Ne.symm hne], by simp [controlled], hrows, hcols⟩

/-- A gate on all wires of a register fits it if its matrix has the size of the register. -/
theorem fits_range {g : Gate α} {n : Nat} (hqubits : g.qubits = n) (hpos : 1 ≤ n) (hlarge : n < 64)
    (hrows : g.matrix.rows = 2 ^ n) (hcols : g.matrix.cols = 2 ^ n) (adjoint : Bool) :
    (⟨g, List.range n, [], adjoint⟩ : Placement α).Fits n := by
  have hlength : (List.range n).length = n := List.length_range
  refine ⟨hqubits.trans hlength.symm, ?_, fun q hq => ?_, ?_, ?_, ?_, ?_⟩
  · exact List.length_pos_iff.1 (by rwa [hlength])
  · rw [List.append_nil] at hq
    exact List.mem_range.1 hq
  · rw [List.append_nil]
    exact List.nodup_range
  · rwa [hlength]
  · rwa [hlength]
  · rwa [hlength]

theorem fits_iff_operator {p : Placement α} {a : Arena α} {h : Handle} {n : Nat}
    (hget : a.get h = .ok p.gate.matrix) :
    p.Fits n ↔ p.gate.qubits = p.targets.length ∧ (p.operator h).Fits a n := by
  constructor
  · rintro ⟨hqubits, hne, hlt, hnodup, hfew, hrows, hcols⟩
    exact ⟨hqubits, hne, hlt, hnodup, hfew, _, hget, hrows, hcols⟩
  · rintro ⟨hqubits, hne, hlt, hnodup, hfew, t, ht, hrows, hcols⟩
    have htensor : a.get h = .ok t := ht
    rw [hget] at htensor
    cases htensor
    exact ⟨hqubits, hne, hlt, hnodup, hfew, hrows, hcols⟩

end Placement

namespace Draft

variable {p : Placement α} {d d' : Draft α} {e : Error}

/-- The draft with one more operator, whose tensor is in the given store. -/
def extend (d : Draft α) (op : Operator) (store : Store α) : Draft α :=
  ⟨{ d.network with ops := d.network.ops ++ [op], version := d.network.version + 1 }, store⟩

/-- What fits is placed behind the other operators, with its matrix stored. -/
theorem place_of_fits (hp : p.Fits d.network.qubits) : ∃ h store,
    d.store.allocate d.network.arena p.gate.matrix = .ok (h, store) ∧
    place p d = .ok d.network.ops.length (d.extend (p.operator h) store) := by
  have hshape : p.gate.matrix.hasGateShape = true := by
    rw [Tensor.hasGateShape, Bool.and_eq_true, beq_iff_eq, isPowerOfTwo_iff]
    exact ⟨hp.rows.trans hp.cols.symm, _, hp.rows⟩
  obtain ⟨h, store, heq⟩ := d.store.exists_allocate d.network.arena hshape
  have hop := ((Placement.fits_iff_operator (Store.get_allocated heq)).1 hp).2
  have hpush : d.network.push store (p.operator h) = _ := Network.push_of_fits hop
  refine ⟨h, store, heq, ?_⟩
  unfold place
  rw [if_neg (not_not.2 hp.qubits), heq]
  dsimp only
  rw [← Placement.operator, hpush]
  rfl

/-- What does not fit is refused, and the refusal leaves nothing behind. -/
theorem place_of_not_fits (hp : ¬ p.Fits d.network.qubits) : ∃ e d',
    place p d = .error e d' ∧ d'.network = d.network ∧ d.store.Agrees d'.store := by
  unfold place
  split
  · exact ⟨_, d, rfl, rfl, .refl _⟩
  · rename_i hqubits
    split
    · exact ⟨_, d, rfl, rfl, .refl _⟩
    · rename_i h store heq
      dsimp only
      split
      · rename_i hpush
        refine absurd ?_ hp
        rw [Placement.fits_iff_operator (Store.get_allocated heq)]
        exact ⟨not_not.1 hqubits, (Network.push_eq_ok hpush).1⟩
      · exact ⟨_, _, rfl, rfl, Store.agrees_release_allocated heq⟩

theorem place_eq_error (h : place p d = .error e d') :
    ¬ p.Fits d.network.qubits ∧ d'.network = d.network ∧ d.store.Agrees d'.store := by
  have hp : ¬ p.Fits d.network.qubits := by
    intro hp
    obtain ⟨_, _, -, hplace⟩ := place_of_fits hp
    rw [hplace] at h
    cases h
  obtain ⟨e', d'', hplace, hsame⟩ := place_of_not_fits hp
  rw [hplace] at h
  cases h
  exact ⟨hp, hsame⟩

theorem place_eq_ok {position : Nat} (h : place p d = .ok position d') :
    p.Fits d.network.qubits ∧ ∃ k store,
      d.store.allocate d.network.arena p.gate.matrix = .ok (k, store) ∧
      position = d.network.ops.length ∧ d' = d.extend (p.operator k) store := by
  have hp : p.Fits d.network.qubits := by
    by_contra hp
    obtain ⟨_, _, hplace, -⟩ := place_of_not_fits hp
    rw [hplace] at h
    cases h
  obtain ⟨k, store, heq, hplace⟩ := place_of_fits hp
  rw [hplace] at h
  cases h
  exact ⟨hp, k, store, heq, rfl, rfl⟩

/-! ## Several placements -/

theorem placeAll_cons_ok {ps : List (Placement α)} {position : Nat}
    (h : place p d = .ok position d') :
    placeAll (p :: ps) d = (placeAll ps >>= fun positions => pure (position :: positions)) d' :=
  Attempt.bind_ok h _

theorem placeAll_cons_error {ps : List (Placement α)} (h : place p d = .error e d') :
    placeAll (p :: ps) d = .error e d' :=
  Attempt.bind_error h _

theorem place_of_placeAll_singleton {positions : List Nat} (h : placeAll [p] d = .ok positions d') :
    ∃ position, place p d = .ok position d' := by
  cases hplace : place p d with
  | error f last =>
    rw [placeAll_cons_error hplace] at h
    cases h
  | ok position last =>
    rw [placeAll_cons_ok hplace] at h
    cases h
    exact ⟨position, rfl⟩

/-- Accepted placements get the next positions, one operator each. -/
theorem placeAll_eq_ok {ps : List (Placement α)} {positions : List Nat}
    (h : placeAll ps d = .ok positions d') :
    d'.network.ops.length = d.network.ops.length + ps.length ∧
      positions = List.range' d.network.ops.length ps.length := by
  induction ps generalizing d positions with
  | nil =>
    cases h
    exact ⟨rfl, rfl⟩
  | cons p ps ih =>
    cases hplace : place p d with
    | error e d₁ =>
      rw [placeAll_cons_error hplace] at h
      cases h
    | ok position d₁ =>
      rw [placeAll_cons_ok hplace] at h
      cases hrest : placeAll ps d₁ with
      | error e last =>
        rw [Attempt.bind_error hrest] at h
        cases h
      | ok rest last =>
        rw [Attempt.bind_ok hrest] at h
        cases h
        obtain ⟨-, k, store, -, rfl, rfl⟩ := place_eq_ok hplace
        obtain ⟨hlength, rfl⟩ := ih hrest
        have hone : (d.extend (p.operator k) store).network.ops.length =
            d.network.ops.length + 1 := by
          simp [extend]
        rw [hone] at hlength ⊢
        refine ⟨?_, rfl⟩
        rw [hlength, List.length_cons]
        omega

theorem placeAll_of_fits {ps : List (Placement α)} (hps : ∀ p ∈ ps, p.Fits d.network.qubits) :
    ∃ positions d', placeAll ps d = .ok positions d' := by
  induction ps generalizing d with
  | nil => exact ⟨_, _, rfl⟩
  | cons p ps ih =>
    obtain ⟨k, store, -, hplace⟩ := place_of_fits (hps p List.mem_cons_self)
    have hrest : ∀ q ∈ ps, q.Fits (d.extend (p.operator k) store).network.qubits :=
      fun q hq => hps q (List.mem_cons_of_mem p hq)
    obtain ⟨positions, last, hlast⟩ := ih hrest
    rw [placeAll_cons_ok hplace, Attempt.bind_ok hlast]
    exact ⟨_, _, rfl⟩

/-- If one of the placements is refused, those before it stay and it leaves nothing behind. -/
theorem exists_refused {ps : List (Placement α)} (h : placeAll ps d = .error e d') :
    ∃ before p after positions mid, ps = before ++ p :: after ∧
      placeAll before d = .ok positions mid ∧ ¬ p.Fits mid.network.qubits ∧
      d'.network = mid.network ∧ mid.store.Agrees d'.store := by
  induction ps generalizing d with
  | nil => cases h
  | cons p ps ih =>
    cases hplace : place p d with
    | error f d₁ =>
      rw [placeAll_cons_error hplace] at h
      cases h
      exact ⟨[], p, ps, [], d, rfl, rfl, place_eq_error hplace⟩
    | ok position d₁ =>
      rw [placeAll_cons_ok hplace] at h
      cases hrest : placeAll ps d₁ with
      | ok positions last =>
        rw [Attempt.bind_ok hrest] at h
        cases h
      | error f last =>
        rw [Attempt.bind_error hrest] at h
        cases h
        obtain ⟨before, q, after, positions, mid, rfl, hbefore, hrefused⟩ := ih hrest
        refine ⟨p :: before, q, after, position :: positions, mid, rfl, ?_, hrefused⟩
        rw [placeAll_cons_ok hplace, Attempt.bind_ok hbefore]
        rfl

/-! ## Named gates -/

theorem fits_h_iff {ρ : Type} [Neg α] [Zero ρ] [GateScalar α ρ] {q n : Nat} :
    (Placement.single (Gate.h : Gate α) q).Fits n ↔ q < n :=
  Placement.single_fits_iff rfl rfl rfl

theorem fits_cnot_iff [Zero α] [One α] {control target n : Nat} :
    (Placement.cnot control target : Placement α).Fits n ↔
      control < n ∧ target < n ∧ control ≠ target :=
  Placement.controlled_fits_iff rfl rfl rfl

/-! ## Calls -/

section Calls

variable {ρ : Type} [Zero α] [One α] [Neg α] [Zero ρ] [GateScalar α ρ]

/-- What a circuit is built with: one gate on any wires, or one of the preparations. -/
inductive Call (α : Type) where
  | gate (p : Placement α)
  | bellPair (first second : Nat)
  | ghz

def Call.placements (c : Call α) (qubits : Nat) : List (Placement α) :=
  match c with
  | .gate p => [p]
  | .bellPair first second => Placement.bellPair first second
  | .ghz => Placement.ghz qubits

def call (c : Call α) : Attempt Error (Draft α) (List Nat) := fun d =>
  placeAll (c.placements d.network.qubits) d

/-- The gates that entangle a register fit it. -/
theorem fits_ghz {n : Nat} : ∀ p ∈ (Placement.ghz n : List (Placement α)), p.Fits n := by
  cases n with
  | zero => exact fun p hp => absurd hp List.not_mem_nil
  | succ n =>
    rintro p (_ | ⟨_, hp⟩)
    · exact fits_h_iff.2 (Nat.succ_pos n)
    · obtain ⟨q, hq, rfl⟩ := List.mem_map.1 hp
      have hlt := List.mem_range.1 hq
      exact fits_cnot_iff.2 ⟨by omega, by omega, by omega⟩

/-- A pair is refused at its first gate, or at its second one after the first was placed. -/
theorem bellPair_refused {first second : Nat} (h : call (.bellPair first second) d = .error e d') :
    (d.network.qubits ≤ first ∧ d'.network = d.network ∧ d.store.Agrees d'.store) ∨
      ∃ position mid, place (.single .h first) d = .ok position mid ∧
        d'.network = mid.network ∧ mid.store.Agrees d'.store := by
  obtain ⟨before, p, after, positions, mid, hsplit, hbefore, hp, hsame⟩ := exists_refused h
  rcases before with _ | ⟨q, _ | ⟨r, before⟩⟩
  · obtain ⟨rfl, -⟩ := List.cons_eq_cons.1 hsplit
    cases hbefore
    exact .inl ⟨Nat.not_lt.1 fun hlt => hp (fits_h_iff.2 hlt), hsame⟩
  · obtain ⟨rfl, -⟩ := List.cons_eq_cons.1 hsplit
    obtain ⟨position, hplace⟩ := place_of_placeAll_singleton hbefore
    exact .inr ⟨position, mid, hplace, hsame⟩
  · simp [Call.placements, Placement.bellPair] at hsplit

/-- A refused call leaves nothing behind, unless it is for a pair whose first qubit exists. Of such
a pair the first gate stays. -/
theorem call_refused_iff {c : Call α} (h : call c d = .error e d') :
    (d'.network = d.network ∧ d.store.Agrees d'.store ↔
      ∀ first second, c = .bellPair first second → d.network.qubits ≤ first) ∧
    ∀ first second, c = .bellPair first second → first < d.network.qubits →
      ∃ position mid, place (.single .h first) d = .ok position mid ∧
        d'.network = mid.network ∧ mid.store.Agrees d'.store := by
  cases c with
  | gate p =>
    obtain ⟨before, q, after, positions, mid, hsplit, hbefore, -, hsame⟩ := exists_refused h
    obtain ⟨rfl, -⟩ : before = [] ∧ q = p ∧ after = [] := by
      simpa [Call.placements, List.singleton_eq_append_iff] using hsplit
    cases hbefore
    simp [hsame]
  | ghz =>
    obtain ⟨positions, last, hall⟩ := placeAll_of_fits (d := d) (fits_ghz (α := α))
    rw [show call (.ghz : Call α) d = _ from hall] at h
    cases h
  | bellPair first second =>
    rcases bellPair_refused h with ⟨hle, hsame⟩ | ⟨position, mid, hplace, hkept⟩
    · refine ⟨iff_of_true hsame ?_, ?_⟩
      · rintro _ _ ⟨⟩
        exact hle
      · rintro _ _ ⟨⟩ hlt
        exact absurd hle (Nat.not_le.2 hlt)
    · obtain ⟨hfits, k, store, -, -, rfl⟩ := place_eq_ok hplace
      have hlt : first < d.network.qubits := fits_h_iff.1 hfits
      refine ⟨iff_of_false ?_ ?_, ?_⟩
      · rintro ⟨hnetwork, -⟩
        rw [hkept.1] at hnetwork
        simpa [extend] using congrArg (·.ops.length) hnetwork
      · intro hall
        exact Nat.not_le.2 hlt (hall first second rfl)
      · rintro _ _ ⟨⟩ -
        exact ⟨position, _, hplace, hkept⟩

/-- A gate under its own control is refused. -/
theorem cnot_same_refused :
    let start : Draft Amplitude := ⟨.empty 0 1, .empty⟩
    ∃ last, call (.gate (.cnot 0 0)) start = .error (.invalid (.qubitTwice 0)) last ∧
      last.network = start.network ∧ start.store.Agrees last.store := by
  intro start
  refine ⟨_, rfl, ?_⟩
  exact (call_refused_iff (c := .gate (.cnot 0 0)) (d := start) rfl).1.2 (by simp)

/-- A pair of a qubit with itself is refused, but the first gate stays. -/
theorem bellPair_same_grows :
    let start : Draft Amplitude := ⟨.empty 0 2, .empty⟩
    ∃ last, call (.bellPair 0 0) start = .error (.invalid (.qubitTwice 0)) last ∧
      last.network.ops.length = start.network.ops.length + 1 ∧
      last.network.version = start.network.version + 1 ∧
      (start.store.arena 0).get ⟨0, 0, 0⟩ = .error (.invalid (.releasedHandle ⟨0, 0, 0⟩)) ∧
      (last.store.arena 0).get ⟨0, 0, 0⟩ = .ok Gate.h.matrix := by
  intro start
  obtain ⟨k, store, heq, hfirst⟩ :=
    place_of_fits (p := .single .h 0) (d := start) (fits_h_iff.2 (Nat.succ_pos 1))
  obtain ⟨a, ha, -⟩ := Store.allocate_eq_ok heq
  obtain rfl : k = ⟨0, 0, 0⟩ := (Arena.allocate_eq_store ha).1
  obtain ⟨last, hsecond⟩ : ∃ last, place (.cnot 0 0) (start.extend
      ((Placement.single (Gate.h : Gate Amplitude) 0).operator ⟨0, 0, 0⟩) store) =
        .error (.invalid (.qubitTwice 0)) last := ⟨_, rfl⟩
  obtain ⟨-, hnetwork, hstore⟩ := place_eq_error hsecond
  have hcall : call (.bellPair 0 0) start = .error (.invalid (.qubitTwice 0)) last :=
    (placeAll_cons_ok hfirst).trans (Attempt.bind_error (placeAll_cons_error hsecond) _)
  refine ⟨last, hcall, ?_, ?_, rfl, (hstore 0 _).trans (Store.get_allocated heq)⟩
  · rw [hnetwork]
    rfl
  · rw [hnetwork]
    rfl

end Calls

end Draft

end GateNetwork
