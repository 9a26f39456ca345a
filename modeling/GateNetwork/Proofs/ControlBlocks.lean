import GateNetwork.Proofs.Isometry
import GateNetwork.Proofs.Replacing

/-!
# Controls as blocks

The bits at the controls are the high bits of an index into a matrix on the targets and the controls
together. They are all one in the last block of such a matrix, so an operator with controls acts as
the operator without controls whose tensor is the identity but for that block.
-/

open Matrix

namespace GateNetwork

variable {α ρ σ : Type}

/-! ## Bits at two lists of wires -/

/-- The bits at the first wires are the low ones. -/
theorem collect_append (qs rs : List Nat) (i : Nat) :
    collect (qs ++ rs) i = collect qs i + 2 ^ qs.length * collect rs i := by
  induction qs with
  | nil => simp [collect]
  | cons q qs ih =>
    rw [List.cons_append, collect, collect, ih, List.length_cons]
    ring

/-- The bits at the wires are all one in the last value of the wires. -/
theorem allSet_iff_collect {qs : List Nat} {i : Nat} :
    allSet qs i = true ↔ collect qs i + 1 = 2 ^ qs.length := by
  induction qs with
  | nil => simp [allSet, collect]
  | cons q qs ih =>
    have hall : allSet (q :: qs) i = true ↔ i.testBit q = true ∧ allSet qs i = true := by
      simp [allSet]
    rw [hall, ← shiftRight_mod_two_eq_one_iff, ih, collect, List.length_cons, Nat.pow_succ]
    have hlt := Nat.mod_lt (i >>> q) (by decide : 2 > 0)
    omega

theorem le_collect_append_iff {qs rs : List Nat} {i : Nat} :
    2 ^ (qs ++ rs).length ≤ collect (qs ++ rs) i + 2 ^ qs.length ↔ allSet rs i = true := by
  have hlow := collect_lt qs i
  have hhigh := collect_lt rs i
  rw [collect_append, List.length_append, Nat.pow_add, allSet_iff_collect]
  constructor
  · intro h
    by_contra hne
    have hle : collect rs i + 2 ≤ 2 ^ rs.length := by omega
    nlinarith
  · intro h
    rw [← h]
    nlinarith

/-- Without the last value of the second wires, the first ones are left. -/
theorem collect_append_sub {qs rs : List Nat} {i : Nat} (h : allSet rs i = true) :
    collect (qs ++ rs) i + 2 ^ qs.length - 2 ^ (qs ++ rs).length = collect qs i := by
  rw [collect_append, List.length_append, Nat.pow_add, ← allSet_iff_collect.1 h, Nat.mul_add_one]
  omega

/-- Indices that agree off two lists of wires and have ones at the second agree off the first. -/
theorem clear_eq_of_allSet {qs rs : List Nat} {i j : Nat}
    (h : clear (qs ++ rs) i = clear (qs ++ rs) j) (hi : allSet rs i = true)
    (hj : allSet rs j = true) : clear qs i = clear qs j := by
  rw [clear_eq_clear_iff] at h ⊢
  intro p hp
  by_cases hmem : p ∈ rs
  · rw [allSet_iff.1 hi p hmem, allSet_iff.1 hj p hmem]
  · exact h p (by simp [hp, hmem])

theorem clear_append_eq {qs rs : List Nat} {i j : Nat} (h : clear qs i = clear qs j) :
    clear (qs ++ rs) i = clear (qs ++ rs) j := by
  rw [clear_eq_clear_iff] at h ⊢
  exact fun p hp => h p fun hmem => hp (List.mem_append_left _ hmem)

/-! ## The block -/

namespace Tensor

/-- The identity of the given side, except that its last rows and columns hold the table. -/
def lastBlock [Zero α] [One α] (E : Tensor α) (side : Nat) : Tensor α :=
  ofFn fun i j : Fin side =>
    if side ≤ i + E.rows ∧ side ≤ j + E.cols then
      E.entryD (i + E.rows - side) (j + E.cols - side)
    else if i.val = j.val then 1 else 0

variable [Zero α] [One α] {E : Tensor α} {side : Nat}

@[simp] theorem rows_lastBlock : (E.lastBlock side).rows = side := rfl

@[simp] theorem cols_lastBlock : (E.lastBlock side).cols = side := rfl

theorem entryD_lastBlock {i j : Nat} (hi : i < side) (hj : j < side) :
    (E.lastBlock side).entryD i j =
      if side ≤ i + E.rows ∧ side ≤ j + E.cols then
        E.entryD (i + E.rows - side) (j + E.cols - side)
      else if i = j then 1 else 0 := by
  rw [entryD_eq (E.lastBlock side) hi hj]
  exact entry_ofFn _ _ _

/-- The negation under one control. -/
example : ((ofFour 0 1 1 0 : Tensor Int).lastBlock 4).toRows =
    [[1, 0, 0, 0], [0, 1, 0, 0], [0, 0, 0, 1], [0, 0, 1, 0]] := by decide

end Tensor

/-- The action without controls, on the targets followed by the controls, that applies the matrix in
its last block. -/
def Action.uncontrolled [Zero α] [One α] (x : Action α) : Action α :=
  ⟨x.targets ++ x.controls, [], x.matrix.lastBlock (2 ^ (x.targets ++ x.controls).length)⟩

section

variable [Semiring α] {x : Action α} {n : Nat}

/-- Where all controls are one, the entries are those of the applied matrix. -/
theorem Action.Fits.entryD_lastBlock (hx : x.Fits n) (i j : Nat) :
    x.uncontrolled.matrix.entryD (collect (x.targets ++ x.controls) i)
        (collect (x.targets ++ x.controls) j) =
      if allSet x.controls i ∧ allSet x.controls j then
        x.matrix.entryD (collect x.targets i) (collect x.targets j)
      else if collect (x.targets ++ x.controls) i = collect (x.targets ++ x.controls) j then 1
      else 0 := by
  refine (Tensor.entryD_lastBlock (collect_lt _ i) (collect_lt _ j)).trans ?_
  rw [hx.rows, hx.cols]
  by_cases hset : allSet x.controls i = true ∧ allSet x.controls j = true
  · rw [if_pos hset, if_pos ⟨le_collect_append_iff.2 hset.1, le_collect_append_iff.2 hset.2⟩,
      collect_append_sub hset.1, collect_append_sub hset.2]
  · rw [if_neg hset, if_neg fun h =>
      hset ⟨le_collect_append_iff.1 h.1, le_collect_append_iff.1 h.2⟩]

theorem Action.Fits.toMatrix_uncontrolled (hx : x.Fits n) :
    x.uncontrolled.toMatrix n = x.toMatrix n := by
  let wires := x.targets ++ x.controls
  ext i j
  have hrow : x.uncontrolled.toMatrix n i j =
      if clear wires i = clear wires j then
        x.uncontrolled.matrix.entryD (collect wires i) (collect wires j)
      else 0 := toMatrix_apply x.uncontrolled i j
  rw [hrow, hx.entryD_lastBlock, toMatrix_apply]
  -- The row is one of the last block exactly if the controls are all one.
  by_cases hset : allSet x.controls i = true
  · rw [if_pos hset]
    by_cases hclear : clear x.targets i = clear x.targets j
    · have hset' : allSet x.controls j = true :=
        (allSet_eq_of_clear_eq hx.apart hclear).symm.trans hset
      rw [if_pos (clear_append_eq hclear), if_pos ⟨hset, hset'⟩, if_pos hclear]
    · rw [if_neg hclear]
      split
      · rename_i hwires
        -- The indices agree off all wires but not off the targets, so they differ at a control.
        have hset' : ¬ allSet x.controls j = true := fun hset' =>
          hclear (clear_eq_of_allSet hwires hset hset')
        have hne : collect wires i ≠ collect wires j := fun hcollect =>
          hclear (congrArg _ (eq_of_clear_eq_of_collect_eq hx.nodup hwires hcollect))
        rw [if_neg fun h => hset' h.2, if_neg hne]
      · rfl
  · rw [if_neg hset, Matrix.one_apply]
    by_cases hwires : clear wires i = clear wires j
    · rw [if_pos hwires, if_neg fun h => hset h.1]
      have hiff : collect wires i = collect wires j ↔ i = j :=
        ⟨fun hcollect => Fin.ext (eq_of_clear_eq_of_collect_eq hx.nodup hwires hcollect),
          fun hij => by rw [hij]⟩
      exact if_congr hiff rfl rfl
    · rw [if_neg hwires, if_neg fun hij => hwires (by rw [hij])]

end

/-! ## Operators without controls -/

section

variable [Semiring α] [Conj α] {a : Arena α} {n : Nat} {op : Operator} {k : Handle}
  {kind : OperatorKind}

theorem Operator.Fits.uncontrolled (h : op.Fits a n) (hside : 2 ^ op.wires.length < 2 ^ 64)
    (hget : a.get k = .ok (a.action op).uncontrolled.matrix) :
    Operator.Fits ⟨op.wires, [], k, kind, false⟩ a n := by
  refine ⟨List.append_ne_nil_of_left_ne_nil h.targets_ne _, ?_, ?_,
    (Nat.pow_lt_pow_iff_right (by decide)).1 hside, _, hget, rfl, rfl⟩
  · simpa [wires] using h.lt
  · simpa [wires] using h.nodup

/-- Without controls, the operator that stores the block has the matrix of the first operator. -/
theorem Operator.Fits.matrix_uncontrolled (h : op.Fits a n)
    (hget : a.get k = .ok (a.action op).uncontrolled.matrix)
    (hfits : Operator.Fits ⟨op.wires, [], k, kind, false⟩ a n) :
    a.matrix n ⟨op.wires, [], k, kind, false⟩ = a.matrix n op := by
  have haction : a.action ⟨op.wires, [], k, kind, false⟩ = (a.action op).uncontrolled := by
    rw [Arena.action, Arena.tensorD_of_get hget]
    rfl
  rw [← hfits.toMatrix_action, haction, h.action.toMatrix_uncontrolled, h.toMatrix_action]

end

namespace Network

/-- Controls are blocks. The tensor that is the identity, except that its last rows and columns hold
the matrix that an operator applies, can be stored. An operator without controls that stores it, on
the targets followed by the controls, is accepted in the place of the first operator, and neither
the vector nor what is answered from it changes. The side of the tensor has to fit a word, as it
does for every tensor that can be made. -/
theorem Built.controls_as_block [Semiring α] [StarRing α] [Magnitude α ρ] [Zero ρ] [Add ρ]
    {net : Network} {store : Store α} {before after : List Operator} {op : Operator}
    (h : net.Built store) (hops : net.ops = before ++ op :: after)
    (hside : 2 ^ op.wires.length < 2 ^ 64) :
    let E := ((store.arena net.arena).action op).matrix
    let block := E.lastBlock (2 ^ op.wires.length)
    (∃ k store', store.allocate net.arena block = .ok (k, store') ∧ net.Kept store store' ∧
      (store'.arena net.arena).get k = .ok block) ∧
    ∀ (k : Handle) (kind : OperatorKind) (store' : Store α), net.Kept store store' →
      (store'.arena net.arena).get k = .ok block →
      let expanded := ofOps net.arena net.qubits (before ++ ⟨op.wires, [], k, kind, false⟩ :: after)
      pushAll store' (.empty net.arena net.qubits) expanded.ops = .ok expanded ∧
        expanded.vector (store'.arena net.arena) = net.vector (store.arena net.arena) ∧
        net.AnswersAlike (ρ := ρ) σ expanded store' := by
  intro E block
  have hmem : op ∈ net.ops := by simp [hops]
  constructor
  · obtain ⟨k, store', heq, hget, hkept, -⟩ :=
      h.exists_stored (t := block) (m := op.wires.length) rfl rfl
    exact ⟨k, store', heq, hkept, hget⟩
  · intro k kind store' hkept hget expanded
    have hbuilt : net.Built store' := h.kept hkept
    have hop := hbuilt.fits op hmem
    have haction : (store'.arena net.arena).action op = (store.arena net.arena).action op :=
      congrArg op.action (Arena.tensorD_congr (hkept op hmem))
    have hget' : (store'.arena net.arena).get k =
        .ok ((store'.arena net.arena).action op).uncontrolled.matrix := by
      rw [haction]
      exact hget
    have hfits : Operator.Fits ⟨op.wires, [], k, kind, false⟩ (store'.arena net.arena) net.qubits :=
      hop.uncontrolled hside hget'
    have hnew : ∀ o ∈ [(⟨op.wires, [], k, kind, false⟩ : Operator)],
        o.Fits (store'.arena net.arena) net.qubits := by
      intro o ho
      rw [List.mem_singleton.1 ho]
      exact hfits
    obtain ⟨hpush, hvector, halike⟩ := hbuilt.replace (ρ := ρ) (σ := σ) [op] _ hops hnew
      (by simp [hop.matrix_uncontrolled hget' hfits])
    exact ⟨hpush, hvector.trans (vector_congr hkept), halike⟩

/-- The negation network, with its control as a block. -/
theorem controls_as_block_negation :
    let store : Store ℂ := .sample Complex.I
    let op : Operator := ⟨[1], [0], ⟨0, 0, 0⟩, .unitary, false⟩
    let block := ((store.arena 0).action op).matrix.lastBlock 4
    negation.Built store ∧ negation.ops = [] ++ op :: [] ∧ 2 ^ op.wires.length < 2 ^ 64 ∧
      ∃ k store', store.allocate 0 block = .ok (k, store') ∧
        let expanded := ofOps 0 2 [⟨[1, 0], [], k, .nonUnitary, false⟩]
        pushAll store' (.empty 0 2) expanded.ops = .ok expanded ∧
          expanded.vector (store'.arena 0) = negation.vector (store.arena 0) ∧
          negation.AnswersAlike (ρ := ℝ) Unit expanded store' := by
  intro store op block
  have hbuilt : negation.Built store := negation_built Complex.I
  have hops : negation.ops = [] ++ op :: [] := rfl
  have hside : 2 ^ op.wires.length < 2 ^ 64 := by decide
  obtain ⟨⟨k, store', heq, hkept, hget⟩, hexpand⟩ :=
    hbuilt.controls_as_block (ρ := ℝ) (σ := Unit) hops hside
  exact ⟨hbuilt, hops, hside, k, store', heq, hexpand k .nonUnitary store' hkept hget⟩

end Network

end GateNetwork
