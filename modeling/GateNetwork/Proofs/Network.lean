import GateNetwork.Gate
import GateNetwork.NetworkState.Overlap
import GateNetwork.Proofs.Staging
import GateNetwork.Proofs.Wires

/-!
# Networks that can be built

An append accepts the operators that fit: some target, distinct wires within the register, and a
stored tensor with one row and one column for each value of the targets. A network that was built by
appends, while its tensors stayed in the store, is made of operators that fit, and its version
counts them.
-/

namespace GateNetwork

/-! ## Wires -/

theorem firstRepeat?_eq_none_iff {seen qs : List Nat} :
    firstRepeat? seen qs = none ↔ qs.Nodup ∧ ∀ q ∈ qs, q ∉ seen := by
  induction qs generalizing seen with
  | nil => simp [firstRepeat?]
  | cons q qs ih =>
    rw [firstRepeat?]
    split
    · rename_i hseen
      simp [hseen]
    · rename_i hseen
      rw [ih, List.nodup_cons]
      constructor
      · rintro ⟨hnodup, hnew⟩
        refine ⟨⟨fun hq => hnew q hq List.mem_cons_self, hnodup⟩, ?_⟩
        rintro p (_ | ⟨_, hp⟩)
        · exact hseen
        · exact fun hps => hnew p hp (List.mem_cons_of_mem q hps)
      · rintro ⟨⟨hq, hnodup⟩, hnew⟩
        refine ⟨hnodup, fun p hp hps => ?_⟩
        rcases List.mem_cons.1 hps with rfl | hps
        · exact hq hp
        · exact hnew p (List.mem_cons_of_mem q hp) hps

namespace Operator

variable {α : Type} {op : Operator} {a b : Arena α} {n m : Nat}

theorem beyond?_eq_none_iff : op.beyond? n = none ↔ ∀ q ∈ op.wires, q < n := by
  unfold beyond? maxWire?
  cases hmax : op.wires.max? with
  | none =>
    rw [List.max?_eq_none_iff] at hmax
    simp [hmax]
  | some q =>
    obtain ⟨hmem, hle⟩ := List.max?_eq_some_iff.1 hmax
    rw [Option.filter_some]
    constructor
    · intro h p hp
      have hq : ¬ n ≤ q := by simpa using h
      exact (hle p hp).trans_lt (Nat.not_le.1 hq)
    · intro h
      simp [h q hmem]

/-- An operator that can be appended to a network on `n` qubits over the arena. -/
structure Fits (op : Operator) (a : Arena α) (n : Nat) : Prop where
  targets_ne : op.targets ≠ []
  lt : ∀ q ∈ op.wires, q < n
  nodup : op.wires.Nodup
  few : op.targets.length < 64
  stored : ∃ t, a.get op.tensor = .ok t ∧
    t.rows = 2 ^ op.targets.length ∧ t.cols = 2 ^ op.targets.length

theorem checkShape_eq_ok_iff {t : Tensor α} : op.checkShape t = .ok () ↔
    op.targets.length < 64 ∧ t.rows = 2 ^ op.targets.length ∧ t.cols = 2 ^ op.targets.length := by
  unfold checkShape
  cases hside : dimension? op.targets.length with
  | none =>
    have hlarge : ¬ op.targets.length < 64 := by
      intro hlt
      rw [dimension?_eq_some.2 ⟨hlt, rfl⟩] at hside
      cases hside
    simp [hlarge]
  | some side =>
    obtain ⟨hlt, rfl⟩ := dimension?_eq_some.1 hside
    by_cases hshape : t.rows = 2 ^ op.targets.length ∧ t.cols = 2 ^ op.targets.length
    · simp [hlt, hshape]
    · simp [hshape]

/-- The operators that pass the check are those that fit. -/
theorem check_eq_ok_iff : op.check a n = .ok () ↔ op.Fits a n := by
  constructor
  · intro h
    unfold check at h
    split at h
    · cases h
    · rename_i hne
      split at h
      · cases h
      · cases h
      · rename_i hbeyond hrepeat
        split at h
        · cases h
        · rename_i t hget
          obtain ⟨hfew, hrows, hcols⟩ := checkShape_eq_ok_iff.1 h
          exact ⟨by simpa using hne, beyond?_eq_none_iff.1 hbeyond,
            (firstRepeat?_eq_none_iff.1 hrepeat).1, hfew, t, hget, hrows, hcols⟩
  · rintro ⟨hne, hlt, hnodup, hfew, t, hget, hshape⟩
    have hrepeat : firstRepeat? [] op.wires = none :=
      firstRepeat?_eq_none_iff.2 ⟨hnodup, fun _ _ => List.not_mem_nil⟩
    have hempty : op.targets.isEmpty = false := by simpa using hne
    rw [check, hempty, beyond?_eq_none_iff.2 hlt, hrepeat, hget]
    exact checkShape_eq_ok_iff.2 ⟨hfew, hshape⟩

theorem Fits.congr (h : op.Fits a n) (hget : b.get op.tensor = a.get op.tensor) : op.Fits b n := by
  obtain ⟨t, ht, hshape⟩ := h.stored
  exact ⟨h.targets_ne, h.lt, h.nodup, h.few, t, hget.trans ht, hshape⟩

/-- What fits a register fits a larger one. -/
theorem Fits.mono (h : op.Fits a n) (hnm : n ≤ m) : op.Fits a m :=
  ⟨h.targets_ne, fun q hq => (h.lt q hq).trans_le hnm, h.nodup, h.few, h.stored⟩

end Operator

namespace Network

variable {α : Type} {net : Network} {a b : Arena α} {s s' : Store α}

/-- All operators of the network fit it over the arena. -/
def Fits (net : Network) (a : Arena α) : Prop := ∀ op ∈ net.ops, op.Fits a net.qubits

theorem push_of_fits {op : Operator} (h : op.Fits (s.arena net.arena) net.qubits) :
    net.push s op =
      .ok (net.ops.length, { net with ops := net.ops ++ [op], version := net.version + 1 }) := by
  rw [push, Operator.check_eq_ok_iff.2 h]

theorem push_eq_ok {op : Operator} {position : Nat} {net' : Network}
    (h : net.push s op = .ok (position, net')) : op.Fits (s.arena net.arena) net.qubits ∧
      net' = { net with ops := net.ops ++ [op], version := net.version + 1 } := by
  unfold push at h
  split at h
  · rename_i hcheck
    cases h
    exact ⟨Operator.check_eq_ok_iff.1 hcheck, rfl⟩
  · cases h

/-- The store `s'` has for the operators of the network what the store `s` had. -/
def Kept (net : Network) (s s' : Store α) : Prop :=
  ∀ op ∈ net.ops, (s'.arena net.arena).get op.tensor = (s.arena net.arena).get op.tensor

/-- The networks that can be built over a store: an empty one, with operators appended one by one,
while the store may change in any way that keeps the tensors of the network. -/
inductive Built : Store α → Network → Prop where
  /-- A network without operators. -/
  | empty (s : Store α) (arena qubits : Nat) : Built s (.empty arena qubits)
  /-- One more operator was accepted. -/
  | push {s : Store α} {net net' : Network} {op : Operator} {position : Nat} (h : Built s net)
      (hpush : net.push s op = .ok (position, net')) : Built s net'
  /-- The store has changed, but not the tensors of the network. -/
  | kept {s s' : Store α} {net : Network} (h : Built s net) (hkept : net.Kept s s') : Built s' net

/-- The operators of a network that was built fit. -/
theorem Built.fits (h : Built s net) : net.Fits (s.arena net.arena) := by
  induction h with
  | empty s arena qubits => exact fun op hop => absurd hop List.not_mem_nil
  | push _ hpush ih =>
    obtain ⟨hfit, rfl⟩ := push_eq_ok hpush
    intro op hop
    rcases List.mem_append.1 hop with hop | hop
    · exact ih op hop
    · rw [List.mem_singleton.1 hop]
      exact hfit
  | kept _ hkept ih => exact fun op hop => (ih op hop).congr (hkept op hop)

/-- The version of a network counts its operators, as far as a word goes. -/
theorem Built.version_eq (h : Built s net) : net.version = UInt64.ofNat net.ops.length := by
  induction h with
  | empty s arena qubits => rfl
  | push _ hpush ih =>
    obtain ⟨-, rfl⟩ := push_eq_ok hpush
    simp [ih]
  | kept _ _ ih => exact ih

/-- The networks that can be built are those whose operators fit and whose version counts them. -/
theorem built_iff : net.Built s ↔
    net.Fits (s.arena net.arena) ∧ net.version = UInt64.ofNat net.ops.length := by
  refine ⟨fun h => ⟨h.fits, h.version_eq⟩, ?_⟩
  obtain ⟨arena, qubits, ops, version⟩ := net
  rintro ⟨hfits, hversion⟩
  obtain rfl : version = UInt64.ofNat ops.length := hversion
  induction ops using List.reverseRecOn with
  | nil => exact .empty s arena qubits
  | append_singleton ops op ih =>
    have hbuilt := ih fun o ho => hfits o (List.mem_append_left _ ho)
    have hop : op.Fits (s.arena arena) qubits :=
      hfits op (List.mem_append_right _ List.mem_cons_self)
    have hpush := hbuilt.push (push_of_fits hop)
    simpa using hpush

/-- Allocating keeps the tensors of a network whose operators fit. -/
theorem Fits.kept_allocate (h : net.Fits (s.arena net.arena)) {k : Nat} {t : Tensor α} {i : Handle}
    (heq : s.allocate k t = .ok (i, s')) : net.Kept s s' := by
  intro op hop
  obtain ⟨u, hu, -⟩ := (h op hop).stored
  rw [hu, Store.get_allocate heq hu]

/-! ## Appending a list of operators -/

/-- The network that appends make of a list of operators. -/
def ofOps (arena qubits : Nat) (ops : List Operator) : Network :=
  ⟨arena, qubits, ops, UInt64.ofNat ops.length⟩

theorem pushAll_of_fits {ops : List Operator}
    (h : ∀ op ∈ ops, op.Fits (s.arena net.arena) net.qubits) :
    pushAll s net ops = .ok { net with
      ops := net.ops ++ ops, version := net.version + UInt64.ofNat ops.length } := by
  induction ops generalizing net with
  | nil => simp [pushAll, pure, Except.pure]
  | cons op ops ih =>
    have hpush := push_of_fits (h op List.mem_cons_self)
    have hrest := @ih { net with ops := net.ops ++ [op], version := net.version + 1 }
      fun o ho => h o (List.mem_cons_of_mem op ho)
    rw [pushAll, List.foldlM_cons, hpush]
    refine hrest.trans ?_
    simp [add_assoc, add_comm (1 : UInt64)]

/-- Operators that fit a register are accepted one after the other, starting from none. -/
theorem pushAll_empty {arena n : Nat} {ops : List Operator}
    (h : ∀ op ∈ ops, op.Fits (s.arena arena) n) :
    pushAll s (.empty arena n) ops = .ok (ofOps arena n ops) := by
  rw [pushAll_of_fits h]
  simp [empty, ofOps]

theorem built_ofOps {arena n : Nat} {ops : List Operator}
    (h : ∀ op ∈ ops, op.Fits (s.arena arena) n) : (ofOps arena n ops).Built s :=
  built_iff.2 ⟨h, rfl⟩

end Network

/-! ## Two small networks -/

section

variable {α : Type} [Zero α] [One α]

/-- The tensor that takes the first basis vector to `c` times the second one, and the second to
zero. -/
def Tensor.raising (c : α) : Tensor α :=
  ofFn fun (i j : Fin 2) => if i.val = 1 ∧ j.val = 0 then c else 0

/-- The store with the negation matrix in its first arena and a raising one in its second. -/
def Store.sample (c : α) : Store α :=
  (Store.empty.put 0 ((Arena.empty 0).store Gate.x.matrix).2).put 1
    ((Arena.empty 1).store (Tensor.raising c)).2

theorem Store.get_sample_negation (c : α) :
    ((Store.sample c).arena 0).get ⟨0, 0, 0⟩ = .ok Gate.x.matrix := by
  rw [sample, arena_put_other _ _ (by decide), arena_put_same Store.empty 0 _ rfl]
  rfl

theorem Store.get_sample_raising (c : α) :
    ((Store.sample c).arena 1).get ⟨1, 0, 0⟩ = .ok (Tensor.raising c) := by
  rw [sample, arena_put_same _ 1 _ rfl]
  rfl

/-- Two qubits, the second one negated where the first is one. -/
def Network.negation : Network := ⟨0, 2, [⟨[1], [0], ⟨0, 0, 0⟩, .unitary, false⟩], 1⟩

/-- Three qubits, the last one raised by an adjoint that is not unitary, and then the first one
where the last is one. -/
def Network.raising : Network :=
  ⟨1, 3, [⟨[2], [], ⟨1, 0, 0⟩, .nonUnitary, true⟩, ⟨[0], [2], ⟨1, 0, 0⟩, .unitary, false⟩], 2⟩

theorem Network.negation_built (c : α) : Network.negation.Built (Store.sample c) := by
  refine built_iff.2 ⟨fun op hop => ?_, rfl⟩
  obtain rfl := List.mem_singleton.1 hop
  exact ⟨by simp, by simp [Operator.wires, negation], by simp [Operator.wires], by simp,
    _, Store.get_sample_negation c, rfl, rfl⟩

theorem Network.raising_built (c : α) : Network.raising.Built (Store.sample c) := by
  refine built_iff.2 ⟨fun op hop => ?_, rfl⟩
  have hcases : op = ⟨[2], [], ⟨1, 0, 0⟩, .nonUnitary, true⟩ ∨
      op = ⟨[0], [2], ⟨1, 0, 0⟩, .unitary, false⟩ := by simpa [raising] using hop
  rcases hcases with rfl | rfl
  · exact ⟨by simp, by simp [Operator.wires, raising], by simp [Operator.wires], by simp,
      _, Store.get_sample_raising c, rfl, rfl⟩
  · exact ⟨by simp, by simp [Operator.wires, raising], by simp [Operator.wires], by simp,
      _, Store.get_sample_raising c, rfl, rfl⟩

end

end GateNetwork
