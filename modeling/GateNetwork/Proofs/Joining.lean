import GateNetwork.NetworkState.Overlap
import GateNetwork.Proofs.Access

/-!
# Joined networks

Joining two networks lists the actions of the ket and after them those of the bra side, which depend
on the stored tensors only and not on where copies of them are staged. While operators are appended,
the arena of the ket is the one from before with the staged copies added and the other arenas stay
as they were; at the end the copies are released, so an overlap leaves what every handle names
alone.
-/

namespace GateNetwork

variable {α ρ σ : Type}

/-! ## Bra side -/

/-- The tensor that the bra-side form of an operator refers to. -/
def Operator.braTensor (op : Operator) (t : Tensor α) : Tensor α :=
  match op.kind with
  | .unitary => t
  | .nonUnitary => t.transpose

/-- What the bra-side form of an operator does whose tensor lies in the arena. -/
def Arena.braAction [Conj α] (a : Arena α) (op : Operator) : Action α :=
  ({ op with adjoint := !op.adjoint } : Operator).action (op.braTensor (a.tensorD op.tensor))

theorem Tensor.hasGateShape_of_eq {t : Tensor α} {k : Nat} (hrows : t.rows = 2 ^ k)
    (hcols : t.cols = 2 ^ k) : t.hasGateShape = true := by
  have hpow : isPowerOfTwo (2 ^ k) = true := isPowerOfTwo_iff.2 ⟨k, rfl⟩
  simp [hasGateShape, hrows, hcols, hpow]

theorem Tensor.hasGateShape_transpose (t : Tensor α) :
    t.transpose.hasGateShape = t.hasGateShape := by
  unfold hasGateShape
  by_cases hsquare : t.rows = t.cols
  · simp [hsquare]
  · simp [beq_eq_false_iff_ne.2 hsquare, beq_eq_false_iff_ne.2 (Ne.symm hsquare)]

namespace Operator

variable {op : Operator} {source target base : Arena α} {staging : Staging} {t : Tensor α} {n : Nat}

theorem braTensor_shape (op : Operator) {side : Nat} (hrows : t.rows = side)
    (hcols : t.cols = side) : (op.braTensor t).rows = side ∧ (op.braTensor t).cols = side := by
  unfold braTensor
  split
  · exact ⟨hrows, hcols⟩
  · exact ⟨hcols, hrows⟩

theorem hasGateShape_braTensor (op : Operator) (t : Tensor α) :
    (op.braTensor t).hasGateShape = t.hasGateShape := by
  unfold braTensor
  split
  · rfl
  · exact t.hasGateShape_transpose

/-- Whether the bra-side form can name the stored tensor itself. -/
def inPlace (op : Operator) (target : Arena α) : Bool := op.kind.isUnitary && target.owns op.tensor

theorem inPlace_eq_false_iff :
    op.inPlace target = false ↔ op.kind = .nonUnitary ∨ target.owns op.tensor = false := by
  unfold inPlace
  cases op.kind <;> simp [OperatorKind.isUnitary]

theorem braTensor_of_inPlace (h : op.inPlace target = true) : op.braTensor t = t := by
  unfold braTensor
  cases hkind : op.kind with
  | unitary => rfl
  | nonUnitary =>
    rw [inPlace, hkind] at h
    cases h

/-- Only one arena has issued the handle. -/
theorem number_eq_of_inPlace (h : op.inPlace target = true) (hget : source.get op.tensor = .ok t) :
    target.number = source.number := by
  have htarget := (Bool.and_eq_true_iff.1 h).2
  have hsource := (Arena.get_eq_ok_iff.1 hget).1
  simp only [Arena.owns, beq_iff_eq] at htarget hsource
  rw [← htarget, ← hsource]

theorem toBra_of_inPlace (h : op.inPlace target = true) :
    op.toBra source target staging = .ok ({ op with adjoint := !op.adjoint }, staging, target) := by
  obtain ⟨hkind, hown⟩ := Bool.and_eq_true_iff.1 h
  unfold toBra
  cases hk : op.kind with
  | unitary => simp [hown]
  | nonUnitary =>
    rw [hk] at hkind
    cases hkind

/-- Otherwise a copy is staged. -/
theorem toBra_of_copied (h : op.inPlace target = false) :
    op.toBra source target staging = do
      let t ← source.get op.tensor
      let (h, staging, target) ← staging.stage target (op.braTensor t)
      return ({ op with adjoint := !op.adjoint, tensor := h }, staging, target) := by
  unfold toBra braTensor
  cases hk : op.kind with
  | unitary =>
    have hown : target.owns op.tensor = false := by
      simpa [inPlace, hk, OperatorKind.isUnitary] using h
    simp [hown]
  | nonUnitary => rfl

theorem toBra_of_stage (h : op.inPlace target = false) (hget : source.get op.tensor = .ok t)
    {k : Handle} {staging' : Staging} {target' : Arena α}
    (hstage : staging.stage target (op.braTensor t) = .ok (k, staging', target')) :
    op.toBra source target staging =
      .ok ({ op with adjoint := !op.adjoint, tensor := k }, staging', target') := by
  rw [toBra_of_copied h, hget]
  simp only [bind, Except.bind, hstage]
  rfl

theorem Fits.braAction [Conj α] {a : Arena α} (h : op.Fits a n) : (a.braAction op).Fits n := by
  obtain ⟨t, hget, hrows, hcols⟩ := h.stored
  obtain ⟨hrows, hcols⟩ := op.braTensor_shape hrows hcols
  obtain ⟨hrows, hcols⟩ := ({ op with adjoint := !op.adjoint } : Operator).shape_applied hrows hcols
  rw [Arena.braAction, Arena.tensorD_of_get hget]
  exact ⟨h.lt, h.nodup, hrows, hcols⟩

/-- The bra-side form of an operator names its bra-side tensor. At most one more tensor is staged.
-/
theorem toBra_eq (hget : source.get op.tensor = .ok t) (hshape : t.hasGateShape = true)
    (hsame : target.number = source.number → target = source) (hover : staging.Over base target) :
    ∃ h staging' target', op.toBra source target staging =
        .ok ({ op with adjoint := !op.adjoint, tensor := h }, staging', target') ∧
      target'.get h = .ok (op.braTensor t) ∧ staging'.Over base target' ∧
      ∀ k u, target.get k = .ok u → target'.get k = .ok u := by
  cases hplace : op.inPlace target with
  | true =>
    refine ⟨op.tensor, staging, target, toBra_of_inPlace hplace, ?_, hover, fun _ _ hk => hk⟩
    rw [hsame (number_eq_of_inPlace hplace hget), hget, braTensor_of_inPlace hplace]
  | false =>
    obtain ⟨h, staging', target', hstage, hnew⟩ :=
      hover.exists_stage ((hasGateShape_braTensor op t).trans hshape)
    exact ⟨h, staging', target', toBra_of_stage hplace hget hstage, hnew⟩

end Operator

/-! ## Appending the operators of both sides -/

namespace Network

section

variable [Conj α]

/-- On the way to the joined network: operators with the given actions were appended over the arena
`l` of the store `s`, to which tensors were staged. -/
structure Joined (s : Store α) (l n : Nat) (acts : List (Action α)) (j : Joining α)
    (net : Network) : Prop where
  arena : net.arena = l
  qubits : net.qubits = n
  others : ∀ k, k ≠ l → j.store.arena k = s.arena k
  staged : j.staging.Over (s.arena l) (j.store.arena l)
  fits : ∀ op ∈ net.ops, op.Fits (j.store.arena l) n
  actions : net.ops.map (j.store.arena l).action = acts

variable {s : Store α} {l n source : Nat} {acts : List (Action α)} {j : Joining α} {net : Network}
  {ops : List Operator}

theorem Joined.start (s : Store α) (l n : Nat) : Joined s l n [] ⟨s, .empty⟩ (.empty l n) :=
  ⟨rfl, rfl, fun _ _ => rfl, .empty _, fun _ hop => absurd hop List.not_mem_nil, rfl⟩

/-- What the store of the beginning had is still there. -/
theorem Joined.get (hj : Joined s l n acts j net) {k : Nat} {h : Handle} {t : Tensor α}
    (hget : (s.arena k).get h = .ok t) : (j.store.arena k).get h = .ok t := by
  by_cases hk : k = l
  · subst hk
    exact hj.staged.get hget
  · rw [hj.others k hk, hget]

/-- An operator that fits is appended. -/
theorem Joined.push (hj : Joined s l n acts j net) {op : Operator}
    (hop : op.Fits (j.store.arena l) n) : ∃ position net',
      net.push j.store op = .ok (position, net') ∧
      Joined s l n (acts ++ [(j.store.arena l).action op]) j net' := by
  have hfits : op.Fits (j.store.arena net.arena) net.qubits := by
    rw [hj.arena, hj.qubits]
    exact hop
  refine ⟨_, _, push_of_fits hfits, hj.arena, hj.qubits, hj.others, hj.staged, fun o ho => ?_, ?_⟩
  · rcases List.mem_append.1 ho with ho | ho
    · exact hj.fits o ho
    · rw [List.mem_singleton.1 ho]
      exact hop
  · rw [List.map_append, hj.actions]
    rfl

/-- The arena may grow by staged tensors. -/
theorem Joined.grow (hj : Joined s l n acts j net) {a : Arena α} {staging : Staging}
    (hover : staging.Over (s.arena l) a)
    (hkeep : ∀ h t, (j.store.arena l).get h = .ok t → a.get h = .ok t) :
    Joined s l n acts ⟨j.store.put l a, staging⟩ net := by
  have hput : (j.store.put l a).arena l = a := Store.arena_put_same _ l a hover.number
  have hget : ∀ op ∈ net.ops, a.get op.tensor = (j.store.arena l).get op.tensor := by
    intro op hop
    obtain ⟨t, ht, -⟩ := (hj.fits op hop).stored
    rw [ht, hkeep _ _ ht]
  refine ⟨hj.arena, hj.qubits, fun k hk => ?_, ?_, fun op hop => ?_, ?_⟩
  · rw [← hj.others k hk]
    exact Store.arena_put_other j.store a hk
  · rwa [hput]
  · rw [hput]
    exact (hj.fits op hop).congr (hget op hop)
  · rw [hput, ← hj.actions]
    exact Arena.map_action_congr hget

/-- Appending operators of the same arena appends their actions. -/
theorem Joined.pushAll (hj : Joined s l n acts j net)
    (hops : ∀ op ∈ ops, op.Fits (j.store.arena l) n) : ∃ net', pushAll j.store net ops = .ok net' ∧
      Joined s l n (acts ++ ops.map (j.store.arena l).action) j net' := by
  induction ops generalizing acts net with
  | nil => exact ⟨net, rfl, by simpa using hj⟩
  | cons op ops ih =>
    obtain ⟨position, net', hpush, hj'⟩ := hj.push (hops op List.mem_cons_self)
    obtain ⟨joined, hall, hjoined⟩ := ih hj' fun o ho => hops o (List.mem_cons_of_mem op ho)
    refine ⟨joined, ?_, by simpa using hjoined⟩
    rw [← hall, Network.pushAll, List.foldlM_cons, hpush]
    rfl

/-- The bra-side form of one operator is available and fits. -/
theorem Joined.toBra (hj : Joined s l n acts j net) {op : Operator}
    (hop : op.Fits (s.arena source) n) : ∃ bra staging a,
      op.toBra (j.store.arena source) (j.store.arena net.arena) j.staging = .ok (bra, staging, a) ∧
      Joined s l n acts ⟨j.store.put net.arena a, staging⟩ net ∧
      (j.store.put net.arena a).arena l = a ∧ bra.Fits a n ∧
      a.action bra = (s.arena source).braAction op := by
  obtain ⟨t, hget, hrows, hcols⟩ := hop.stored
  -- The arena of a number is one and the same arena of the store.
  have hsame : (j.store.arena l).number = (j.store.arena source).number →
      j.store.arena l = j.store.arena source := fun h => congrArg j.store.arena h
  obtain ⟨h, staging, a, hbra, hnew, hover, hkeep⟩ := Operator.toBra_eq (hj.get hget)
    (Tensor.hasGateShape_of_eq hrows hcols) hsame hj.staged
  rw [hj.arena]
  refine ⟨_, staging, a, hbra, hj.grow hover hkeep, Store.arena_put_same _ l a hover.number, ?_, ?_⟩
  · exact ⟨hop.targets_ne, hop.lt, hop.nodup, hop.few, _, hnew, op.braTensor_shape hrows hcols⟩
  · rw [Arena.action, Arena.tensorD_of_get hnew, Arena.braAction, Arena.tensorD_of_get hget]
    rfl

/-- Appending the bra side of operators appends their bra-side actions, in the same order. -/
theorem Joined.pushBra (hj : Joined s l n acts j net)
    (hops : ∀ op ∈ ops, op.Fits (s.arena source) n) : ∃ net' j',
      pushBra source ops net j = .ok net' j' ∧
      Joined s l n (acts ++ ops.map (s.arena source).braAction) j' net' := by
  induction ops generalizing acts j net with
  | nil => exact ⟨net, j, rfl, by simpa using hj⟩
  | cons op ops ih =>
    obtain ⟨bra, staging, a, hbra, hgrown, hput, hfits, haction⟩ :=
      hj.toBra (hops op List.mem_cons_self)
    obtain ⟨position, net', hpush, hj'⟩ := hgrown.push (by rw [hput]; exact hfits)
    rw [hput, haction] at hj'
    obtain ⟨joined, j', hrest, hjoined⟩ := ih hj' fun o ho => hops o (List.mem_cons_of_mem op ho)
    refine ⟨joined, j', ?_, by simpa using hjoined⟩
    rw [← hrest, Network.pushBra, Attempt.bind_ok (Attempt.get_apply j), hbra,
      Attempt.bind_ok (Attempt.ofExcept_ok _ j)]
    refine (Attempt.bind_ok (Attempt.set_apply _ j) _).trans ?_
    rw [hpush]
    exact Attempt.bind_ok (Attempt.ofExcept_ok _ _) _

/-! ## The joined network -/

/-- The actions of the joined network: those of the ket, and those of the bra side in reverse. -/
def joinedActions (ket bra : Network) (s : Store α) : List (Action α) :=
  ket.ops.map (s.arena ket.arena).action ++ bra.ops.reverse.map (s.arena bra.arena).braAction

/-- Two networks that fit can be joined, wherever their tensors lie. -/
theorem join_eq {ket bra : Network} (hket : ket.Fits (s.arena ket.arena))
    (hbra : bra.Fits (s.arena bra.arena)) : ∃ net j, ket.join bra ⟨s, .empty⟩ = .ok net j ∧
      Joined s ket.arena (max ket.qubits bra.qubits) (joinedActions ket bra s) j net := by
  obtain ⟨half, hall, hhalf⟩ := (Joined.start s ket.arena (max ket.qubits bra.qubits)).pushAll
    fun op hop => (hket op hop).mono (Nat.le_max_left _ _)
  have hback : ∀ op ∈ bra.ops.reverse, op.Fits (s.arena bra.arena) (max ket.qubits bra.qubits) := by
    intro op hop
    exact (hbra op (List.mem_reverse.1 hop)).mono (Nat.le_max_right _ _)
  obtain ⟨net, j, hrest, hjoined⟩ := hhalf.pushBra hback
  refine ⟨net, j, ?_, hjoined⟩
  rw [join, Attempt.bind_ok (Attempt.get_apply _), hall, Attempt.bind_ok (Attempt.ofExcept_ok _ _),
    hrest]

/-- The store once the staging is closed. -/
def closed (l : Nat) (j : Joining α) : Store α :=
  j.store.put l (j.staging.close (j.store.arena l))

omit [Conj α] in
theorem withStaging_eq {β : Type} {act : Attempt Error (Joining α) Network}
    (hact : act ⟨s, .empty⟩ = .ok net j) {use : Network → Arena α → Attempt Error (Bench α σ) β}
    {bench bench' : Bench α σ} {r : Except Error β}
    (huse : use net (j.store.arena l) bench = Attempt.ofExcept r bench') :
    withStaging l act use ⟨s, bench⟩ = Attempt.ofExcept r ⟨closed l j, bench'⟩ := by
  unfold withStaging
  rw [hact]
  dsimp only
  rw [huse]
  cases r <;> rfl

/-- Closing the staging leaves what every handle names as it was. -/
theorem Joined.get_closed (hj : Joined s l n acts j net) (k : Nat) (h : Handle) :
    ((closed l j).arena k).get h = (s.arena k).get h := by
  have hnumber : (j.staging.close (j.store.arena l)).number = l :=
    (Staging.number_close j.staging _).trans hj.staged.number
  rw [closed, Store.arena_put j.store hnumber]
  split
  · rename_i hk
    rw [hk, hj.staged.get_close h]
  · rename_i hk
    rw [hj.others k hk]

variable [Zero α] [One α] [Add α] [Mul α]

def joinedVector (ket bra : Network) (s : Store α) : Array α :=
  Action.applyAll (joinedActions ket bra s)
    (Dense.Buffers.zeroState (2 ^ max ket.qubits bra.qubits))

/-- What the overlap of two networks answers within a pool of the given capacity. -/
def overlapAnswer (ket bra : Network) (s : Store α) (capacity : Nat) : Except Error α :=
  if ket.qubits = 0 ∨ bra.qubits = 0 then .error (.invalid .overlapEmpty)
  else if 32 * 2 ^ max ket.qubits bra.qubits ≤ capacity then
    .ok ((joinedVector ket bra s).getD 0 0)
  else .error (.workspace (Dense.workspace (max ket.qubits bra.qubits)) capacity)

/-- An overlap is settled by the stored tensors of both networks. -/
theorem overlapAnswer_congr {ket bra : Network} {s' : Store α} (hket : ket.Kept s s')
    (hbra : bra.Kept s s') (capacity : Nat) :
    ket.overlapAnswer bra s' capacity = ket.overlapAnswer bra s capacity := by
  have hbras : bra.ops.reverse.map (s'.arena bra.arena).braAction =
      bra.ops.reverse.map (s.arena bra.arena).braAction := by
    refine List.map_congr_left fun op hop => ?_
    have hget := hbra op (List.mem_reverse.1 hop)
    rw [Arena.braAction, Arena.braAction, Arena.tensorD_congr hget]
  rw [overlapAnswer, overlapAnswer, joinedVector, joinedVector, joinedActions, joinedActions,
    Arena.map_action_congr hket, hbras]

theorem Joined.contracted_eq (hj : Joined s l n acts j net) (capacity : Nat) :
    net.contracted (j.store.arena l) capacity =
      if 32 * 2 ^ n ≤ capacity then .ok (Action.applyAll acts (Dense.Buffers.zeroState (2 ^ n)))
      else .error (.workspace (Dense.workspace n) capacity) := by
  rw [contracted, vector, hj.actions, hj.qubits]

end

end Network

namespace NetworkState

variable [Zero α] [One α] [Add α] [Mul α] [Conj α] [Magnitude α ρ] [Zero ρ] [Add ρ]

/-- An inner product answers from the stored tensors of both networks, and leaves what every handle
names alone. -/
theorem inner_eq {ket bra : NetworkState α} {k l : Network} (hket : ket.network = some k)
    (hbra : bra.network = some l) {store : Store α} (hk : k.Fits (store.arena k.arena))
    (hl : l.Fits (store.arena l.arena)) (bench : Bench α σ) : ∃ store' memory,
      inner (Dense.backend : Backend α ρ σ) ket bra ⟨store, bench⟩ =
        Attempt.ofExcept (k.overlapAnswer l store bench.scratch.capacity)
          ⟨store', bench.withMemory memory⟩ ∧
      ∀ i h, (store'.arena i).get h = (store.arena i).get h := by
  have hnet : ket.getNetwork = .ok k := by rw [getNetwork, hket]
  have hnet' : bra.getNetwork = .ok l := by rw [getNetwork, hbra]
  rw [inner, hnet, Attempt.bind_ok (Attempt.ofExcept_ok _ _), hnet',
    Attempt.bind_ok (Attempt.ofExcept_ok _ _), Network.overlapAnswer]
  by_cases hempty : k.qubits = 0 ∨ l.qubits = 0
  · rw [if_pos hempty, if_pos (by simpa using hempty)]
    exact ⟨store, bench.scratch.memory, rfl, fun _ _ => rfl⟩
  · obtain ⟨net, j, hjoin, hj⟩ := Network.join_eq hk hl
    have hfits : net.Fits (j.store.arena k.arena) := fun op hop => hj.qubits ▸ hj.fits op hop
    obtain ⟨memory, haccess⟩ := Dense.access_allZero_eq (ρ := ρ) hfits bench
      ket.settings.hyperSamples
    rw [if_neg hempty, if_neg (by simpa using hempty)]
    have hanswer := Dense.first_eq haccess (.backend "accessor returned no amplitude")
    rw [hj.contracted_eq, apply_ite (Except.map _)] at hanswer
    exact ⟨_, memory, Network.withStaging_eq hjoin hanswer, hj.get_closed⟩

end NetworkState

end GateNetwork
