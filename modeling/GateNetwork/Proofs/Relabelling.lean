import GateNetwork.Proofs.Amplitude

/-!
# Relabelling the qubits

A permutation of the qubits of a register takes wires to wires, and so indices to indices: bit `q`
becomes the bit at the new place of qubit `q`. An operator on relabelled wires does at the new index
what the operator did at the old one. It reads the same bits in the same order and adds up the same
products in the same order, so the amplitudes agree bit for bit, whatever the scalars are.
-/

namespace GateNetwork

variable {α ρ σ : Type} {n : Nat}

/-! ## Wires and indices -/

/-- The new place of a wire. Wires beyond the register stay where they are. -/
def relabelWire (π : Equiv.Perm (Fin n)) (q : Nat) : Nat := if h : q < n then π ⟨q, h⟩ else q

/-- The index whose bit at the new place of each qubit is bit `q` of `i`, for the qubit `q`. -/
def relabelIndex (π : Equiv.Perm (Fin n)) (i : Nat) : Nat :=
  spread (List.ofFn fun q => (π q).val) i

section

variable (π : Equiv.Perm (Fin n))

@[simp] theorem relabelWire_val (q : Fin n) : relabelWire π q = π q := by
  rw [relabelWire, dif_pos q.isLt]

theorem relabelWire_lt {q : Nat} (hq : q < n) : relabelWire π q < n := by
  rw [relabelWire, dif_pos hq]
  exact (π ⟨q, hq⟩).isLt

theorem relabelWire_symm (q : Nat) : relabelWire π.symm (relabelWire π q) = q := by
  by_cases hq : q < n
  · have hnew : relabelWire π q = π ⟨q, hq⟩ := dif_pos hq
    rw [hnew, relabelWire_val, Equiv.symm_apply_apply]
  · have hnew : relabelWire π q = q := dif_neg hq
    rw [hnew, relabelWire, dif_neg hq]

theorem relabelWire_injective : Function.Injective (relabelWire π) :=
  Function.LeftInverse.injective (relabelWire_symm π)

theorem testBit_relabelIndex (i : Nat) {q : Nat} (hq : q < n) :
    (relabelIndex π i).testBit (relabelWire π q) = i.testBit q := by
  have hnodup : (List.ofFn fun q => (π q).val).Nodup :=
    List.nodup_ofFn.2 (Fin.val_injective.comp π.injective)
  refine testBit_spread_of_getElem? hnodup i ?_
  rw [List.getElem?_ofFn, dif_pos hq, relabelWire, dif_pos hq]

theorem relabelIndex_lt (i : Nat) : relabelIndex π i < 2 ^ n := by
  refine spread_lt (fun p hp => ?_) i
  obtain ⟨q, rfl⟩ := (List.mem_ofFn' _ _).1 hp
  exact (π q).isLt

/-- Every wire of the register is the new place of some qubit, so indices are settled there. -/
theorem eq_of_testBit_relabelWire {i j : Nat} (hi : i < 2 ^ n) (hj : j < 2 ^ n)
    (h : ∀ q < n, i.testBit (relabelWire π q) = j.testBit (relabelWire π q)) : i = j := by
  refine eq_of_testBit_eq hi hj fun p hp => ?_
  have hback : relabelWire π (relabelWire π.symm p) = p := relabelWire_symm π.symm p
  have hq := h _ (relabelWire_lt π.symm hp)
  rwa [hback] at hq

variable {π}

theorem relabelIndex_injective {i j : Nat} (hi : i < 2 ^ n) (hj : j < 2 ^ n)
    (h : relabelIndex π i = relabelIndex π j) : i = j := by
  refine eq_of_testBit_eq hi hj fun q hq => ?_
  rw [← testBit_relabelIndex π i hq, h, testBit_relabelIndex π j hq]

theorem relabelIndex_zero : relabelIndex π 0 = 0 := by
  refine eq_of_testBit_relabelWire π (relabelIndex_lt π 0) (Nat.two_pow_pos n) fun q hq => ?_
  rw [testBit_relabelIndex π 0 hq, Nat.zero_testBit, Nat.zero_testBit]

/-! ## Reading and writing at relabelled wires -/

variable {qs : List Nat}

theorem allSet_relabel (hqs : ∀ q ∈ qs, q < n) (i : Nat) :
    allSet (qs.map (relabelWire π)) (relabelIndex π i) = allSet qs i := by
  rw [Bool.eq_iff_iff, allSet, allSet, List.all_map, List.all_eq_true, List.all_eq_true]
  refine forall₂_congr fun q hq => ?_
  rw [Function.comp_apply, testBit_relabelIndex π i (hqs q hq)]

theorem collect_relabel (hqs : ∀ q ∈ qs, q < n) (i : Nat) :
    collect (qs.map (relabelWire π)) (relabelIndex π i) = collect qs i := by
  refine Nat.eq_of_testBit_eq fun b => ?_
  rw [testBit_collect, testBit_collect, List.getElem?_map]
  cases hb : qs[b]? with
  | none => rfl
  | some q => exact testBit_relabelIndex π i (hqs q (List.mem_of_getElem? hb))

/-- The bits written at relabelled wires are those of the relabelled index. -/
theorem clear_or_spread_relabel (hqs : ∀ q ∈ qs, q < n) (hnodup : qs.Nodup) (i k : Nat) :
    clear (qs.map (relabelWire π)) (relabelIndex π i) ||| spread (qs.map (relabelWire π)) k =
      relabelIndex π (clear qs i ||| spread qs k) := by
  have hinj := relabelWire_injective π
  have hlt : ∀ p ∈ qs.map (relabelWire π), p < n := by
    intro p hp
    obtain ⟨q, hq, rfl⟩ := List.mem_map.1 hp
    exact relabelWire_lt π (hqs q hq)
  refine eq_of_testBit_relabelWire π (clear_or_spread_lt hlt (relabelIndex_lt π i) k)
    (relabelIndex_lt π _) fun q hq => ?_
  have hiff : relabelWire π q ∈ qs.map (relabelWire π) ↔ q ∈ qs := List.mem_map_of_injective hinj
  rw [testBit_relabelIndex π _ hq, Nat.testBit_or, Nat.testBit_or, testBit_clear, testBit_clear,
    testBit_relabelIndex π i hq]
  simp only [hiff]
  -- At a wire both sides have the bit of `k` at its place in the list, and elsewhere that of `i`.
  by_cases hmem : q ∈ qs
  · obtain ⟨b, hb⟩ := List.getElem?_of_mem hmem
    have hb' : (qs.map (relabelWire π))[b]? = some (relabelWire π q) := by
      rw [List.getElem?_map, hb]
      rfl
    rw [testBit_spread_of_getElem? hnodup k hb,
      testBit_spread_of_getElem? (hnodup.map hinj) k hb']
  · rw [testBit_spread_of_notMem k hmem, testBit_spread_of_notMem k (mt hiff.1 hmem)]

end

/-! ## Vectors -/

/-- The second vector has at the new place of each index what the first one has at the old place. -/
structure Relabels (π : Equiv.Perm (Fin n)) (v w : Array α) : Prop where
  left : v.size = 2 ^ n
  right : w.size = 2 ^ n
  entry : ∀ i < 2 ^ n, w[relabelIndex π i]? = v[i]?

theorem Relabels.getD [Zero α] {π : Equiv.Perm (Fin n)} {v w : Array α} (h : Relabels π v w)
    {i : Nat} (hi : i < 2 ^ n) : w.getD (relabelIndex π i) 0 = v.getD i 0 := by
  rw [Array.getD_eq_getD_getElem?, Array.getD_eq_getD_getElem?, h.entry i hi]

theorem relabels_zeroState [Zero α] [One α] (π : Equiv.Perm (Fin n)) :
    Relabels π (Dense.Buffers.zeroState (2 ^ n) : Array α) (Dense.Buffers.zeroState (2 ^ n)) := by
  have hsize : (Dense.Buffers.zeroState (2 ^ n) : Array α).size = 2 ^ n := Array.size_ofFn
  refine ⟨hsize, hsize, fun i hi => ?_⟩
  have hzero : relabelIndex π i = 0 ↔ i = 0 := by
    constructor
    · intro h
      exact relabelIndex_injective hi (Nat.two_pow_pos n) (h.trans relabelIndex_zero.symm)
    · rintro rfl
      exact relabelIndex_zero
  rw [Dense.Buffers.zeroState, Array.getElem?_ofFn, Array.getElem?_ofFn,
    dif_pos (relabelIndex_lt π i), dif_pos hi]
  simp only [hzero]

/-- The action on relabelled wires. -/
def Action.relabel (π : Equiv.Perm (Fin n)) (x : Action α) : Action α :=
  { x with targets := x.targets.map (relabelWire π), controls := x.controls.map (relabelWire π) }

namespace Action

variable [Zero α] [Add α] [Mul α] {π : Equiv.Perm (Fin n)} {x : Action α} {v w : Array α}

theorem amplitudeAt_relabel (hx : x.Fits n) (h : Relabels π v w) {i : Nat} (hi : i < 2 ^ n) :
    (x.relabel π).amplitudeAt w (relabelIndex π i) = x.amplitudeAt v i := by
  have hcontrols : ∀ c ∈ x.controls, c < n := fun c hc => hx.lt c (List.mem_append_right _ hc)
  have hread (k : Nat) : w.getD (clear (x.targets.map (relabelWire π)) (relabelIndex π i) |||
      spread (x.targets.map (relabelWire π)) k) 0 =
        v.getD (clear x.targets i ||| spread x.targets k) 0 := by
    rw [clear_or_spread_relabel hx.target_lt hx.targets_nodup,
      h.getD (clear_or_spread_lt hx.target_lt hi k)]
  rw [amplitudeAt, amplitudeAt]
  simp only [relabel, allSet_relabel hcontrols, collect_relabel hx.target_lt, hread, h.getD hi,
    List.length_map]

theorem apply_relabel (hx : x.Fits n) (h : Relabels π v w) :
    Relabels π (x.apply v) ((x.relabel π).apply w) := by
  refine ⟨(size_apply x v).trans h.left, (size_apply _ w).trans h.right, fun i hi => ?_⟩
  have hleft : i < v.size := h.left.symm ▸ hi
  have hright : relabelIndex π i < w.size := h.right.symm ▸ relabelIndex_lt π i
  rw [apply, apply, Array.getElem?_ofFn, Array.getElem?_ofFn, dif_pos hright, dif_pos hleft,
    amplitudeAt_relabel hx h hi]

theorem applyAll_relabel {xs : List (Action α)} (hxs : ∀ x ∈ xs, x.Fits n) (h : Relabels π v w) :
    Relabels π (applyAll xs v) (applyAll (xs.map (relabel π)) w) := by
  induction xs generalizing v w with
  | nil => exact h
  | cons x xs ih =>
    exact ih (fun y hy => hxs y (List.mem_cons_of_mem x hy))
      (apply_relabel (hxs x List.mem_cons_self) h)

end Action

/-! ## Operators -/

/-- The operator on relabelled wires, with its tensor and its form as they are. -/
def Operator.relabel (π : Equiv.Perm (Fin n)) (op : Operator) : Operator :=
  { op with targets := op.targets.map (relabelWire π), controls := op.controls.map (relabelWire π) }

theorem Operator.Fits.relabel {op : Operator} {a : Arena α} (h : op.Fits a n)
    (π : Equiv.Perm (Fin n)) : (op.relabel π).Fits a n := by
  have hwires : (op.relabel π).wires = op.wires.map (relabelWire π) := List.map_append.symm
  have hlength : (op.relabel π).targets.length = op.targets.length := List.length_map _
  refine ⟨?_, fun p hp => ?_, ?_, hlength ▸ h.few, ?_⟩
  · exact fun hnil => h.targets_ne (List.map_eq_nil_iff.1 hnil)
  · rw [hwires] at hp
    obtain ⟨q, hq, rfl⟩ := List.mem_map.1 hp
    exact relabelWire_lt π (h.lt q hq)
  · rw [hwires]
    exact h.nodup.map (relabelWire_injective π)
  · rw [hlength]
    exact h.stored

/-! ## Assignments -/

/-- The second assignment has at the new place of each qubit the digit that the first one has at the
old place. -/
structure RelabelsDigits (π : Equiv.Perm (Fin n)) (digits digits' : List Nat) : Prop where
  left : digits.length = n
  right : digits'.length = n
  digit : ∀ q : Fin n, digits'[(π q).val]? = digits[q.val]?

namespace RelabelsDigits

variable {π : Equiv.Perm (Fin n)} {digits digits' : List Nat} (h : RelabelsDigits π digits digits')

include h

theorem mem_iff {d : Nat} : d ∈ digits' ↔ d ∈ digits := by
  rw [List.mem_iff_getElem?, List.mem_iff_getElem?]
  constructor
  · rintro ⟨p, hp⟩
    have hlt : p < n := h.right ▸ (List.getElem?_eq_some_iff.1 hp).1
    refine ⟨π.symm ⟨p, hlt⟩, ?_⟩
    rw [← h.digit, Equiv.apply_symm_apply, hp]
  · rintro ⟨q, hq⟩
    have hlt : q < n := h.left ▸ (List.getElem?_eq_some_iff.1 hq).1
    exact ⟨π ⟨q, hlt⟩, (h.digit ⟨q, hlt⟩).trans hq⟩

/-- Both assignments have an index, or they are refused alike. -/
theorem basisIndex_eq :
    basisIndex digits' n = (basisIndex digits n).map fun _ => digits'.foldr shiftIn 0 := by
  have hany : digits'.any (1 < ·) = digits.any (1 < ·) := by
    rw [Bool.eq_iff_iff, List.any_eq_true, List.any_eq_true]
    simp only [h.mem_iff]
  have hempty : digits'.isEmpty = digits.isEmpty := by
    rw [Bool.eq_iff_iff, List.isEmpty_iff_length_eq_zero, List.isEmpty_iff_length_eq_zero, h.left,
      h.right]
  rw [basisIndex, basisIndex, if_neg (not_not.2 h.left), if_neg (not_not.2 h.right), hany, hempty]
  split
  · rfl
  · split <;> rfl

theorem indexOf_eq (hbits : ∀ d ∈ digits, d ≤ 1) :
    indexOf digits' = relabelIndex π (indexOf digits) := by
  have hbits' : ∀ d ∈ digits', d ≤ 1 := fun d hd => hbits d (h.mem_iff.1 hd)
  have hlt : indexOf digits' < 2 ^ n := h.right ▸ indexOf_lt hbits'
  refine eq_of_testBit_relabelWire π hlt (relabelIndex_lt π _) fun q hq => ?_
  rw [testBit_relabelIndex π _ hq, testBit_indexOf hbits, testBit_indexOf hbits',
    relabelWire_val π ⟨q, hq⟩, h.digit ⟨q, hq⟩]

end RelabelsDigits

/-! ## Networks -/

section

variable [Zero α] [One α] [Add α] [Mul α] [Conj α] {net : Network} {a : Arena α} {store : Store α}
  {π : Equiv.Perm (Fin net.qubits)}

namespace Network

/-- The network on relabelled wires, made anew. -/
def relabel (net : Network) (π : Equiv.Perm (Fin net.qubits)) : Network :=
  ofOps net.arena net.qubits (net.ops.map (Operator.relabel π))

omit [Zero α] [One α] [Add α] [Mul α] [Conj α] in
theorem Fits.relabel (h : net.Fits a) : (net.relabel π).Fits a := by
  intro op hop
  obtain ⟨o, ho, rfl⟩ := List.mem_map.1 hop
  exact (h o ho).relabel π

theorem relabels_vector (h : net.Fits a) :
    Relabels π (net.vector a) ((net.relabel π).vector a) := by
  have hactions : (net.relabel π).ops.map a.action =
      (net.ops.map a.action).map (Action.relabel π) := by
    rw [relabel, ofOps, List.map_map, List.map_map]
    rfl
  rw [vector, vector, hactions]
  exact Action.applyAll_relabel (Arena.actions_fit h) (relabels_zeroState π)

/-- A relabelled assignment is answered like the assignment. -/
theorem amplitudeAnswer_relabel (h : net.Fits a) {capacity : Nat} (hcapacity : capacity < 2 ^ 64)
    {digits digits' : List Nat} (hdigits : RelabelsDigits π digits digits') :
    (net.relabel π).amplitudeAnswer a capacity digits' =
      net.amplitudeAnswer a capacity digits := by
  have hindices : basisIndex digits' net.qubits =
      (basisIndex digits net.qubits).map fun _ => digits'.foldr shiftIn 0 := hdigits.basisIndex_eq
  rw [amplitudeAnswer, amplitudeAnswer]
  show (basisIndex digits' net.qubits >>= _) = _
  by_cases hfit : 32 * 2 ^ net.qubits ≤ capacity
  · have hn : net.qubits ≤ 64 := by
      have hlt := wide_le_of_pow_le hcapacity hfit
      omega
    have hleft : net.contracted a capacity = .ok (net.vector a) := if_pos hfit
    have hright : (net.relabel π).contracted a capacity = .ok ((net.relabel π).vector a) :=
      if_pos hfit
    rw [hleft, hright]
    cases hindex : basisIndex digits net.qubits with
    | error e =>
      rw [hindices, hindex]
      rfl
    | ok i =>
      have hindex' : basisIndex digits' net.qubits = .ok (digits'.foldr shiftIn 0) := by
        rw [hindices, hindex]
        rfl
      obtain ⟨-, hbits, rfl, hi⟩ := eq_indexOf_of_basisIndex hn hindex
      obtain ⟨-, -, hj, -⟩ := eq_indexOf_of_basisIndex hn hindex'
      rw [hindex', hj, hdigits.indexOf_eq hbits]
      exact congrArg Except.ok ((relabels_vector h).getD hi)
  · have hleft : net.contracted a capacity = .error _ := if_neg hfit
    have hright : (net.relabel π).contracted a capacity = .error _ := if_neg hfit
    rw [hleft, hright, hindices]
    cases basisIndex digits net.qubits <;> rfl

variable [Magnitude α ρ] [Zero ρ] [Add ρ]

open NetworkState in
/-- Relabelling the qubits of a network makes a network whose operators are accepted one after the
other, and whose vector, bit for bit, has at each relabelled index what the vector of the network
has at the index. States over the two answer relabelled assignments alike, with an amplitude or an
error, whatever their settings and the questions before. -/
theorem Built.relabel_equivariant (h : net.Built store) (π : Equiv.Perm (Fin net.qubits)) :
    let moved := net.relabel π
    pushAll store (.empty net.arena net.qubits) (net.ops.map (Operator.relabel π)) = .ok moved ∧
      moved.Built store ∧
      (∀ bench : Bench α σ, 32 * 2 ^ net.qubits ≤ bench.scratch.capacity → ∃ v w,
        ((Dense.backend : Backend α ρ σ).materialize (store.arena net.arena) net).outcome bench =
          .ok v ∧
        ((Dense.backend : Backend α ρ σ).materialize (store.arena net.arena) moved).outcome bench =
          .ok w ∧
        Relabels π v w) ∧
      ∀ (s t : NetworkState α) (bench : Bench α σ) (digits digits' : List Nat),
        s.network = some net → t.network = some moved →
        s.Reached bench.scratch.capacity store → t.Reached bench.scratch.capacity store →
        RelabelsDigits π digits digits' →
        (amplitude (Dense.backend : Backend α ρ σ) store digits').outcome ⟨t, bench⟩ =
          (amplitude (Dense.backend : Backend α ρ σ) store digits).outcome ⟨s, bench⟩ := by
  intro moved
  have hfits : moved.Fits (store.arena net.arena) := h.fits.relabel
  have hmoved : moved.Built store := built_ofOps hfits
  refine ⟨pushAll_empty hfits, hmoved, fun bench hfit => ?_, ?_⟩
  · obtain ⟨_, hv⟩ := Dense.materialize_eq_vector (ρ := ρ) h.fits hfit
    obtain ⟨_, hw⟩ := Dense.materialize_eq_vector (ρ := ρ) hmoved.fits hfit
    exact ⟨_, _, Attempt.outcome_of_eq (r := .ok _) hv, Attempt.outcome_of_eq (r := .ok _) hw,
      relabels_vector h.fits⟩
  · intro s t bench digits digits' hs ht hreached hreached' hdigits
    obtain ⟨_, hserves⟩ := hreached.serves
    obtain ⟨_, hserves'⟩ := hreached'.serves
    obtain rfl := Option.some.inj (hs.symm.trans hserves.network)
    obtain rfl := Option.some.inj (ht.symm.trans hserves'.network)
    obtain ⟨_, _, heq, -⟩ := amplitude_eq (ρ := ρ) ⟨s, bench⟩ hserves digits
    obtain ⟨_, _, heq', -⟩ := amplitude_eq (ρ := ρ) ⟨t, bench⟩ hserves' digits'
    rw [Attempt.outcome_of_eq heq, Attempt.outcome_of_eq heq']
    exact amplitudeAnswer_relabel h.fits (capacity_lt bench.scratch) hdigits

end Network

end

/-- The raising network with its qubits moved round by one: a new state of it that accesses each
amplitude on its own, beside one that keeps the vector. -/
theorem Network.relabel_equivariant_raising :
    let store : Store Amplitude := .sample 1
    let bench : Bench Amplitude Unit := ⟨.ofBytes 300, ()⟩
    let dense : Backend Amplitude Float Unit := Dense.backend
    let moved := raising.relabel (finRotate 3)
    let s : NetworkState Amplitude := .ofNetwork .raising {}
    let t : NetworkState Amplitude := .ofNetwork moved { vectorQubits := 0 }
    raising.Built store ∧ 32 * 2 ^ raising.qubits ≤ bench.scratch.capacity ∧
      s.Reached bench.scratch.capacity store ∧ t.Reached bench.scratch.capacity store ∧
      RelabelsDigits (finRotate 3) [1, 0, 1] [1, 1, 0] ∧
      pushAll store (.empty 1 3) (raising.ops.map (Operator.relabel (finRotate 3))) = .ok moved ∧
      (∃ v w, (dense.materialize (store.arena 1) raising).outcome bench = .ok v ∧
        (dense.materialize (store.arena 1) moved).outcome bench = .ok w ∧
        Relabels (finRotate 3) v w) ∧
      (NetworkState.amplitude dense store [1, 1, 0]).outcome ⟨t, bench⟩ =
        (NetworkState.amplitude dense store [1, 0, 1]).outcome ⟨s, bench⟩ := by
  intro store bench dense moved s t
  have hraising : raising.Built store := raising_built 1
  have hfit : 32 * 2 ^ raising.qubits ≤ bench.scratch.capacity := by decide
  have hdigits : RelabelsDigits (finRotate 3) [1, 0, 1] [1, 1, 0] := ⟨rfl, rfl, by decide⟩
  obtain ⟨hpush, hmoved, hvectors, hamplitude⟩ :=
    hraising.relabel_equivariant (ρ := Float) (σ := Unit) (finRotate 3)
  have hs : s.Reached bench.scratch.capacity store := .fresh hraising _
  have ht : t.Reached bench.scratch.capacity store := .fresh hmoved _
  exact ⟨hraising, hfit, hs, ht, hdigits, hpush, hvectors bench hfit,
    hamplitude s t bench _ _ rfl rfl hs ht hdigits⟩

end GateNetwork
