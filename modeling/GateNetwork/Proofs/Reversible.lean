import GateNetwork.Proofs.AdjointGates
import GateNetwork.Proofs.Contractions
import GateNetwork.Proofs.Sampling

/-!
# Reversible circuits

Negations, controlled or not, and exchanges take basis vectors to basis vectors: the bits that a
circuit of them leaves are the ones that its calls leave when they are run on bits. From all zeros,
the amplitude of those bits is one, every other amplitude is zero, and samples give nothing else.

The invariant ties the vector of the draft to the bits call by call. What a call does to an index is
read bit by bit.
-/

open Matrix

namespace GateNetwork

variable {α ρ σ τ : Type}

/-! ## Bits and indices -/

/-- The digits of some bits. -/
def digitsOf (bits : List Bool) : List Nat := bits.map Bool.toNat

/-- The text of some bits. -/
def textOf (bits : List Bool) : String := String.ofList (bits.map fun b => if b then '1' else '0')

theorem digitsOf_le (bits : List Bool) : ∀ d ∈ digitsOf bits, d ≤ 1 := by
  intro d hd
  obtain ⟨b, -, rfl⟩ := List.mem_map.1 hd
  exact Bool.toNat_le b

@[simp] theorem length_digitsOf (bits : List Bool) : (digitsOf bits).length = bits.length :=
  List.length_map _

theorem indexOf_digitsOf_lt (bits : List Bool) : indexOf (digitsOf bits) < 2 ^ bits.length := by
  rw [← length_digitsOf]
  exact indexOf_lt (digitsOf_le bits)

@[simp] theorem testBit_indexOf_digitsOf (bits : List Bool) (q : Nat) :
    (indexOf (digitsOf bits)).testBit q = bits[q]?.getD false := by
  rw [testBit_indexOf (digitsOf_le bits), digitsOf, List.getElem?_map]
  rcases bits[q]? with _ | b
  · rfl
  · cases b <;> rfl

theorem basisText_digitsOf (bits : List Bool) :
    basisText bits.length (indexOf (digitsOf bits)) = textOf bits := by
  refine congrArg String.ofList (List.ext_getElem (by simp) fun q hq hq' => ?_)
  have hlt : q < bits.length := by simpa using hq'
  simp [List.getElem?_eq_getElem hlt]

/-! ## Reversible calls -/

/-- A call that negates or exchanges qubits. -/
inductive Reversible where
  | x (qubit : Nat)
  | cnot (control target : Nat)
  | toffoli (first second target : Nat)
  | swap (first second : Nat)
deriving Repr, DecidableEq

namespace Reversible

/-- The gate that a call places. -/
def placement [Zero α] [One α] : Reversible → Placement α
  | x qubit => .single .x qubit
  | cnot control target => .cnot control target
  | toffoli first second target => .toffoli first second target
  | swap first second => .swap first second

/-- The bits with the target negated, if all controls are one. -/
def negateUnder (controls : List Nat) (target : Nat) (bits : List Bool) : List Bool :=
  if controls.all fun c => bits[c]?.getD false then bits.modify target not else bits

/-- The bits with two of them exchanged. -/
def exchange (first second : Nat) (bits : List Bool) : List Bool :=
  (bits.set first (bits[second]?.getD false)).set second (bits[first]?.getD false)

/-- What a call does to the bits of a register. -/
def act : Reversible → List Bool → List Bool
  | x qubit => negateUnder [] qubit
  | cnot control target => negateUnder [control] target
  | toffoli first second target => negateUnder [first, second] target
  | swap first second => exchange first second

/-- The qubits that a call names. -/
def wires : Reversible → List Nat
  | x qubit => [qubit]
  | cnot control target => [target, control]
  | toffoli first second target => [target, first, second]
  | swap first second => [first, second]

/-- Whether a call names distinct qubits of a register. -/
def valid (n : Nat) (c : Reversible) : Bool := decide c.wires.Nodup && c.wires.all (· < n)

/-- The bits that the valid calls leave, run on all zeros. -/
def bitsAfter (n : Nat) (calls : List Reversible) : List Bool :=
  calls.foldl (fun bits c => if c.valid n then c.act bits else bits) (List.replicate n false)

/-- A draft with the bits that its calls were run on. -/
structure Tracked (α : Type) where
  draft : Draft α
  bits : List Bool

/-- Makes a call; the bits follow if it is accepted. -/
def step [Zero α] [One α] (w : Tracked α) (c : Reversible) : Tracked α :=
  match Draft.place c.placement w.draft with
  | .ok _ draft => ⟨draft, c.act w.bits⟩
  | .error _ draft => ⟨draft, w.bits⟩

/-- Makes calls in order, whether or not some are refused. -/
def run [Zero α] [One α] (w : Tracked α) (calls : List Reversible) : Tracked α := calls.foldl step w

@[simp] theorem length_negateUnder (controls : List Nat) (target : Nat) (bits : List Bool) :
    (negateUnder controls target bits).length = bits.length := by
  unfold negateUnder
  split <;> simp

@[simp] theorem length_act (c : Reversible) (bits : List Bool) :
    (c.act bits).length = bits.length := by
  cases c <;> simp [act, exchange]

/-! ## What a call does to an index -/

variable {bits : List Bool}

theorem allSet_indexOf (controls : List Nat) (bits : List Bool) :
    allSet controls (indexOf (digitsOf bits)) = controls.all fun c => bits[c]?.getD false :=
  congrArg controls.all (funext fun c => testBit_indexOf_digitsOf bits c)

/-- Negating the bit of an index that a list has at the target. -/
theorem negated_index {target : Nat} (ht : target < bits.length) :
    clear [target] (indexOf (digitsOf bits)) |||
        spread [target] (1 - collect [target] (indexOf (digitsOf bits))) =
      indexOf (digitsOf (bits.modify target not)) := by
  let i := indexOf (digitsOf bits)
  have hflip : (1 - collect [target] i).testBit 0 = !i.testBit target := by
    have hbit : (collect [target] i).testBit 0 = i.testBit target := by rw [testBit_collect]; rfl
    have hlt : collect [target] i < 2 := collect_lt [target] i
    rw [← hbit]
    interval_cases collect [target] i <;> rfl
  refine Nat.eq_of_testBit_eq fun p => ?_
  rw [Nat.testBit_or, testBit_clear, testBit_indexOf_digitsOf, testBit_indexOf_digitsOf,
    List.getElem?_modify]
  by_cases hp : p = target
  · subst hp
    rw [testBit_spread_of_getElem? (by simp) _ (rfl : [p][0]? = some p), hflip]
    simp [i, List.getElem?_eq_getElem ht]
  · rw [testBit_spread_of_notMem _ (by simpa using hp)]
    simp [hp, Ne.symm hp]

/-- Exchanging the bits of an index that a list has at two places. -/
theorem exchanged_index {first second : Nat} (hf : first < bits.length) (hs : second < bits.length)
    (hne : first ≠ second) :
    let k := collect [first, second] (indexOf (digitsOf bits))
    clear [first, second] (indexOf (digitsOf bits)) |||
        spread [first, second] (2 * (k % 2) + k / 2) =
      indexOf (digitsOf (exchange first second bits)) := by
  intro k
  have hnodup : [first, second].Nodup := by simpa using hne
  have hlow : k.testBit 0 = bits[first]?.getD false := by
    rw [testBit_collect, ← testBit_indexOf_digitsOf]; rfl
  have hhigh : k.testBit 1 = bits[second]?.getD false := by
    rw [testBit_collect, ← testBit_indexOf_digitsOf]; rfl
  have hswap : (2 * (k % 2) + k / 2).testBit 0 = k.testBit 1 ∧
      (2 * (k % 2) + k / 2).testBit 1 = k.testBit 0 := by
    have hlt : k < 4 := collect_lt [first, second] _
    clear_value k
    interval_cases k <;> decide
  refine Nat.eq_of_testBit_eq fun p => ?_
  rw [Nat.testBit_or, testBit_clear, testBit_indexOf_digitsOf, testBit_indexOf_digitsOf, exchange,
    List.getElem?_set, List.length_set, List.getElem?_set]
  by_cases hp : p = second
  · subst hp
    rw [testBit_spread_of_getElem? hnodup _ (rfl : [first, p][1]? = some p), hswap.2, hlow]
    simp [hs]
  · by_cases hp' : p = first
    · subst hp'
      rw [testBit_spread_of_getElem? hnodup _ (rfl : [p, second][0]? = some p), hswap.1, hhigh]
      simp [hf, Ne.symm hp]
    · rw [testBit_spread_of_notMem _ (by simp [hp, hp'])]
      simp [Ne.symm hp, Ne.symm hp', hp, hp']

end Reversible

/-! ## Actions that permute basis vectors -/

/-- The basis vector of some bits. -/
def bitsVector [Zero α] [One α] (n : Nat) (bits : List Bool) : Array α :=
  Array.ofFn fun i : Fin (2 ^ n) => if i.val = indexOf (digitsOf bits) then 1 else 0

namespace Action

variable [Semiring α] {x : Action α} {n : Nat} {e : Nat → Nat}

/-- A matrix that permutes basis vectors moves the bits at its targets where the controls are one.
-/
theorem mulVec_basis (hx : x.Fits n)
    (he : ∀ k < 2 ^ x.targets.length, e k < 2 ^ x.targets.length)
    (hmatrix : ∀ k < 2 ^ x.targets.length, ∀ l < 2 ^ x.targets.length,
      x.matrix.entryD k l = if k = e l then 1 else 0)
    {j : Nat} (hj : j < 2 ^ n) :
    (x.toMatrix n *ᵥ fun i => if i.val = j then (1 : α) else 0) = fun i =>
      if i.val = (if allSet x.controls j then
        clear x.targets j ||| spread x.targets (e (collect x.targets j)) else j)
      then 1 else 0 := by
  have hsingle : (fun i : Fin (2 ^ n) => if i.val = j then (1 : α) else 0) =
      Pi.single (⟨j, hj⟩ : Fin (2 ^ n)) 1 := by
    funext i
    simp [Pi.single_apply, Fin.ext_iff]
  rw [hsingle, Matrix.mulVec_single_one]
  funext i
  rw [Matrix.col_apply, toMatrix_apply]
  by_cases hset : allSet x.controls j = true
  · rw [if_pos hset]
    by_cases hclear : clear x.targets i = clear x.targets j
    · rw [if_pos ((allSet_eq_of_clear_eq hx.apart hclear).trans hset), if_pos hclear,
        hmatrix _ (collect_lt _ _) _ (collect_lt _ _)]
      -- An index is settled by its bits at the targets and off them.
      refine if_congr ⟨fun hlocal => ?_, fun hi => ?_⟩ rfl rfl
      · rw [← hlocal, ← hclear, clear_or_spread_collect hx.targets_nodup]
      · rw [hi, collect_clear_or_spread hx.targets_nodup _ (he _ (collect_lt _ _))]
    · have hne : i.val ≠ clear x.targets j ||| spread x.targets (e (collect x.targets j)) := by
        intro hi
        exact hclear (by rw [hi, clear_clear_or_spread])
      have hne' : i ≠ ⟨j, hj⟩ := fun hi => hclear (by rw [hi])
      rw [if_neg hclear, if_neg hne, Matrix.one_apply_ne hne', ite_self]
  · rw [if_neg hset]
    by_cases hi : i = ⟨j, hj⟩
    · subst hi
      rw [if_neg hset, if_pos rfl, Matrix.one_apply_eq]
    · have hne : i.val ≠ j := fun h => hi (Fin.ext h)
      rw [if_neg hne, Matrix.one_apply_ne hi]
      split
      · rename_i hset'
        rw [if_neg]
        intro hclear
        exact hset ((allSet_eq_of_clear_eq hx.apart hclear).symm.trans hset')
      · rfl

theorem apply_basis (hx : x.Fits n)
    (he : ∀ k < 2 ^ x.targets.length, e k < 2 ^ x.targets.length)
    (hmatrix : ∀ k < 2 ^ x.targets.length, ∀ l < 2 ^ x.targets.length,
      x.matrix.entryD k l = if k = e l then 1 else 0)
    {j : Nat} (hj : j < 2 ^ n) :
    x.apply (Array.ofFn fun i : Fin (2 ^ n) => if i.val = j then (1 : α) else 0) =
      Array.ofFn fun i : Fin (2 ^ n) =>
        if i.val = (if allSet x.controls j then
          clear x.targets j ||| spread x.targets (e (collect x.targets j)) else j)
        then 1 else 0 := by
  rw [apply_ofFn hx, mulVec_basis hx he hmatrix hj]

end Action

theorem Gate.entryD_x [Zero α] [One α] : ∀ k < 2, ∀ l < 2,
    (Gate.x.matrix : Tensor α).entryD k l = if k = 1 - l then 1 else 0 := by
  intro k hk l hl
  interval_cases k <;> interval_cases l <;> rfl

namespace Reversible

variable [Semiring α] [Conj α] {n : Nat} {bits : List Bool}

theorem apply_negation {target : Nat} {controls : List Nat}
    (hp : (⟨.x, [target], controls, false⟩ : Placement α).Fits n) (hbits : bits.length = n) :
    (⟨.x, [target], controls, false⟩ : Placement α).action.apply (bitsVector n bits) =
      bitsVector n (negateUnder controls target bits) := by
  have hlt : indexOf (digitsOf bits) < 2 ^ n := hbits ▸ indexOf_digitsOf_lt bits
  refine (Action.apply_basis hp.action (e := fun k => 1 - k) (fun k _ => ?_) Gate.entryD_x
    hlt).trans ?_
  · show 1 - k < 2
    omega
  · have htarget : target < bits.length := hbits ▸ hp.lt target (by simp)
    unfold bitsVector negateUnder
    rw [← allSet_indexOf, apply_ite digitsOf, apply_ite indexOf, ← negated_index htarget]
    rfl

theorem apply_swap {first second : Nat} (hp : (.swap first second : Placement α).Fits n)
    (hbits : bits.length = n) :
    (.swap first second : Placement α).action.apply (bitsVector n bits) =
      bitsVector n (exchange first second bits) := by
  have hmatrix : ∀ k < 4, ∀ l < 4,
      (Gate.swap.matrix : Tensor α).entryD k l = if k = 2 * (l % 2) + l / 2 then 1 else 0 := by
    intro k hk l hl
    interval_cases k <;> interval_cases l <;> rfl
  have hlt : indexOf (digitsOf bits) < 2 ^ n := hbits ▸ indexOf_digitsOf_lt bits
  have hfirst : first < bits.length := hbits ▸ hp.lt first (by simp [Placement.swap])
  have hsecond : second < bits.length := hbits ▸ hp.lt second (by simp [Placement.swap])
  have hne : first ≠ second := by simpa [Placement.swap] using hp.nodup
  refine (Action.apply_basis hp.action (e := fun k => 2 * (k % 2) + k / 2) (fun k hk => ?_)
    hmatrix hlt).trans ?_
  · show 2 * (k % 2) + k / 2 < 4
    have hk : k < 4 := hk
    omega
  · unfold bitsVector
    rw [← exchanged_index hfirst hsecond hne]
    rfl

/-- An accepted call takes the basis vector of some bits to the one of the bits it leaves. -/
theorem apply_placement {c : Reversible} (hp : (c.placement : Placement α).Fits n)
    (hbits : bits.length = n) :
    (c.placement : Placement α).action.apply (bitsVector n bits) = bitsVector n (c.act bits) := by
  cases c with
  | x qubit => exact apply_negation hp hbits
  | cnot control target => exact apply_negation hp hbits
  | toffoli first second target => exact apply_negation hp hbits
  | swap first second => exact apply_swap hp hbits

omit [Conj α] in
/-- The valid calls are the ones that are accepted. -/
theorem fits_placement_iff {c : Reversible} :
    (c.placement : Placement α).Fits n ↔ c.valid n = true := by
  have hvalid : c.valid n = true ↔ c.wires.Nodup ∧ ∀ q ∈ c.wires, q < n := by
    simp [valid]
  have hwires : (c.placement : Placement α).targets ++ (c.placement : Placement α).controls =
      c.wires := by
    cases c <;> rfl
  rw [hvalid]
  refine ⟨fun hp => ⟨hwires ▸ hp.nodup, hwires ▸ hp.lt⟩, fun ⟨hnodup, hlt⟩ => ?_⟩
  rw [← hwires] at hnodup hlt
  cases c <;>
    exact ⟨rfl, List.cons_ne_nil _ _, hlt, hnodup, Nat.le_of_ble_eq_true rfl, rfl, rfl⟩

/-! ## Runs -/

/-- The draft prepares the basis vector of its bits. -/
structure Computes (n : Nat) (w : Tracked α) : Prop where
  built : w.draft.network.Built w.draft.store
  qubits : w.draft.network.qubits = n
  bits : w.bits.length = n
  vector : w.draft.vector = bitsVector n w.bits

theorem computes_empty (arena n : Nat) (store : Store α) :
    Computes n ⟨⟨.empty arena n, store⟩, List.replicate n false⟩ := by
  refine ⟨.empty store arena n, rfl, List.length_replicate, ?_⟩
  have hzero : indexOf (digitsOf (List.replicate n false)) = 0 := by
    rw [digitsOf, List.map_replicate]
    exact indexOf_replicate_zero n
  rw [bitsVector, hzero]
  rfl

theorem Computes.step {w : Tracked α} (h : Computes n w) (c : Reversible) :
    Computes n (step w c) ∧ (step w c).bits = if c.valid n then c.act w.bits else w.bits := by
  unfold Reversible.step
  cases hplace : Draft.place c.placement w.draft with
  | ok position draft =>
    obtain ⟨hbuilt, hqubits, hvector⟩ := Draft.vector_place h.built hplace
    have hp := h.qubits ▸ (Draft.place_eq_ok hplace).1
    refine ⟨⟨hbuilt, hqubits.trans h.qubits, (length_act c w.bits).trans h.bits, ?_⟩, ?_⟩
    · rw [hvector, h.vector, apply_placement hp h.bits]
    · rw [if_pos (fits_placement_iff.1 hp)]
  | error e draft =>
    obtain ⟨hp, hnet, hagree⟩ := Draft.place_eq_error hplace
    have hkept : w.draft.network.Kept w.draft.store draft.store := fun op _ => hagree _ _
    refine ⟨⟨hnet ▸ h.built.kept hkept, hnet ▸ h.qubits, h.bits, ?_⟩, ?_⟩
    · rw [Draft.vector, hnet, Network.vector_congr hkept]
      exact h.vector
    · rw [h.qubits] at hp
      rw [if_neg (mt fits_placement_iff.2 hp)]

/-- Whatever is called, the draft prepares the basis vector of the bits, and the bits are those that
the valid calls leave. -/
theorem Computes.run {w : Tracked α} (h : Computes n w) (calls : List Reversible) :
    Computes n (run w calls) ∧ (run w calls).bits =
      calls.foldl (fun bits c => if c.valid n then c.act bits else bits) w.bits := by
  induction calls generalizing w with
  | nil => exact ⟨h, rfl⟩
  | cons c calls ih =>
    obtain ⟨hstep, hbits⟩ := h.step c
    obtain ⟨hrun, hrest⟩ := ih hstep
    refine ⟨hrun, ?_⟩
    rw [List.foldl_cons, ← hbits]
    exact hrest

end Reversible

/-! ## Answers -/

section

variable {n : Nat} {bits : List Bool}

theorem getD_bitsVector [Zero α] [One α] {i : Nat} (hi : i < 2 ^ n) :
    (bitsVector n bits : Array α).getD i 0 = if i = indexOf (digitsOf bits) then 1 else 0 := by
  simp [bitsVector, hi]

/-- A basis vector has weight from its index on. -/
theorem getElem_cumulative_bitsVector {i : Nat}
    (hi : i < (Sampling.cumulative (bitsVector n bits : Array ℂ)).size) :
    (Sampling.cumulative (bitsVector n bits : Array ℂ))[i] =
      if indexOf (digitsOf bits) ≤ i then (1 : ℝ) else 0 := by
  have hlt : i < 2 ^ n := by simpa [bitsVector] using hi
  rw [Sampling.getElem_cumulative]
  calc ∑ j ∈ Finset.range (i + 1), normSq ((bitsVector n bits : Array ℂ).getD j 0)
      = ∑ j ∈ Finset.range (i + 1), if j = indexOf (digitsOf bits) then (1 : ℝ) else 0 := by
        refine Finset.sum_congr rfl fun j hj => ?_
        have hj' : j < 2 ^ n := by
          have := Finset.mem_range.1 hj
          omega
        rw [getD_bitsVector hj', apply_ite normSq]
        exact if_congr Iff.rfl Complex.normSq_one Complex.normSq_zero
    _ = _ := by
        rw [Finset.sum_ite_eq']
        exact if_congr (by rw [Finset.mem_range, Nat.lt_succ_iff]) rfl rfl

/-- Samples of a basis vector give its bits and nothing else. -/
theorem samplesOf_bitsVector {next : τ → ℝ × τ} (hnext : ∀ t, 0 ≤ (next t).1 ∧ (next t).1 < 1)
    (hbits : bits.length = n) {shots : Nat} (hshots : 0 < shots) (source : τ) : ∃ h last,
    NetworkState.samplesOf next n shots source (.ok (bitsVector n bits : Array ℂ)) =
        (.ok h, last) ∧
      h.counts = [(textOf bits, UInt64.ofNat shots)] := by
  let weights : Array ℝ := Sampling.cumulative (bitsVector n bits : Array ℂ)
  have hsize : weights.size = 2 ^ n := by simp [weights, bitsVector]
  have hpos : 0 < 2 ^ n := Nat.two_pow_pos n
  have hindex : indexOf (digitsOf bits) < 2 ^ n := hbits ▸ indexOf_digitsOf_lt bits
  have htotal : weights.back?.getD 0 = 1 := by
    have hlast : weights.size - 1 < weights.size := by omega
    rw [Array.back?, Array.getElem?_eq_getElem hlast, Option.getD_some,
      getElem_cumulative_bitsVector hlast, if_pos (by omega)]
  have hselect (t : τ) : Sampling.select weights ((next t).1 * 1) = indexOf (digitsOf bits) := by
    obtain ⟨hlow, hhigh⟩ := hnext t
    rw [mul_one]
    refine Sampling.select_eq (by omega) ?_ fun i hi => ?_
    · rw [getElem_cumulative_bitsVector, if_pos le_rfl]
      exact not_le.2 hhigh
    · rw [getElem_cumulative_bitsVector, if_neg (by omega)]
      exact hlow
  obtain ⟨m, rfl⟩ := Nat.exists_eq_add_one.2 hshots
  have hdrawn := Sampling.draw_of_select_eq hselect n (m + 1) .empty source
  rw [← hbits, basisText_digitsOf, Histogram.record_iterate] at hdrawn
  refine ⟨_, (Sampling.draw next n weights 1 (m + 1) .empty source).2, ?_,
    congrArg Histogram.counts hdrawn⟩
  have hpositive : ¬ weights.back?.getD 0 ≤ 0 := by
    rw [htotal]
    norm_num
  rw [NetworkState.samplesOf]
  dsimp only
  rw [if_neg hpositive, htotal, hbits]

end

namespace NetworkState

/-- Reversible calls compute on bits. From all zeros, whatever negations, controlled negations and
exchanges are called and whichever of them are refused, let the accepted ones, which are those on
distinct qubits of the register, run on a list of bits. Every state over the drafted network then
answers amplitude one for these bits and zero for all others, whatever its settings and the
questions before; and every sample has these bits as its only outcome. -/
theorem reversible_computes {n : Nat} (hn : 1 ≤ n) (arena : Nat) (store : Store ℂ)
    (calls : List Reversible) {bench : Bench ℂ σ} (hfit : 32 * 2 ^ n ≤ bench.scratch.capacity) :
    let w := Reversible.run ⟨⟨.empty arena n, store⟩, List.replicate n false⟩ calls
    w.bits.length = n ∧ w.bits = Reversible.bitsAfter n calls ∧
    ∀ s : NetworkState ℂ, s.Reached bench.scratch.capacity w.draft.store →
      s.network = some w.draft.network →
      (∀ digits : List Nat, digits.length = n → (∀ d ∈ digits, d ≤ 1) →
        (amplitude (Dense.backend : Backend ℂ ℝ σ) w.draft.store digits).outcome ⟨s, bench⟩ =
          .ok (if digits = digitsOf w.bits then 1 else 0)) ∧
      ∀ {τ : Type} (next : τ → ℝ × τ) (shots : Nat) (source : τ), 0 < shots →
        (∀ t, 0 ≤ (next t).1 ∧ (next t).1 < 1) → ∃ h,
          (sample (Dense.backend : Backend ℂ ℝ σ) w.draft.store next shots).outcome
            (⟨s, bench⟩, source) = .ok h ∧ h.counts = [(textOf w.bits, UInt64.ofNat shots)] := by
  intro w
  obtain ⟨hw, hbits⟩ : Reversible.Computes n w ∧ w.bits = Reversible.bitsAfter n calls :=
    (Reversible.computes_empty arena n store).run calls
  refine ⟨hw.bits, hbits, fun s hs hnet => ?_⟩
  obtain ⟨net, hserves⟩ := hs.serves
  obtain rfl : w.draft.network = net := Option.some.inj (hnet.symm.trans hserves.network)
  have hcontracted : w.draft.network.contracted (w.draft.store.arena w.draft.network.arena)
      bench.scratch.capacity = .ok (bitsVector n w.bits) :=
    Network.contracted_eq_ok_iff.2 ⟨hw.qubits ▸ hfit, hw.vector.symm⟩
  refine ⟨fun digits hlen hdigits => ?_, fun next shots source hshots hnext => ?_⟩
  · have hsmall : n < 59 := wide_le_of_pow_le (capacity_lt bench.scratch) hfit
    have hne : digits ≠ [] := List.length_pos_iff.1 (by omega)
    have hindex : basisIndex digits n = .ok (indexOf digits) :=
      basisIndex_eq_ok_iff.2 ⟨hlen, hdigits, hne, foldr_shiftIn hdigits (by omega)⟩
    have hlt : indexOf digits < 2 ^ n := basisIndex_lt hindex
    have hsame : indexOf digits = indexOf (digitsOf w.bits) ↔ digits = digitsOf w.bits :=
      ⟨indexOf_injective (by rw [hlen, length_digitsOf, hw.bits]) hdigits (digitsOf_le w.bits),
        congrArg indexOf⟩
    obtain ⟨_, _, heq, -⟩ := amplitude_eq (ρ := ℝ) ⟨s, bench⟩ hserves digits
    rw [Attempt.outcome_of_eq heq, Network.amplitudeAnswer, hw.qubits, hindex, hcontracted]
    exact congrArg Except.ok ((getD_bitsVector hlt).trans (if_congr hsame rfl rfl))
  · have hdesk : (⟨s, bench⟩ : Desk ℂ σ).state.Serves w.draft.network w.draft.store
        bench.scratch.capacity := hserves
    obtain ⟨cache, memory, hcurrent, hkept⟩ := currentVector_eq (ρ := ℝ) hdesk
    obtain ⟨h, last, hdrawn, hcounts⟩ := samplesOf_bitsVector hnext hw.bits hshots source
    refine ⟨h, ?_, hcounts⟩
    rw [hcontracted] at hcurrent
    rw [Attempt.outcome_of_eq (sample_of_current next hshots source hcurrent), hkept.qubits,
      hw.qubits, hdrawn]

end NetworkState

/-- Three qubits: the first one is negated, a refused call is skipped, the first controls the last,
and the last is exchanged with the second. -/
theorem NetworkState.reversible_computes_three_qubits :
    let bench : Bench ℂ Unit := ⟨.ofBytes 256, ()⟩
    let calls : List Reversible := [.x 0, .cnot 1 1, .toffoli 0 5 2, .cnot 0 2, .swap 2 1]
    let w := Reversible.run ⟨⟨.empty 0 3, .empty⟩, List.replicate 3 false⟩ calls
    let s : NetworkState ℂ := ofNetwork w.draft.network {}
    1 ≤ 3 ∧ 32 * 2 ^ 3 ≤ bench.scratch.capacity ∧ w.bits = [true, true, false] ∧
      s.Reached bench.scratch.capacity w.draft.store ∧ s.network = some w.draft.network ∧
      (amplitude (Dense.backend : Backend ℂ ℝ Unit) w.draft.store [1, 1, 0]).outcome ⟨s, bench⟩ =
        .ok 1 ∧
      (amplitude (Dense.backend : Backend ℂ ℝ Unit) w.draft.store [1, 0, 1]).outcome ⟨s, bench⟩ =
        .ok 0 ∧
      ∃ h,
        (sample (Dense.backend : Backend ℂ ℝ Unit) w.draft.store (fun t : Unit => (1 / 2, t))
          5).outcome (⟨s, bench⟩, ()) = .ok h ∧ h.counts = [("110", 5)] := by
  intro bench calls w s
  have hfit : 32 * 2 ^ 3 ≤ bench.scratch.capacity := by decide
  have hw : Reversible.Computes 3 w := ((Reversible.computes_empty 0 3 .empty).run calls).1
  have hs : s.Reached bench.scratch.capacity w.draft.store := .fresh hw.built {}
  obtain ⟨-, hbits, hanswers⟩ := reversible_computes (by decide) 0 .empty calls hfit
  have hleft : w.bits = [true, true, false] := hbits.trans (by decide)
  obtain ⟨hamplitude, hsample⟩ := hanswers s hs rfl
  have hone := hamplitude [1, 1, 0] rfl (by decide)
  have hzero := hamplitude [1, 0, 1] rfl (by decide)
  have hdrawn := hsample (fun t : Unit => (1 / 2, t)) 5 () (by decide) fun t => by norm_num
  rw [hbits] at hone hzero hdrawn
  exact ⟨by decide, hfit, hleft, hs, rfl, hone, hzero, hdrawn⟩

end GateNetwork
