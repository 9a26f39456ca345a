import Mathlib
import GateNetwork.Size
import GateNetwork.Wires

/-!
# Index bits at wires

For distinct wires, `collect` and `spread` are inverse to each other on the bits at the wires, and
an index is made of these bits and of what `clear` leaves. The indices that agree with a given one
off the wires are therefore numbered by the values of the wires, which turns a sum over such indices
into a sum over the columns of a matrix on these wires.
-/

namespace GateNetwork

@[simp] theorem twoPow_eq (n : Nat) : twoPow n = 2 ^ n := rfl

/-! ## Indices of a register -/

/-- An index of a register has no bit beyond the register. -/
theorem testBit_of_ge {n i p : Nat} (hi : i < 2 ^ n) (hp : n ≤ p) : i.testBit p = false :=
  Nat.testBit_lt_two_pow (hi.trans_le (Nat.pow_le_pow_right (by decide) hp))

/-- Indices of a register are settled by their bits at the qubits. -/
theorem eq_of_testBit_eq {n i j : Nat} (hi : i < 2 ^ n) (hj : j < 2 ^ n)
    (h : ∀ p < n, i.testBit p = j.testBit p) : i = j := by
  refine Nat.eq_of_testBit_eq fun p => ?_
  rcases Nat.lt_or_ge p n with hp | hp
  · exact h p hp
  · rw [testBit_of_ge hi hp, testBit_of_ge hj hp]

/-! ## Reading and writing the bits -/

theorem collect_lt (qs : List Nat) (i : Nat) : collect qs i < 2 ^ qs.length := by
  refine Nat.lt_pow_two_of_testBit _ fun b hb => ?_
  rw [testBit_collect, List.getElem?_eq_none hb]
  rfl

/-- The bit of a spread number at the `b`-th wire is its bit `b`. -/
theorem testBit_spread_of_getElem? {qs : List Nat} (hqs : qs.Nodup) (k : Nat) {b q : Nat}
    (hb : qs[b]? = some q) : (spread qs k).testBit q = k.testBit b := by
  induction qs generalizing k b with
  | nil => simp at hb
  | cons p qs ih =>
    obtain ⟨hp, hqs⟩ := List.nodup_cons.1 hqs
    rw [spread, Nat.testBit_or, Nat.testBit_shiftLeft]
    cases b with
    | zero =>
      obtain rfl : p = q := by simpa using hb
      simp [testBit_spread_of_notMem _ hp]
    | succ b =>
      have hmem : q ∈ qs := List.mem_of_getElem? (by simpa using hb)
      have hne : q ≠ p := fun e => hp (e ▸ hmem)
      have hlow : (decide (p ≤ q) && (k % 2).testBit (q - p)) = false := by
        rcases Nat.lt_or_ge q p with hlt | hge
        · simp [Nat.not_le.2 hlt]
        · have hpos : q - p ≠ 0 := by omega
          rw [Nat.testBit_lt_two_pow ((Nat.mod_lt k (by decide)).trans_le (Nat.le_self_pow hpos 2)),
            Bool.and_false]
      rw [hlow, Bool.false_or, ih hqs (k / 2) (by simpa using hb), Nat.testBit_succ]

theorem spread_lt {qs : List Nat} {n : Nat} (hn : ∀ q ∈ qs, q < n) (k : Nat) :
    spread qs k < 2 ^ n := by
  refine Nat.lt_pow_two_of_testBit _ fun p hp => ?_
  exact testBit_spread_of_notMem k fun hmem => absurd (hn p hmem) (Nat.not_lt.2 hp)

theorem clear_lt (qs : List Nat) {n i : Nat} (hi : i < 2 ^ n) : clear qs i < 2 ^ n := by
  refine Nat.lt_pow_two_of_testBit _ fun p hp => ?_
  rw [testBit_clear, testBit_of_ge hi hp, Bool.false_and]

theorem clear_or_spread_lt {qs : List Nat} {n i : Nat} (hn : ∀ q ∈ qs, q < n) (hi : i < 2 ^ n)
    (k : Nat) : clear qs i ||| spread qs k < 2 ^ n :=
  Nat.or_lt_two_pow (clear_lt qs hi) (spread_lt hn k)

/-- The index with the bits of `j` at the wires and those of `i` elsewhere. -/
def between (qs : List Nat) (i j : Nat) : Nat := clear qs i ||| spread qs (collect qs j)

theorem testBit_between {qs : List Nat} (hqs : qs.Nodup) (i j p : Nat) :
    (between qs i j).testBit p = if p ∈ qs then j.testBit p else i.testBit p := by
  rw [between, Nat.testBit_or, testBit_clear]
  by_cases hp : p ∈ qs
  · obtain ⟨b, hb⟩ := List.getElem?_of_mem hp
    rw [testBit_spread_of_getElem? hqs _ hb, testBit_collect, hb]
    simp [hp]
  · simp [testBit_spread_of_notMem _ hp, hp]

/-- Writing the bits of an index back where they were read gives the index. -/
theorem clear_or_spread_collect {qs : List Nat} (hqs : qs.Nodup) (i : Nat) :
    clear qs i ||| spread qs (collect qs i) = i := by
  show between qs i i = i
  refine Nat.eq_of_testBit_eq fun p => ?_
  rw [testBit_between hqs, ite_self]

/-- An index is settled by its bits at the wires and off them. -/
theorem eq_of_clear_eq_of_collect_eq {qs : List Nat} (hqs : qs.Nodup) {i j : Nat}
    (hclear : clear qs i = clear qs j) (hcollect : collect qs i = collect qs j) : i = j := by
  rw [← clear_or_spread_collect hqs i, ← clear_or_spread_collect hqs j, hclear, hcollect]

/-- The bits written at the wires are read off again. -/
theorem collect_clear_or_spread {qs : List Nat} (hqs : qs.Nodup) (i : Nat) {k : Nat}
    (hk : k < 2 ^ qs.length) : collect qs (clear qs i ||| spread qs k) = k := by
  refine Nat.eq_of_testBit_eq fun b => ?_
  rw [testBit_collect]
  cases hb : qs[b]? with
  | none =>
    have hlen : qs.length ≤ b := List.getElem?_eq_none_iff.1 hb
    exact (testBit_of_ge hk hlen).symm
  | some q =>
    have hmem : q ∈ qs := List.mem_of_getElem? hb
    simp [testBit_spread_of_getElem? hqs k hb, hmem]

/-- Bits written at the wires are no bits off the wires. -/
theorem clear_clear_or_spread (qs : List Nat) (i k : Nat) :
    clear qs (clear qs i ||| spread qs k) = clear qs i := by
  refine Nat.eq_of_testBit_eq fun p => ?_
  by_cases hp : p ∈ qs
  · simp [hp]
  · simp [hp, testBit_spread_of_notMem k hp]

/-- Two indices agree off the wires when clearing the wires makes them equal. -/
theorem clear_eq_clear_iff {qs : List Nat} {i j : Nat} :
    clear qs i = clear qs j ↔ ∀ p, p ∉ qs → i.testBit p = j.testBit p := by
  constructor
  · intro h p hp
    have hbit := congrArg (·.testBit p) h
    simpa [hp] using hbit
  · intro h
    refine Nat.eq_of_testBit_eq fun p => ?_
    by_cases hp : p ∈ qs
    · simp [hp]
    · simp [hp, h p hp]

/-- An index has all the bits of a mask when it has the bit at each of the wires. -/
theorem and_mask_eq_iff {qs : List Nat} {i : Nat} :
    i &&& mask qs = mask qs ↔ allSet qs i = true := by
  rw [allSet, List.all_eq_true]
  constructor
  · intro h q hq
    have hbit := congrArg (fun w => w.testBit q) h
    simpa [hq] using hbit
  · intro h
    refine Nat.eq_of_testBit_eq fun p => ?_
    rw [Nat.testBit_and, testBit_mask]
    by_cases hp : p ∈ qs
    · simp [hp, h p hp]
    · simp [hp]

/-! ## Sums over the values of the wires -/

/-- A sum over the indices that agree with `i` off the wires is a sum over the values of the wires.
-/
theorem sum_clear_eq {M : Type*} [AddCommMonoid M] {qs : List Nat} (hqs : qs.Nodup) {n i : Nat}
    (hn : ∀ q ∈ qs, q < n) (hi : i < 2 ^ n) (f : Nat → M) :
    ∑ j ∈ Finset.range (2 ^ n) with clear qs i = clear qs j, f j =
      ∑ k ∈ Finset.range (2 ^ qs.length), f (clear qs i ||| spread qs k) := by
  -- An index that agrees with `i` outside `qs` is settled by its bits at `qs`.
  refine Finset.sum_bij' (fun j _ => collect qs j) (fun k _ => clear qs i ||| spread qs k)
    ?_ ?_ ?_ ?_ ?_
  · intro j _
    exact Finset.mem_range.2 (collect_lt qs j)
  · intro k _
    rw [Finset.mem_filter, Finset.mem_range]
    exact ⟨clear_or_spread_lt hn hi k, (clear_clear_or_spread qs i k).symm⟩
  · intro j hj
    rw [(Finset.mem_filter.1 hj).2]
    exact clear_or_spread_collect hqs j
  · intro k hk
    exact collect_clear_or_spread hqs i (Finset.mem_range.1 hk)
  · intro j hj
    rw [(Finset.mem_filter.1 hj).2, clear_or_spread_collect hqs j]

end GateNetwork
