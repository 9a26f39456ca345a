/-!
# Wires and index bits

The amplitude at index `i` belongs to the basis state whose qubit `q` is bit `q` of `i`. An operator
on a list of wires reads the bits at its wires as a number of its own, the first wire as the lowest
bit: `collect` reads that number off an index, `spread` writes it back, and `clear` removes the
wires' bits from an index.
-/

namespace GateNetwork

/-- The number whose set bits are the given wires. -/
def mask : List Nat → Nat
  | [] => 0
  | q :: qs => 1 <<< q ||| mask qs

/-- The index whose bit at the `b`-th wire is bit `b` of `k` and whose other bits are zero. -/
def spread : List Nat → Nat → Nat
  | [], _ => 0
  | q :: qs, k => (k % 2) <<< q ||| spread qs (k / 2)

/-- The number whose bit `b` is the bit of `i` at the `b`-th wire. -/
def collect : List Nat → Nat → Nat
  | [], _ => 0
  | q :: qs, i => (i >>> q) % 2 + 2 * collect qs i

/-- The index with the bits at the given wires set to zero. -/
def clear (qs : List Nat) (i : Nat) : Nat := i ^^^ (i &&& mask qs)

/-- Whether the bits of the index at all the given wires are one. -/
def allSet (qs : List Nat) (i : Nat) : Bool := qs.all i.testBit

/-- The first wire of a list that occurs in it, or in `seen`, before. -/
def firstRepeat? : List Nat → List Nat → Option Nat
  | _, [] => none
  | seen, q :: qs => if q ∈ seen then some q else firstRepeat? (q :: seen) qs

@[simp] theorem testBit_mask (qs : List Nat) (p : Nat) :
    (mask qs).testBit p = decide (p ∈ qs) := by
  induction qs with
  | nil => simp [mask]
  | cons q qs ih =>
    rw [mask, Nat.testBit_or, ih, Nat.one_shiftLeft, Nat.testBit_two_pow]
    by_cases h : q = p
    · simp [h]
    · simp [h, Ne.symm h]

@[simp] theorem testBit_clear (qs : List Nat) (i p : Nat) :
    (clear qs i).testBit p = (i.testBit p && decide (p ∉ qs)) := by
  rw [clear, Nat.testBit_xor, Nat.testBit_and, testBit_mask]
  cases i.testBit p <;> by_cases h : p ∈ qs <;> simp [h]

theorem shiftRight_mod_two (i q : Nat) : (i >>> q) % 2 = (i.testBit q).toNat := by
  rw [Nat.toNat_testBit, Nat.shiftRight_eq_div_pow]

theorem shiftRight_mod_two_eq_one_iff {i q : Nat} : (i >>> q) % 2 = 1 ↔ i.testBit q = true := by
  rw [shiftRight_mod_two, Bool.toNat_eq_one]

/-- The bits of a number collected from an index are the index's bits at the wires. -/
theorem testBit_collect (qs : List Nat) (i b : Nat) :
    (collect qs i).testBit b = (qs[b]?.map i.testBit).getD false := by
  induction qs generalizing b with
  | nil => simp [collect]
  | cons q qs ih =>
    cases b with
    | zero =>
      rw [collect, shiftRight_mod_two, Nat.testBit_zero]
      cases h : i.testBit q <;> simp [h]
    | succ b =>
      have hhalf : ((i >>> q) % 2 + 2 * collect qs i) / 2 = collect qs i := by omega
      rw [collect, Nat.testBit_succ, hhalf, ih]
      simp

/-- A bit of a spread number is the bit of the number that belongs to the wire. -/
theorem testBit_spread_of_notMem {qs : List Nat} {p : Nat} (k : Nat) (h : p ∉ qs) :
    (spread qs k).testBit p = false := by
  induction qs generalizing k with
  | nil => simp [spread]
  | cons q qs ih =>
    have hq : p ≠ q := fun e => h (by simp [e])
    have hqs : p ∉ qs := fun e => h (by simp [e])
    rw [spread, Nat.testBit_or, ih _ hqs, Nat.testBit_shiftLeft, Bool.or_false]
    rcases Nat.lt_or_ge p q with hlt | hge
    · simp [Nat.not_le.2 hlt]
    · have hpos : p - q ≠ 0 := by omega
      have hsmall : (k % 2).testBit (p - q) = false :=
        Nat.testBit_lt_two_pow (Nat.lt_of_lt_of_le (Nat.mod_lt _ (by decide))
          (Nat.le_self_pow hpos 2))
      simp [hsmall]

end GateNetwork
