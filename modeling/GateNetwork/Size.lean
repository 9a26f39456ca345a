import GateNetwork.Power

/-!
# Sizes

Registers, buffers and workspaces are counted in 64-bit words. A register of `n` qubits has `2^n`
amplitudes, and beyond 63 qubits that number has no word of its own; sizes derived from it saturate
at the largest word.
-/

namespace GateNetwork

/-- One more than the largest 64-bit word. -/
def wordBound : Nat := twoPow 64

/-- The largest 64-bit word, which also stands for every size too large to be counted. -/
def maxWord : Nat := wordBound - 1

/-- The number of amplitudes of a register of `qubits` qubits, if a word can hold it. -/
def dimension? (qubits : Nat) : Option Nat :=
  if qubits < 64 then some (twoPow qubits) else none

/-- Whether `n` is a power of two. -/
def isPowerOfTwo (n : Nat) : Bool := n != 0 && twoPow n.log2 == n

/-- Bytes that one amplitude takes. -/
def amplitudeBytes : Nat := 16

theorem dimension?_eq_some {qubits d : Nat} :
    dimension? qubits = some d ↔ qubits < 64 ∧ d = twoPow qubits := by
  unfold dimension?
  split
  · rename_i h
    simp [h, eq_comm]
  · rename_i h
    simp [h]

theorem isPowerOfTwo_iff {n : Nat} : isPowerOfTwo n = true ↔ ∃ k, n = twoPow k := by
  constructor
  · intro h
    simp only [isPowerOfTwo, Bool.and_eq_true, bne_iff_ne, beq_iff_eq] at h
    exact ⟨n.log2, h.2.symm⟩
  · rintro ⟨k, rfl⟩
    simp [isPowerOfTwo, twoPow, Nat.log2_two_pow]

end GateNetwork
