import Mathlib
import GateNetwork.NetworkState.Sampling

/-!
# Cumulative weights and draws

A cumulative weight is the sum of the squared moduli up to its index. A drawn weight selects an
index if it has not reached the weight there and has reached all weights before, and if every draw
selects the same index, then the histogram holds one string.
-/

namespace GateNetwork

variable {α ρ τ : Type}

/-! ## Histograms of one string -/

/-- The same string recorded again and again makes one entry. -/
theorem Histogram.record_iterate (bits : String) (n : Nat) :
    (fun h : Histogram => h.record bits)^[n + 1] .empty =
      ⟨[(bits, UInt64.ofNat (n + 1))], UInt64.ofNat (n + 1)⟩ := by
  induction n with
  | zero => rfl
  | succ n ih =>
    rw [Function.iterate_succ_apply', ih, record, alter, if_neg (lt_irrefl bits), if_pos rfl,
      UInt64.ofNat_add (n + 1)]
    rfl

namespace Sampling

/-! ## Cumulative weights -/

section

variable [Magnitude α ρ] [AddCommMonoid ρ]

theorem length_cumulativeFrom (total : ρ) (as : List α) :
    (cumulativeFrom total as).length = as.length := by
  induction as generalizing total with
  | nil => rfl
  | cons a as ih => rw [cumulativeFrom, List.length_cons, List.length_cons, ih]

theorem getElem?_cumulativeFrom [Zero α] (total : ρ) {as : List α} {i : Nat} (hi : i < as.length) :
    (cumulativeFrom total as)[i]? =
      some (total + ∑ j ∈ Finset.range (i + 1), normSq (as.getD j 0)) := by
  induction as generalizing total i with
  | nil => simp at hi
  | cons a as ih =>
    cases i with
    | zero => simp [cumulativeFrom]
    | succ i =>
      rw [cumulativeFrom, List.getElem?_cons_succ, ih _ (Nat.lt_of_succ_lt_succ hi),
        Finset.sum_range_succ' _ (i + 1), add_assoc, add_comm (normSq a)]
      rfl

@[simp] theorem size_cumulative (v : Array α) : (cumulative v).size = v.size := by
  rw [cumulative, List.size_toArray, length_cumulativeFrom, Array.length_toList]

/-- A cumulative weight is the sum of the squared moduli up to its index. -/
theorem getElem_cumulative [Zero α] (v : Array α) {i : Nat} (hi : i < (cumulative v).size) :
    (cumulative v)[i] = ∑ j ∈ Finset.range (i + 1), normSq (v.getD j 0) := by
  have hlt : i < v.toList.length := by simpa using hi
  have hlist := getElem?_cumulativeFrom (0 : ρ) hlt
  rw [zero_add, List.getElem?_eq_getElem (by simpa [length_cumulativeFrom] using hlt)] at hlist
  refine (Option.some.inj hlist).trans (Finset.sum_congr rfl fun j _ => ?_)
  simp [List.getD_eq_getElem?_getD]

end

/-! ## Draws -/

variable [LE ρ] [DecidableLE ρ]

/-- The index at which the cumulative weights first exceed the drawn one is selected. -/
theorem select_eq {weights : Array ρ} {drawn : ρ} {k : Nat} (hk : k < weights.size)
    (habove : ¬ weights[k] ≤ drawn)
    (hbelow : ∀ (i : Nat) (hi : i < k), weights[i] ≤ drawn) : select weights drawn = k := by
  have hfirst : weights.findIdx (fun p => !decide (p ≤ drawn)) = k := by
    refine (Array.findIdx_eq hk).2 ⟨by simpa using habove, fun i hi => ?_⟩
    simpa using hbelow i hi
  rw [select, hfirst]
  omega

/-- Draws that all select one index record its string as often as there are shots. -/
theorem draw_of_select_eq [Mul ρ] {next : τ → ρ × τ} {weights : Array ρ} {total : ρ} {k : Nat}
    (hselect : ∀ t, select weights ((next t).1 * total) = k) (qubits shots : Nat) (h : Histogram)
    (source : τ) :
    (draw next qubits weights total shots h source).1 =
      (fun h : Histogram => h.record (basisText qubits k))^[shots] h := by
  induction shots generalizing h source with
  | zero => rfl
  | succ shots ih => rw [draw, ih, hselect, Function.iterate_succ_apply]

end Sampling

end GateNetwork
