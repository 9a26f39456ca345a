import GateNetwork.Proofs.Basis
import GateNetwork.Proofs.Contractions
import GateNetwork.Proofs.FromVector
import GateNetwork.Proofs.Histograms
import GateNetwork.Proofs.Sampling

/-!
# The distribution of samples

The sums of squared moduli below each index cut the numbers from zero to the squared norm into
intervals, one for each index and empty where the amplitude is zero. A drawn number lies in exactly
one of them, and that index is selected; a search that halves the range finds it too. What a sample
counts for a basis state is therefore the number of its draws that lie in the interval of the state.
-/

namespace GateNetwork

variable {ρ σ τ : Type}

namespace Sampling

/-! ## Intervals -/

section

/-- The squared moduli of the amplitudes below an index, added up. -/
noncomputable def weightBelow (v : Array ℂ) (i : Nat) : ℝ :=
  ∑ j ∈ Finset.range i, normSq (v.getD j 0)

variable {v : Array ℂ} {d : ℝ} {i : Nat}

theorem weightBelow_succ (v : Array ℂ) (i : Nat) :
    weightBelow v (i + 1) = weightBelow v i + normSq (v.getD i 0) :=
  Finset.sum_range_succ _ i

theorem weightBelow_mono (v : Array ℂ) : Monotone (weightBelow v) := by
  refine monotone_nat_of_le_succ fun i => ?_
  rw [weightBelow_succ]
  exact le_add_of_nonneg_right (Complex.normSq_nonneg _)

theorem weightBelow_nonneg (v : Array ℂ) (i : Nat) : 0 ≤ weightBelow v i :=
  Finset.sum_nonneg fun _ _ => Complex.normSq_nonneg _

theorem getElem_cumulative_eq (v : Array ℂ) {i : Nat} (hi : i < (cumulative v).size) :
    (cumulative v)[i] = weightBelow v (i + 1) :=
  getElem_cumulative v hi

/-- The last cumulative weight is the squared norm, also of a vector without amplitudes. -/
theorem back_cumulative (v : Array ℂ) :
    (cumulative v).back?.getD 0 = weightBelow v v.size := by
  rw [Array.back?]
  rcases Nat.eq_zero_or_pos v.size with hv | hv
  · have hnone : (cumulative v)[(cumulative v).size - 1]? = none :=
      Array.getElem?_eq_none (by rw [size_cumulative]; omega)
    rw [hnone, hv, weightBelow, Finset.sum_range_zero]
    rfl
  · have hlast : (cumulative v).size - 1 < (cumulative v).size := by
      rw [size_cumulative]
      omega
    have hsize : (cumulative v).size - 1 + 1 = v.size := by
      rw [size_cumulative]
      omega
    rw [Array.getElem?_eq_getElem hlast, Option.getD_some, getElem_cumulative_eq, hsize]

/-- The number lies in the interval of the index. -/
def Falls (v : Array ℂ) (d : ℝ) (i : Nat) : Prop := weightBelow v i ≤ d ∧ d < weightBelow v (i + 1)

noncomputable instance : Decidable (Falls v d i) := inferInstanceAs (Decidable (_ ∧ _))

/-- A number from zero up to the squared norm lies in some interval. -/
theorem exists_falls (hlow : 0 ≤ d) (hhigh : d < weightBelow v v.size) :
    ∃ i < v.size, Falls v d i := by
  classical
  have hex : ∃ m, d < weightBelow v m := ⟨v.size, hhigh⟩
  have hzero : ¬ d < weightBelow v 0 := by
    rw [weightBelow, Finset.sum_range_zero]
    exact not_lt.2 hlow
  obtain ⟨i, hi⟩ : ∃ i, Nat.find hex = i + 1 := by
    refine Nat.exists_eq_add_one.2 (Nat.pos_of_ne_zero fun hfind => hzero ?_)
    exact hfind ▸ Nat.find_spec hex
  have hle : i + 1 ≤ v.size := hi ▸ Nat.find_min' hex hhigh
  refine ⟨i, hle, not_lt.1 (Nat.find_min hex (by omega)), ?_⟩
  exact hi ▸ Nat.find_spec hex

/-- The cumulative weights at or below a number of an interval are those before its index. -/
theorem Falls.cumulative_le_iff (h : Falls v d i) {j : Nat} (hj : j < (cumulative v).size) :
    (cumulative v)[j] ≤ d ↔ j < i := by
  rw [getElem_cumulative_eq]
  constructor
  · intro hle
    by_contra hge
    have hmono : weightBelow v (i + 1) ≤ weightBelow v (j + 1) := weightBelow_mono v (by omega)
    exact absurd h.2 (not_lt.2 (hmono.trans hle))
  · intro hlt
    exact (weightBelow_mono v hlt).trans h.1

theorem Falls.select_eq (h : Falls v d i) (hi : i < v.size) : select (cumulative v) d = i := by
  have hsize : i < (cumulative v).size := by rwa [size_cumulative]
  refine Sampling.select_eq hsize ?_ fun j hj => ?_
  · rw [h.cumulative_le_iff hsize]
    exact lt_irrefl i
  · exact (h.cumulative_le_iff (hj.trans hsize)).2 hj

/-- The interval of an amplitude of zero is empty. -/
theorem Falls.amplitude_ne_zero (h : Falls v d i) : v[i]? ≠ some 0 := by
  intro hzero
  have hvalue : v.getD i 0 = 0 := by rw [Array.getD_eq_getD_getElem?, hzero, Option.getD_some]
  have hsame : weightBelow v (i + 1) = weightBelow v i := by
    rw [weightBelow_succ, hvalue]
    exact (congrArg _ Complex.normSq_zero).trans (add_zero _)
  exact absurd (h.1.trans_lt h.2) (by rw [hsame]; exact lt_irrefl _)

end

/-! ## Searching by halves -/

section

variable [LE ρ] [DecidableLE ρ]

/-- Searches the given number of places from `low` on for the first weight above the drawn one: the
half that cannot hold it is left out, until no place remains. -/
def bisect? (weights : Array ρ) (drawn : ρ) (low size : Nat) : Option Nat :=
  if size = 0 then some low
  else
    let half := size / 2
    match weights[low + half]? with
    | none => none
    | some w =>
      if w ≤ drawn then bisect? weights drawn (low + half + 1) (size - half - 1)
      else bisect? weights drawn low half
termination_by size
decreasing_by all_goals omega

/-- The search stays within the weights and finds the place where the weights exceed the drawn one
from then on. -/
theorem bisect?_eq {weights : Array ρ} {drawn : ρ} {k low size : Nat}
    (hweights : ∀ (j : Nat) (hj : j < weights.size), weights[j] ≤ drawn ↔ j < k)
    (hsize : low + size ≤ weights.size) (hlow : low ≤ k) (hhigh : k ≤ low + size) :
    bisect? weights drawn low size = some k := by
  induction size using Nat.strongRecOn generalizing low with
  | ind size ih =>
    rw [bisect?]
    split
    · exact congrArg some (by omega)
    · rename_i hne
      have hmid : low + size / 2 < weights.size := by omega
      dsimp only
      rw [Array.getElem?_eq_getElem hmid]
      dsimp only
      have hhalf := hweights (low + size / 2) hmid
      split
      · rename_i hle
        have hbefore : low + size / 2 < k := hhalf.1 hle
        exact ih _ (by omega) (by omega) (by omega) (by omega)
      · rename_i hgt
        have hnot : ¬ low + size / 2 < k := fun hlt => hgt (hhalf.2 hlt)
        exact ih _ (by omega) (by omega) hlow (by omega)

end

/-! ## Runs -/

/-- The number that a stream gives at its `k`-th draw. -/
def number (next : τ → ρ × τ) (source : τ) (k : Nat) : ρ :=
  (next ((fun t => (next t).2)^[k] source)).1

/-- A run draws one number for each shot and records the texts of the selected indices. -/
theorem draw_eq [LE ρ] [DecidableLE ρ] [Mul ρ] (next : τ → ρ × τ) (qubits : Nat)
    (weights : Array ρ) (total : ρ) (shots : Nat) (h : Histogram) (source : τ) :
    draw next qubits weights total shots h source =
      (((List.range shots).map fun k => basisText qubits
        (select weights (number next source k * total))).foldl Histogram.record h,
        (fun t => (next t).2)^[shots] source) := by
  induction shots generalizing h source with
  | zero => rfl
  | succ shots ih =>
    let index := select weights ((next source).1 * total)
    show draw next qubits weights total shots (h.record (basisText qubits index)) _ = _
    rw [ih, List.range_succ_eq_map, List.map_cons, List.foldl_cons, List.map_map,
      Function.iterate_succ_apply]
    rfl

/-! ## Counts of a run -/

/-- The histogram counts, for each basis state, the drawn numbers in the interval of the state, and
counts nothing else. -/
structure CountsIntervals (h : Histogram) (v : Array ℂ) (n shots : Nat) (drawn : Nat → ℝ) :
    Prop where
  inside : ∀ i < 2 ^ n, (h.count (basisText n i)).toNat =
    {k ∈ Finset.range shots | weightBelow v i ≤ drawn k ∧ drawn k < weightBelow v (i + 1)}.card
  outside : ∀ s, (∀ i < 2 ^ n, s ≠ basisText n i) → h.count s = 0
  impossible : ∀ i < 2 ^ n, v[i]? = some 0 → h.count (basisText n i) = 0
  sum : (h.counts.map fun e => e.2.toNat).sum = shots
  shots : h.shots.toNat = shots

/-- One index is found for the number, by looking at the weights in order and by halves, and it is
selected as it is. -/
structure Finds (v : Array ℂ) (d : ℝ) (i : Nat) : Prop where
  lt : i < v.size
  inOrder : (cumulative v).findIdx (fun p => !decide (p ≤ d)) = i
  byHalves : bisect? (cumulative v) d 0 v.size = some i
  selected : select (cumulative v) d = i

section

variable {v : Array ℂ} {next : τ → ℝ × τ} {source : τ} {n shots : Nat}

/-- The texts that a run records. -/
noncomputable def outcomes (v : Array ℂ) (next : τ → ℝ × τ) (n shots : Nat) (source : τ) :
    List String :=
  (List.range shots).map fun k =>
    basisText n (select (cumulative v) (number next source k * weightBelow v v.size))

theorem exists_falls_number (hnext : ∀ k, 0 ≤ number next source k ∧ number next source k < 1)
    (hpos : 0 < weightBelow v v.size) (k : Nat) :
    ∃ i < v.size, Falls v (number next source k * weightBelow v v.size) i :=
  exists_falls (mul_nonneg (hnext k).1 hpos.le) (mul_lt_of_lt_one_left hpos (hnext k).2)

theorem count_outcomes (hnext : ∀ k, 0 ≤ number next source k ∧ number next source k < 1)
    (hpos : 0 < weightBelow v v.size) (hv : v.size = 2 ^ n) {i : Nat} (hi : i < 2 ^ n) :
    (outcomes v next n shots source).count (basisText n i) =
      {k ∈ Finset.range shots | Falls v (number next source k * weightBelow v v.size) i}.card := by
  have hsame (k : Nat) : (basisText n (select (cumulative v)
      (number next source k * weightBelow v v.size)) == basisText n i) =
        decide (Falls v (number next source k * weightBelow v v.size) i) := by
    obtain ⟨j, hj, hfalls⟩ := exists_falls_number hnext hpos k
    rw [hfalls.select_eq hj, Bool.beq_eq_decide_eq, decide_eq_decide]
    constructor
    · intro htext
      exact eq_of_basisText_eq (hv ▸ hj) hi htext ▸ hfalls
    · intro hother
      rw [← hfalls.select_eq hj, hother.select_eq (hv ▸ hi)]
  rw [outcomes, List.count, List.countP_map, List.countP_eq_length_filter]
  have hfilter : (List.range shots).filter ((fun s => s == basisText n i) ∘ fun k => basisText n
      (select (cumulative v) (number next source k * weightBelow v v.size))) =
        (List.range shots).filter fun k =>
          decide (Falls v (number next source k * weightBelow v v.size) i) :=
    List.filter_congr fun k _ => hsame k
  rw [hfilter]
  rfl

theorem exists_of_mem_outcomes (hnext : ∀ k, 0 ≤ number next source k ∧ number next source k < 1)
    (hpos : 0 < weightBelow v v.size) {s : String} (hs : s ∈ outcomes v next n shots source) :
    ∃ i < v.size, v[i]? ≠ some 0 ∧ s = basisText n i := by
  obtain ⟨k, -, rfl⟩ := List.mem_map.1 hs
  obtain ⟨i, hi, hfalls⟩ := exists_falls_number hnext hpos k
  exact ⟨i, hi, hfalls.amplitude_ne_zero, by rw [hfalls.select_eq hi]⟩

theorem countsIntervals_outcomes
    (hnext : ∀ k, 0 ≤ number next source k ∧ number next source k < 1)
    (hpos : 0 < weightBelow v v.size) (hv : v.size = 2 ^ n) (hshots : shots < 2 ^ 64) :
    CountsIntervals (.recordAll (outcomes v next n shots source)) v n shots fun k =>
      number next source k * weightBelow v v.size := by
  let xs : List String := outcomes v next n shots source
  have hlength : xs.length = shots := by simp [xs, outcomes]
  have htallies := Histogram.tallies_recordAll xs
  have hnone {s : String} (hs : s ∉ xs) : (Histogram.recordAll xs).count s = 0 := by
    rw [htallies.count_eq, List.count_eq_zero_of_not_mem hs]
    rfl
  refine ⟨fun i hi => ?_, fun s hs => ?_, fun i hi hzero => ?_, ?_, ?_⟩
  · have hcount : ((Histogram.recordAll xs).count (basisText n i)).toNat =
        xs.count (basisText n i) := by
      rw [htallies.count_eq]
      exact Nat.mod_eq_of_lt (List.count_le_length.trans_lt (hlength ▸ hshots))
    exact hcount.trans (count_outcomes hnext hpos hv hi)
  · refine hnone fun hmem => ?_
    obtain ⟨i, hi, -, htext⟩ := exists_of_mem_outcomes hnext hpos hmem
    exact hs i (hv ▸ hi) htext
  · refine hnone fun hmem => ?_
    obtain ⟨j, hj, hne, htext⟩ := exists_of_mem_outcomes hnext hpos hmem
    exact hne (eq_of_basisText_eq hi (hv ▸ hj) htext ▸ hzero)
  · exact (htallies.sum_counts (hlength ▸ hshots)).trans hlength
  · rw [htallies.shots, hlength]
    exact Nat.mod_eq_of_lt hshots

end

theorem Falls.finds {v : Array ℂ} {d : ℝ} {i : Nat} (h : Falls v d i) (hi : i < v.size) :
    Finds v d i := by
  have hsize : (cumulative v).size = v.size := size_cumulative v
  have hi' : i < (cumulative v).size := hsize ▸ hi
  refine ⟨hi, (Array.findIdx_eq hi').2 ⟨?_, fun j hj => ?_⟩, ?_, h.select_eq hi⟩
  · simp [h.cumulative_le_iff hi']
  · simp [h.cumulative_le_iff (hj.trans hi'), hj]
  · exact bisect?_eq (fun j hj => h.cumulative_le_iff hj) (by omega) (Nat.zero_le i) (by omega)

end Sampling

namespace NetworkState

variable {b : Backend ℂ ℝ σ} {store : Store ℂ} {desk : Desk ℂ σ} {v : Array ℂ}

theorem qubits_final_currentVector (b : Backend ℂ ℝ σ) (store : Store ℂ) (desk : Desk ℂ σ) :
    ((currentVector b store).final desk).state.qubits = desk.state.qubits := by
  cases hnet : desk.state.network with
  | none =>
    have hgot : desk.state.getNetwork = .error .released := by rw [getNetwork, hnet]
    rw [currentVector, Attempt.final, Attempt.bind_ok (Attempt.get_apply desk), hgot,
      Attempt.bind_error (Attempt.ofExcept_error _ desk)]
  | some net =>
    cases hready : desk.state.readyVector? with
    | none =>
      rw [Attempt.final_of_eq (currentVector_of_absent b store hnet hready)]
      exact qubits_keeping desk.state net.version _
    | some v => rw [Attempt.final_of_eq (currentVector_of_ready b store hnet hready)]

open Sampling

/-- Samples are drawn from a vector unless its squared norm is zero. -/
theorem samplesOf_eq (next : τ → ℝ × τ) (n shots : Nat) (source : τ) (v : Array ℂ) :
    samplesOf next n shots source (.ok v) =
      if weightBelow v v.size = 0 then (.error (.invalid .zeroNorm), source)
      else (.ok (.recordAll (outcomes v next n shots source)),
        (fun t => (next t).2)^[shots] source) := by
  have hzero : weightBelow v v.size ≤ 0 ↔ weightBelow v v.size = 0 :=
    (weightBelow_nonneg v v.size).ge_iff_eq'
  unfold samplesOf
  dsimp only
  simp only [back_cumulative, hzero, draw_eq]
  rfl

theorem sample_eq (hcurrent : (currentVector b store).outcome desk = .ok v)
    (next : τ → ℝ × τ) {shots : Nat} (hshots : 0 < shots) (source : τ) :
    let drawn := samplesOf next desk.state.qubits shots source (.ok v)
    sample b store next shots (desk, source) =
      Attempt.ofExcept drawn.1 ((currentVector b store).final desk, drawn.2) := by
  have hvector := (currentVector b store).eq_ofExcept desk
  have hsample := sample_of_current next hshots source hvector
  rwa [hcurrent, qubits_final_currentVector] at hsample

/-- Sampling inverts the cumulative distribution. Without shots, or from a vector of norm zero, it
is refused before any number is drawn. Otherwise it draws one number for each shot and counts, for
each basis state, the numbers that lie in the interval of the state once they are scaled to the
squared norm. The search by halves finds the same indices, and the last one never stands in for one
that was not found. -/
theorem sample_counts_intervals (hcurrent : (currentVector b store).outcome desk = .ok v)
    (hv : v.size = 2 ^ desk.state.qubits) {next : τ → ℝ × τ} {source : τ}
    (hnext : ∀ k, 0 ≤ number next source k ∧ number next source k < 1) {shots : Nat}
    (hshots : shots < 2 ^ 64) :
    let n := desk.state.qubits
    let total := weightBelow v (2 ^ n)
    let drawn (k : Nat) := number next source k * total
    ((∃ c, (sample b store next shots).outcome (desk, source) = .error (.invalid c)) ↔
      shots = 0 ∨ total = 0) ∧
    (shots = 0 ∨ total = 0 → ∃ c last, ∀ {υ : Type} (other : υ → ℝ × υ) (start : υ),
      sample b store other shots (desk, start) = .error (.invalid c) (last, start)) ∧
    (¬ (shots = 0 ∨ total = 0) → (∃ h last, sample b store next shots (desk, source) =
        .ok h (last, (fun t => (next t).2)^[shots] source) ∧ CountsIntervals h v n shots drawn) ∧
      ∀ k < shots, ∃ i, Finds v (drawn k) i) := by
  intro n total drawn
  have htotal : total = weightBelow v v.size := by rw [hv]
  have hrefused (hbad : shots = 0 ∨ total = 0) :
      ∃ c last, ∀ {υ : Type} (other : υ → ℝ × υ) (start : υ),
        sample b store other shots (desk, start) = .error (.invalid c) (last, start) := by
    rcases Nat.eq_zero_or_pos shots with rfl | hpos
    · exact ⟨.noShots, desk, fun _ _ => rfl⟩
    · refine ⟨.zeroNorm, (currentVector b store).final desk, fun other start => ?_⟩
      have hzero : weightBelow v v.size = 0 := htotal ▸ hbad.resolve_left hpos.ne'
      rw [sample_eq hcurrent other hpos, samplesOf_eq, if_pos hzero]
      rfl
  have hanswered (hgood : ¬ (shots = 0 ∨ total = 0)) :
      sample b store next shots (desk, source) = .ok (.recordAll (outcomes v next n shots source))
        ((currentVector b store).final desk, (fun t => (next t).2)^[shots] source) := by
    obtain ⟨hsome, hne⟩ := not_or.1 hgood
    rw [sample_eq hcurrent next (Nat.pos_of_ne_zero hsome), samplesOf_eq, if_neg (htotal ▸ hne)]
    rfl
  refine ⟨⟨fun ⟨c, herror⟩ => ?_, fun hbad => ?_⟩, hrefused, fun hgood => ?_⟩
  · by_contra hgood
    rw [Attempt.outcome, hanswered hgood] at herror
    cases herror
  · obtain ⟨c, last, herror⟩ := hrefused hbad
    exact ⟨c, by rw [Attempt.outcome, herror next source]⟩
  · have hpos : 0 < weightBelow v v.size :=
      lt_of_le_of_ne (weightBelow_nonneg v _) (Ne.symm (htotal ▸ (not_or.1 hgood).2))
    simp only [drawn, htotal]
    refine ⟨⟨_, _, hanswered hgood, countsIntervals_outcomes hnext hpos hv hshots⟩, fun k _ => ?_⟩
    obtain ⟨i, hi, hfalls⟩ := exists_falls_number hnext hpos k
    exact ⟨i, hfalls.finds hi⟩

/-- Two qubits with the first one zero: every draw lies where the interval of the last index begins,
after the empty one of an impossible index. The source counts the numbers that it has given. -/
theorem sample_counts_loaded :
    let v : Array ℂ := #[1, 0, Complex.I, 0]
    let bench : Bench ℂ Unit := ⟨.ofBytes 128, ()⟩
    let next : Nat → ℝ × Nat := fun given => (1 / 2, given + 1)
    ∃ net store, Network.ofVector .empty 0 v = .ok (net, store) ∧
      let desk : Desk ℂ Unit := ⟨ofNetwork net {}, bench⟩
      (currentVector (Dense.backend : Backend ℂ ℝ Unit) store).outcome desk = .ok v ∧
      v.size = 2 ^ desk.state.qubits ∧
      (∀ k, 0 ≤ number next 0 k ∧ number next 0 k < 1) ∧
      ∃ h last, sample (Dense.backend : Backend ℂ ℝ Unit) store next 3 (desk, 0) =
          .ok h (last, 3) ∧
        (h.count "01").toNat = 3 ∧ h.count "10" = 0 := by
  intro v bench next
  obtain ⟨net, store, hmake, harena, hholds, -⟩ :=
    Network.ofVector_eq (.empty : Store ℂ) 0 (v := v) (n := 2) rfl (by decide) (by decide)
  let desk : Desk ℂ Unit := ⟨ofNetwork net {}, bench⟩
  have hqubits : desk.state.qubits = 2 := hholds.qubits
  have hcurrent : (currentVector (Dense.backend : Backend ℂ ℝ Unit) store).outcome desk = .ok v := by
    have hserves : desk.state.Serves net store desk.bench.scratch.capacity :=
      .fresh hholds.built {}
    obtain ⟨cache, memory, heq, -⟩ := currentVector_eq (ρ := ℝ) hserves
    rw [Attempt.outcome_of_eq heq]
    exact hholds.contracted_eq rfl (by decide : 32 * 2 ^ 2 ≤ bench.scratch.capacity)
  have hv : v.size = 2 ^ desk.state.qubits := by
    rw [hqubits]
    rfl
  have hnumber (k : Nat) : number next 0 k = 1 / 2 := rfl
  have hnext : ∀ k, 0 ≤ number next 0 k ∧ number next 0 k < 1 := by
    intro k
    rw [hnumber]
    norm_num
  refine ⟨net, store, hmake, hcurrent, hv, hnext, ?_⟩
  have hbelow : weightBelow v 2 = 1 ∧ weightBelow v 3 = 2 ∧ weightBelow v 4 = 2 := by
    refine ⟨?_, ?_, ?_⟩ <;> simp [weightBelow, Finset.sum_range_succ, v, normSq] <;> norm_num
  obtain ⟨-, -, hgood⟩ :=
    sample_counts_intervals (b := Dense.backend) hcurrent hv hnext (by decide : 3 < 2 ^ 64)
  have htotal : weightBelow v (2 ^ 2) = 2 := hbelow.2.2
  simp only [hqubits, hnumber, htotal] at hgood
  obtain ⟨⟨h, last, hsample, hcounts⟩, -⟩ := hgood (by norm_num)
  have htext : basisText 2 2 = "01" ∧ basisText 2 1 = "10" := by decide
  refine ⟨h, last, hsample, ?_, ?_⟩
  · rw [← htext.1, hcounts.inside 2 (by decide)]
    simp [hbelow]
  · rw [← htext.2]
    exact hcounts.impossible 1 (by decide) rfl

end NetworkState

end GateNetwork
