import GateNetwork.Proofs.DenseErrors
import GateNetwork.Proofs.OperatorMatrix

/-!
# Slices of a vector

A query picks indices of a register: its pins settle some bits, and the number of an amplitude
settles the others, lowest free mode first. Pins and numbers together reach every index once. An
access answers with the entries of the vector of the network at the picked indices, one for each
number, and neither the order of the pins nor what they are pinned to changes the squared norm that
comes with them.
-/

namespace GateNetwork

variable {α ρ σ : Type}

namespace Query

/-! ## Indices that a query picks -/

/-- The modes that are not pinned, in ascending order. -/
def free (q : Query) (n : Nat) : List Nat := (List.range n).filter fun p => decide (p ∉ q.modes)

/-- The index has the pinned bits, and bit `t` of `f` at the `t`-th free mode. -/
structure Selects (q : Query) (n f i : Nat) : Prop where
  pinned : ∀ pin ∈ q.modes.zip q.values, i.testBit pin.1 = decide (pin.2 = 1)
  free : ∀ t p, (q.free n)[t]? = some p → i.testBit p = f.testBit t

/-- The index that a query picks for the amplitude of number `f`. -/
def index (q : Query) (n f : Nat) : Nat := spread q.modes (indexOf q.values) ||| spread (q.free n) f

variable {q r : Query} {n f i : Nat}

theorem mem_free {p : Nat} : p ∈ q.free n ↔ p < n ∧ p ∉ q.modes := by
  rw [free, List.mem_filter, List.mem_range, decide_eq_true_eq]

theorem nodup_free (q : Query) (n : Nat) : (q.free n).Nodup := List.nodup_range.filter _

theorem length_free (hq : q.Valid n) : (q.free n).length = n - q.modes.length := by
  rw [free, ← Dense.freeModes_mask, Dense.length_freeModes hq.modes hq.nodup]

/-- The pinned bits are at the pinned modes. -/
theorem testBit_spread_values (hq : q.Valid n) {pin : Nat × Nat}
    (hpin : pin ∈ q.modes.zip q.values) :
    (spread q.modes (indexOf q.values)).testBit pin.1 = decide (pin.2 = 1) := by
  obtain ⟨b, hb⟩ := List.getElem?_of_mem hpin
  obtain ⟨hmode, hvalue⟩ := List.getElem?_zip_eq_some.1 hb
  rw [testBit_spread_of_getElem? hq.nodup _ hmode, testBit_indexOf hq.values, hvalue]
  simp

theorem exists_pin (hq : q.Valid n) {p : Nat} (hp : p ∈ q.modes) :
    ∃ value, (p, value) ∈ q.modes.zip q.values := by
  obtain ⟨b, hb⟩ := List.getElem?_of_mem hp
  have hlt : b < q.values.length := hq.lists ▸ (List.getElem?_eq_some_iff.1 hb).1
  refine ⟨q.values[b], List.mem_of_getElem? (i := b) ?_⟩
  exact List.getElem?_zip_eq_some.2 ⟨hb, List.getElem?_eq_getElem hlt⟩

theorem index_lt (hq : q.Valid n) (f : Nat) : q.index n f < 2 ^ n :=
  Nat.or_lt_two_pow (spread_lt hq.modes _) (spread_lt (fun _ hp => (mem_free.1 hp).1) f)

theorem testBit_index_of_pin (hq : q.Valid n) (f : Nat) {pin : Nat × Nat}
    (hpin : pin ∈ q.modes.zip q.values) : (q.index n f).testBit pin.1 = decide (pin.2 = 1) := by
  have hfree : pin.1 ∉ q.free n := fun hmem => (mem_free.1 hmem).2 (List.of_mem_zip hpin).1
  rw [index, Nat.testBit_or, testBit_spread_values hq hpin, testBit_spread_of_notMem _ hfree,
    Bool.or_false]

theorem testBit_index_of_free (f : Nat) {t p : Nat} (ht : (q.free n)[t]? = some p) :
    (q.index n f).testBit p = f.testBit t := by
  have hmode : p ∉ q.modes := (mem_free.1 (List.mem_of_getElem? ht)).2
  rw [index, Nat.testBit_or, testBit_spread_of_notMem _ hmode, Bool.false_or,
    testBit_spread_of_getElem? (q.nodup_free n) f ht]

/-- Pins and number settle an index of the register. -/
theorem selects_iff (hq : q.Valid n) (hi : i < 2 ^ n) : q.Selects n f i ↔ i = q.index n f := by
  constructor
  · intro h
    -- Each bit of the register is pinned or free.
    refine eq_of_testBit_eq hi (index_lt hq f) fun p hlt => ?_
    by_cases hmode : p ∈ q.modes
    · obtain ⟨value, hpin⟩ := exists_pin hq hmode
      rw [h.pinned _ hpin, testBit_index_of_pin hq f hpin]
    · obtain ⟨t, ht⟩ := List.getElem?_of_mem (mem_free.2 ⟨hlt, hmode⟩)
      rw [h.free t p ht, testBit_index_of_free f ht]
  · rintro rfl
    exact ⟨fun pin => testBit_index_of_pin hq f, fun t p => testBit_index_of_free f⟩

/-! ## Assignments that pick an index -/

/-- The bits that an index has at the modes. -/
def valuesAt (modes : List Nat) (i : Nat) : List Nat := modes.map fun m => (i.testBit m).toNat

theorem selects_collect (hvalues : q.values = valuesAt q.modes i) :
    q.Selects n (collect (q.free n) i) i := by
  refine ⟨fun pin hpin => ?_, fun t p ht => ?_⟩
  · obtain ⟨b, hb⟩ := List.getElem?_of_mem hpin
    obtain ⟨hmode, hvalue⟩ := List.getElem?_zip_eq_some.1 hb
    rw [hvalues, valuesAt, List.getElem?_map, hmode, Option.map_some, Option.some.injEq] at hvalue
    rw [← hvalue]
    cases i.testBit pin.1 <;> rfl
  · rw [testBit_collect, ht]
    rfl

theorem Selects.values_eq (h : q.Selects n f i) (hlists : q.modes.length = q.values.length)
    (hvalues : ∀ v ∈ q.values, v ≤ 1) : q.values = valuesAt q.modes i := by
  refine List.ext_getElem (by rw [valuesAt, List.length_map, hlists]) fun b hb _ => ?_
  have hmode : b < q.modes.length := hlists ▸ hb
  have hpin : (q.modes[b], q.values[b]) ∈ q.modes.zip q.values := by
    refine List.mem_of_getElem? (i := b) (List.getElem?_zip_eq_some.2 ⟨?_, ?_⟩)
    · exact List.getElem?_eq_getElem hmode
    · exact List.getElem?_eq_getElem hb
  have hbit := h.pinned _ hpin
  have hle : q.values[b] ≤ 1 := hvalues _ (List.getElem_mem hb)
  simp only [valuesAt, List.getElem_map, hbit]
  generalize q.values[b] = d at hle
  interval_cases d <;> rfl

theorem Selects.number_eq (h : q.Selects n f i) (hf : f < 2 ^ (q.free n).length) :
    f = collect (q.free n) i := by
  refine Nat.eq_of_testBit_eq fun t => ?_
  rw [testBit_collect]
  cases ht : (q.free n)[t]? with
  | none =>
    have hle : (q.free n).length ≤ t := List.getElem?_eq_none_iff.1 ht
    exact testBit_of_ge hf hle
  | some p => exact (h.free t p ht).symm

/-- Each index is picked by one assignment of the modes and one number. -/
theorem existsUnique_selects {modes : List Nat} (hmodes : ∀ m ∈ modes, m < n)
    (hnodup : modes.Nodup) (hyperSamples i : Nat) :
    ∃! e : List Nat × Nat, e.1.length = modes.length ∧ (∀ d ∈ e.1, d ≤ 1) ∧
      e.2 < 2 ^ (n - modes.length) ∧ (⟨modes, e.1, hyperSamples⟩ : Query).Selects n e.2 i := by
  let q : Query := ⟨modes, valuesAt modes i, hyperSamples⟩
  have hlists : modes.length = (valuesAt modes i).length := by rw [valuesAt, List.length_map]
  have hbits : ∀ d ∈ valuesAt modes i, d ≤ 1 := by
    intro d hd
    obtain ⟨m, -, rfl⟩ := List.mem_map.1 hd
    exact Bool.toNat_le _
  have hlength : (q.free n).length = n - modes.length :=
    length_free ⟨hlists, hmodes, hbits, hnodup⟩
  refine ⟨(valuesAt modes i, collect (q.free n) i), ⟨hlists.symm, hbits, ?_, ?_⟩, ?_⟩
  · rw [← hlength]
    exact collect_lt _ i
  · exact selects_collect rfl
  · rintro ⟨values, f⟩ ⟨hlen, hvalues, hf, hselects⟩
    refine Prod.ext (hselects.values_eq hlen.symm hvalues) (hselects.number_eq ?_)
    -- The free modes do not depend on the values.
    exact hlength ▸ hf

/-! ## Pins in another order -/

section

variable (hq : q.Valid n) (hlists : r.modes.length = r.values.length)
  (hperm : (r.modes.zip r.values).Perm (q.modes.zip q.values))

include hq hlists hperm

theorem modes_perm : r.modes.Perm q.modes := by
  rw [← List.map_fst_zip hlists.le, ← List.map_fst_zip hq.lists.le]
  exact hperm.map Prod.fst

/-- Pins in another order are as valid. -/
theorem Valid.perm : r.Valid n := by
  have hmodes : r.modes.Perm q.modes := modes_perm hq hlists hperm
  have hvalues : r.values.Perm q.values := by
    rw [← List.map_snd_zip hlists.ge, ← List.map_snd_zip hq.lists.ge]
    exact hperm.map Prod.snd
  exact ⟨hlists, fun m hm => hq.modes m (hmodes.subset hm),
    fun v hv => hq.values v (hvalues.subset hv), hmodes.nodup_iff.2 hq.nodup⟩

theorem free_perm : r.free n = q.free n := by
  have hmodes : r.modes.Perm q.modes := modes_perm hq hlists hperm
  refine List.filter_congr fun p _ => ?_
  rw [decide_eq_decide, hmodes.mem_iff]

/-- Pins in another order pick the same indices. -/
theorem index_perm (f : Nat) : r.index n f = q.index n f := by
  have hr : r.Valid n := hq.perm hlists hperm
  have hfree : r.free n = q.free n := free_perm hq hlists hperm
  have hselects : r.Selects n f (r.index n f) := (selects_iff hr (index_lt hr f)).2 rfl
  refine (selects_iff hq (index_lt hr f)).1 ⟨fun pin hpin => ?_, fun t p ht => ?_⟩
  · exact hselects.pinned pin (hperm.mem_iff.2 hpin)
  · exact hselects.free t p (hfree ▸ ht)

end

end Query

/-! ## Answers -/

/-- The amplitudes are the entries of the vector that the query picks, one for each number, and the
squared norm is that of the whole vector. -/
structure Slice.Cuts [Magnitude α ρ] [Zero ρ] [Add ρ] (slice : Slice α ρ) (q : Query) (n : Nat)
    (v : Array α) : Prop where
  size : slice.amplitudes.size = 2 ^ (n - q.modes.length)
  amplitude : ∀ f < 2 ^ (n - q.modes.length), ∃ i < 2 ^ n, (∀ j < 2 ^ n, q.Selects n f j ↔ j = i) ∧
    ∃ x, slice.amplitudes[f]? = some x ∧ v[i]? = some x
  normSq : slice.normSq = normSqByHalves v

/-- The slice of a vector that a query picks. -/
def Query.cut [Zero α] [Magnitude α ρ] [Zero ρ] [Add ρ] (q : Query) (n : Nat) (v : Array α) :
    Slice α ρ :=
  ⟨Array.ofFn fun f : Fin (2 ^ (q.free n).length) => v.getD (q.index n f) 0, normSqByHalves v⟩

theorem Query.cuts_cut [Zero α] [Magnitude α ρ] [Zero ρ] [Add ρ] {q : Query} {n : Nat}
    (hq : q.Valid n) {v : Array α} (hv : v.size = 2 ^ n) : (q.cut n v : Slice α ρ).Cuts q n v := by
  have hlength : (q.free n).length = n - q.modes.length := length_free hq
  refine ⟨?_, fun f hf => ?_, rfl⟩
  · rw [cut, Array.size_ofFn, hlength]
  · have hlt : q.index n f < 2 ^ n := index_lt hq f
    refine ⟨q.index n f, hlt, fun j hj => selects_iff hq hj, v.getD (q.index n f) 0, ?_, ?_⟩
    · rw [cut, Array.getElem?_ofFn, dif_pos (hlength ▸ hf)]
    · exact getElem?_eq_some_getD (hv ▸ hlt)

theorem Query.cut_perm [Zero α] [Magnitude α ρ] [Zero ρ] [Add ρ] {q r : Query} {n : Nat}
    (hq : q.Valid n) (hlists : r.modes.length = r.values.length)
    (hperm : (r.modes.zip r.values).Perm (q.modes.zip q.values)) (v : Array α) :
    (r.cut n v : Slice α ρ) = q.cut n v := by
  have hindex : r.index n = q.index n := funext (index_perm hq hlists hperm)
  rw [cut, cut, free_perm hq hlists hperm, hindex]

namespace Dense

variable [Zero α] [One α] [Add α] [Mul α] [Conj α] [Magnitude α ρ] [Zero ρ] [Add ρ]

/-- An access answers with the entries of the vector at the indices that the query picks. -/
theorem outcome_access_of_valid {a : Arena α} {net : Network} (h : net.Fits a) {q : Query}
    (hq : q.Valid net.qubits) {bench : Bench α σ}
    (hfit : 32 * 2 ^ net.qubits ≤ bench.scratch.capacity) :
    ((backend : Backend α ρ σ).access a net q).outcome bench =
      .ok (q.cut net.qubits (net.vector a)) := by
  have hn : net.qubits < 59 := wide_le_of_pow_le (capacity_lt bench.scratch) hfit
  have hfree : freeModes net.qubits (mask q.modes) = q.free net.qubits := freeModes_mask _ _
  obtain ⟨memory, haccess⟩ := access_eq (ρ := ρ) h bench (q := q) fun _ =>
    ⟨Query.pattern_of_valid (by omega) hq, spread_lt hq.modes _⟩
  rw [Network.contracted_eq_ok_iff.2 ⟨hfit, rfl⟩] at haccess
  refine (Attempt.outcome_of_eq haccess).trans ?_
  show Except.ok (⟨slice net.qubits (mask q.modes) _ _, _⟩ : Slice α ρ) = _
  rw [slice, hfree]
  rfl

end Dense

/-- Accessing a network whose tensors are stored cuts slices out of its one vector: a query picks
its entries, in whatever order it gives its pins, and the assignments of the same modes pick each
entry once. -/
theorem Network.Built.access_slices [Zero α] [One α] [Add α] [Mul α] [Conj α] [Magnitude α ρ]
    [Zero ρ] [Add ρ] {net : Network} {store : Store α} (h : net.Built store) :
    let backend : Backend α ρ σ := Dense.backend
    let a := store.arena net.arena
    let Roomy (bench : Bench α σ) : Prop := 32 * 2 ^ net.qubits ≤ bench.scratch.capacity
    ∃ v : Array α, v.size = 2 ^ net.qubits ∧
      (∀ bench, Roomy bench → (backend.materialize a net).outcome bench = .ok v) ∧
      (∀ q : Query, q.Valid net.qubits → ∃ slice : Slice α ρ, slice.Cuts q net.qubits v ∧
        ∀ r : Query, r.modes.length = r.values.length →
          (r.modes.zip r.values).Perm (q.modes.zip q.values) →
          ∀ bench, Roomy bench → (backend.access a net r).outcome bench = .ok slice) ∧
      (∀ modes : List Nat, (∀ m ∈ modes, m < net.qubits) → modes.Nodup →
        ∀ hyperSamples, ∀ i < 2 ^ net.qubits, ∃! e : List Nat × Nat,
          e.1.length = modes.length ∧ (∀ d ∈ e.1, d ≤ 1) ∧
            e.2 < 2 ^ (net.qubits - modes.length) ∧
            (⟨modes, e.1, hyperSamples⟩ : Query).Selects net.qubits e.2 i) ∧
      ((∀ x y z : ρ, x + y + z = x + (y + z)) → (∀ x : ρ, 0 + x = x) → (∀ x : ρ, x + 0 = x) →
        normSqByHalves v = sumFrom (v.toList.map normSq)) := by
  intro backend a Roomy
  have hsize : (net.vector a).size = 2 ^ net.qubits := net.size_vector a
  refine ⟨net.vector a, hsize, fun bench hfit => ?_, fun q hq => ?_, ?_, ?_⟩
  · obtain ⟨memory, hcontract⟩ := Dense.contract_eq h.fits bench
    exact (Attempt.outcome_of_eq hcontract).trans
      (Network.contracted_eq_ok_iff.2 ⟨hfit, rfl⟩)
  · refine ⟨q.cut net.qubits (net.vector a), q.cuts_cut hq hsize, ?_⟩
    intro r hlists hperm bench hfit
    rw [← Query.cut_perm hq hlists hperm]
    exact Dense.outcome_access_of_valid h.fits (hq.perm hlists hperm) hfit
  · intro modes hmodes hnodup hyperSamples i _
    exact Query.existsUnique_selects hmodes hnodup hyperSamples i
  · intro hassoc hzero hadd
    let _ : AddMonoid ρ :=
      { add_assoc := hassoc, zero_add := hzero, add_zero := hadd, nsmul := nsmulRec }
    rw [normSqByHalves_eq_sum, List.sum_eq_foldl, sumFrom]

/-- The raising network with its first and last qubit pinned, in both orders. -/
theorem Network.access_slices_raising :
    let store : Store ℂ := .sample Complex.I
    let bench : Bench ℂ Unit := ⟨.ofBytes 300, ()⟩
    let backend : Backend ℂ ℝ Unit := Dense.backend
    let q : Query := ⟨[2, 0], [1, 0], 8⟩
    let r : Query := ⟨[0, 2], [0, 1], 8⟩
    Network.raising.Built store ∧ 32 * 2 ^ Network.raising.qubits ≤ bench.scratch.capacity ∧
      q.Valid Network.raising.qubits ∧ ∃ v : Array ℂ, ∃ slice : Slice ℂ ℝ,
        (backend.materialize (store.arena 1) .raising).outcome bench = .ok v ∧
        slice.Cuts q Network.raising.qubits v ∧
        slice.normSq = sumFrom (v.toList.map normSq) ∧
        (backend.access (store.arena 1) .raising q).outcome bench = .ok slice ∧
        (backend.access (store.arena 1) .raising r).outcome bench = .ok slice := by
  intro store bench backend q r
  have hbuilt : Network.raising.Built store := raising_built Complex.I
  have hfit : 32 * 2 ^ Network.raising.qubits ≤ bench.scratch.capacity := by decide
  have hq : q.Valid Network.raising.qubits := ⟨rfl, by decide, by decide, by decide⟩
  have hperm : (r.modes.zip r.values).Perm (q.modes.zip q.values) := by decide
  obtain ⟨v, -, hvector, hslices, -, hnorm⟩ := hbuilt.access_slices (ρ := ℝ) (σ := Unit)
  obtain ⟨slice, hcuts, haccess⟩ := hslices q hq
  refine ⟨hbuilt, hfit, hq, v, slice, hvector bench hfit, hcuts, ?_, ?_, ?_⟩
  · rw [hcuts.normSq]
    exact hnorm add_assoc zero_add add_zero
  · exact haccess q rfl (List.Perm.refl _) bench hfit
  · exact haccess r rfl hperm bench hfit

end GateNetwork
