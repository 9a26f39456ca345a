import GateNetwork.Proofs.Words

/-!
# Appends in place

An append checks an operator, adds it at the end and counts it. To find a wire that occurs twice the
check marks the wires one after the other in a table with one flag for each qubit; all wires are
known to lie in the register by then, so no flag is looked for outside of the table. Whatever the
network was made by, exactly the well-formed operators are accepted, and a refused one leaves the
network as it was.
-/

namespace GateNetwork

variable {α : Type}

/-! ## Appending step by step -/

namespace Word

/-- The first wire whose flag is set when the wire is met. Each wire that is met sets its flag. -/
def scan? : Array Bool → List Nat → Option (Option Nat)
  | _, [] => some none
  | flags, q :: qs => do
    if ← flags[q]? then return some q
    scan? (← write? flags q true) qs

def check? (op : Operator) (a : Arena α) (qubits : Nat) : Option (Except Error Unit) :=
  if op.targets.isEmpty then some (.error (.invalid .noTarget))
  else
    match op.beyond? qubits with
    | some q => some (.error (.invalid (.qubitRange q qubits)))
    | none => do
      match ← scan? (Array.replicate qubits false) op.wires with
      | some q => return .error (.invalid (.qubitTwice q))
      | none =>
        match a.get op.tensor with
        | .error e => return .error e
        | .ok t => return op.checkShape t

/-- Appends to a network that is changed in place: the position of the operator or an error, and the
network after it. The table of flags and the longer list are taken to fit into memory. -/
def append? (s : Store α) (op : Operator) (net : Network) :
    Option (Except Error Nat × Network) := do
  match ← check? op (s.arena net.arena) net.qubits with
  | .error e => return (.error e, net)
  | .ok () =>
    let ops := net.ops ++ [op]
    let version ← add? net.version.toNat 1
    return (.ok (ops.length - 1), { net with ops := ops, version := UInt64.ofNat version })

/-- The flags that are set are those of the wires met so far. -/
theorem scan?_eq {n : Nat} {flags : Array Bool} {seen qs : List Nat}
    (hflags : ∀ p < n, flags[p]? = some (decide (p ∈ seen))) (hqs : ∀ q ∈ qs, q < n) :
    scan? flags qs = some (firstRepeat? seen qs) := by
  induction qs generalizing flags seen with
  | nil => rfl
  | cons q qs ih =>
    have hq : q < n := hqs q List.mem_cons_self
    have hread : flags[q]? = some (decide (q ∈ seen)) := hflags q hq
    have hsize : q < flags.size := (Array.getElem?_eq_some_iff.1 hread).1
    rw [scan?, hread, firstRepeat?]
    by_cases hseen : q ∈ seen
    · simp [hseen]
    · have hmarked : ∀ p < n,
          (flags.setIfInBounds q true)[p]? = some (decide (p ∈ q :: seen)) := by
        intro p hp
        rw [Array.getElem?_setIfInBounds]
        by_cases hsame : q = p
        · simp [hsame, hsame ▸ hsize]
        · simp [hsame, Ne.symm hsame, hflags p hp]
      have hrest := ih hmarked fun p hp => hqs p (List.mem_cons_of_mem q hp)
      simp [hseen, write?, hsize, hrest]

theorem check?_eq (op : Operator) (a : Arena α) (n : Nat) :
    check? op a n = some (op.check a n) := by
  unfold check? Operator.check
  split
  · rfl
  · cases hbeyond : op.beyond? n with
    | some q => rfl
    | none =>
      have hflags : ∀ p < n,
          (Array.replicate n false)[p]? = some (decide (p ∈ ([] : List Nat))) := by
        intro p hp
        simp [hp]
      have hscan := scan?_eq hflags (Operator.beyond?_eq_none_iff.1 hbeyond)
      simp only [hscan]
      cases firstRepeat? [] op.wires with
      | some q => rfl
      | none => cases a.get op.tensor <;> rfl

theorem append?_eq (s : Store α) (op : Operator) (net : Network)
    (hversion : net.version.toNat + 1 < 2 ^ 64) :
    append? s op net = some (match net.push s op with
      | .ok (position, net') => (.ok position, net')
      | .error e => (.error e, net)) := by
  rw [append?, check?_eq, Network.push]
  cases op.check (s.arena net.arena) net.qubits with
  | error e => rfl
  | ok u =>
    have hadd : add? net.version.toNat 1 = some (net.version.toNat + 1) := if_pos hversion
    have hcount : UInt64.ofNat (net.version.toNat + 1) = net.version + 1 := by
      rw [UInt64.ofNat_add, UInt64.ofNat_toNat]
      rfl
    have hlength : (net.ops ++ [op]).length - 1 = net.ops.length := by simp
    simp only [Option.bind_eq_bind, Option.bind_some, hadd, hcount, hlength]
    rfl

end Word

/-! ## Networks that appends make -/

/-- An operator that a network on `n` qubits can hold, with its tensor in the arena. -/
structure Operator.WellFormed (op : Operator) (a : Arena α) (n : Nat) : Prop where
  targets_ne : op.targets ≠ []
  lt : ∀ q ∈ op.targets ++ op.controls, q < n
  nodup : (op.targets ++ op.controls).Nodup
  stored : ∃ t, a.get op.tensor = .ok t ∧
    t.rows = 2 ^ op.targets.length ∧ t.cols = 2 ^ op.targets.length

theorem Operator.Fits.wellFormed {op : Operator} {a : Arena α} {n : Nat} (h : op.Fits a n) :
    op.WellFormed a n :=
  ⟨h.targets_ne, h.lt, h.nodup, h.stored⟩

/-- Tensors whose sides are words are too small for an operator on 64 targets. -/
theorem Operator.fits_iff_wellFormed {op : Operator} {a : Arena α} {n : Nat}
    (hword : ∀ t, a.get op.tensor = .ok t → t.rows < 2 ^ 64) :
    op.Fits a n ↔ op.WellFormed a n := by
  refine ⟨Fits.wellFormed, fun h => ?_⟩
  obtain ⟨t, hget, hrows, hcols⟩ := h.stored
  have hpow : 2 ^ op.targets.length < 2 ^ 64 := hrows ▸ hword t hget
  have hfew : op.targets.length < 64 := (Nat.pow_lt_pow_iff_right (by decide)).1 hpow
  exact ⟨h.targets_ne, h.lt, h.nodup, hfew, t, hget, hrows, hcols⟩

namespace Network

/-- The networks that can be made, over stores that change in any way: an empty one, one that
prepares a vector, and one with an operator more. A copy is equal to what it was copied from, so
that several networks can grow out of one. -/
inductive Made (α : Type) [Zero α] : Network → Prop where
  | empty (arena qubits : Nat) : Made α (.empty arena qubits)
  | ofVector {s s' : Store α} {arena : Nat} {v : Array α} {net : Network}
      (h : ofVector s arena v = .ok (net, s')) : Made α net
  | push {s : Store α} {net net' : Network} {op : Operator} {position : Nat} (h : Made α net)
      (hpush : net.push s op = .ok (position, net')) : Made α net'

variable {net net' : Network}

theorem Appended.push_any {entries : List (Operator × Tensor α)} {s : Store α} {op : Operator}
    {position : Nat} (h : Appended net entries) (hpush : net.push s op = .ok (position, net')) :
    ∃ t, Appended net' (entries ++ [(op, t)]) := by
  obtain ⟨hfits, -⟩ := push_eq_ok hpush
  obtain ⟨t, hget, -⟩ := hfits.stored
  exact ⟨t, h.push hget hpush⟩

theorem Appended.version_eq {entries : List (Operator × Tensor α)} (h : Appended net entries) :
    net.version = UInt64.ofNat net.size := by
  induction h with
  | empty arena qubits => rfl
  | push _ _ hpush ih =>
    obtain ⟨-, rfl⟩ := push_eq_ok hpush
    simp [size, ih]

/-- A network that prepares a vector starts as an empty one. -/
theorem ofVector_eq_push [Zero α] {s s' : Store α} {arena : Nat} {v : Array α}
    (h : ofVector s arena v = .ok (net, s')) : ∃ op position,
      (empty arena v.size.log2).push s' op = .ok (position, net) := by
  unfold ofVector at h
  split at h
  · cases h
  · cases hallocate : s.allocate arena (Tensor.ofFirstColumn v) with
    | error e =>
      rw [hallocate] at h
      cases h
    | ok allocated =>
      obtain ⟨handle, s₁⟩ := allocated
      rw [hallocate] at h
      let op : Operator := ⟨List.range v.size.log2, [], handle, .nonUnitary, false⟩
      change ((empty arena v.size.log2).push s₁ op >>= fun r => pure (r.2, s₁)) = _ at h
      cases hpush : (empty arena v.size.log2).push s₁ op with
      | error e =>
        rw [hpush] at h
        cases h
      | ok pushed =>
        rw [hpush] at h
        cases h
        exact ⟨op, pushed.1, hpush⟩

theorem Made.appended [Zero α] (h : Made α net) :
    ∃ entries : List (Operator × Tensor α), Appended net entries := by
  induction h with
  | empty arena qubits => exact ⟨[], .empty arena qubits⟩
  | ofVector h =>
    obtain ⟨op, position, hpush⟩ := ofVector_eq_push h
    obtain ⟨t, happended⟩ := (Appended.empty _ _).push_any hpush
    exact ⟨_, happended⟩
  | push _ hpush ih =>
    obtain ⟨entries, happended⟩ := ih
    obtain ⟨t, happended'⟩ := happended.push_any hpush
    exact ⟨_, happended'⟩

/-- Each operator was well formed when it was accepted. -/
theorem Made.wellFormed [Zero α] (h : Made α net) :
    ∀ op ∈ net.ops, ∃ a : Arena α, op.WellFormed a net.qubits := by
  intro op hop
  obtain ⟨entries, happended⟩ := h.appended
  rw [happended.ops_eq] at hop
  obtain ⟨e, he, rfl⟩ := List.mem_map.1 hop
  obtain ⟨a, hfits, -⟩ := happended.accepted e he
  exact ⟨a, hfits.wellFormed⟩

theorem Made.version_toNat [Zero α] (h : Made α net) (hcount : net.size < 2 ^ 64) :
    net.version.toNat = net.size := by
  obtain ⟨entries, happended⟩ := h.appended
  rw [happended.version_eq]
  exact Nat.mod_eq_of_lt hcount

/-- Given memory for its flags, appending in place stops at no flag and no sum. It accepts the
well-formed operators and no others, puts them last and counts them, and it leaves the network as it
was otherwise. -/
theorem Made.append_iff_wellFormed [Zero α] (hnet : Made α net) (hcount : net.size + 1 < 2 ^ 64)
    (s : Store α) (op : Operator)
    (hword : ∀ t, (s.arena net.arena).get op.tensor = .ok t → t.rows < 2 ^ 64) :
    ∃ outcome net', Word.append? s op net = some (outcome, net') ∧
      net.push s op = outcome.map (fun position => (position, net')) ∧
      ((∃ position, outcome = .ok position) ↔ op.WellFormed (s.arena net.arena) net.qubits) ∧
      (∀ position, outcome = .ok position → position = net.size ∧ net'.ops = net.ops ++ [op] ∧
        net'.qubits = net.qubits ∧ net'.arena = net.arena) ∧
      (∀ e, outcome = .error e → net' = net) ∧
      Made α net' ∧ net'.version.toNat = net'.size ∧
      ∀ o ∈ net'.ops, ∃ a : Arena α, o.WellFormed a net'.qubits := by
  have hversion : net.version.toNat = net.size := hnet.version_toNat (Nat.lt_of_succ_lt hcount)
  have happend := Word.append?_eq s op net (by rwa [hversion])
  by_cases hop : op.WellFormed (s.arena net.arena) net.qubits
  · have hpush := push_of_fits ((Operator.fits_iff_wellFormed hword).2 hop)
    have hmade : Made α _ := hnet.push hpush
    have hsize : (net.ops ++ [op]).length = net.size + 1 := by
      rw [List.length_append]
      rfl
    rw [hpush] at happend
    refine ⟨_, _, happend, hpush, ⟨fun _ => hop, fun _ => ⟨_, rfl⟩⟩, ?_, fun e he => ?_, hmade,
      hmade.version_toNat ?_, hmade.wellFormed⟩
    · intro position hposition
      cases hposition
      exact ⟨rfl, rfl, rfl, rfl⟩
    · cases he
    · exact hsize.trans_lt hcount
  · cases hpush : net.push s op with
    | ok pushed =>
      obtain ⟨position, net'⟩ := pushed
      exact absurd (push_eq_ok hpush).1.wellFormed hop
    | error e =>
      rw [hpush] at happend
      refine ⟨.error e, net, happend, rfl, ⟨fun h => ?_, fun h => absurd h hop⟩,
        fun position h => ?_, fun _ _ => rfl, hnet, hversion, hnet.wellFormed⟩
      · obtain ⟨position, h⟩ := h
        cases h
      · cases h

/-- The negation network takes an operator on its first qubit, and none that is controlled by its
own target. -/
theorem Made.append_negation :
    let store : Store Amplitude := .sample 1
    let op : Operator := ⟨[0], [], ⟨0, 0, 0⟩, .unitary, false⟩
    let twice : Operator := ⟨[0], [0], ⟨0, 0, 0⟩, .unitary, false⟩
    Made Amplitude .negation ∧ negation.size + 1 < 2 ^ 64 ∧
      (∀ t, (store.arena negation.arena).get ⟨0, 0, 0⟩ = .ok t → t.rows < 2 ^ 64) ∧
      (∃ net', Word.append? store op negation = some (.ok 1, net') ∧
        net'.ops = negation.ops ++ [op] ∧ net'.version.toNat = net'.size) ∧
      ∃ e, Word.append? store twice negation = some (.error e, negation) := by
  intro store op twice
  have hnegation : negation.Fits (store.arena 0) := (negation_built (1 : Amplitude)).fits
  have hmade : Made Amplitude .negation :=
    .push (.empty 0 2) (push_of_fits (hnegation _ (List.mem_singleton.2 rfl)))
  have hget : (store.arena 0).get ⟨0, 0, 0⟩ = .ok Gate.x.matrix := Store.get_sample_negation 1
  have hcount : negation.size + 1 < 2 ^ 64 := by decide
  have hword : ∀ t, (store.arena negation.arena).get ⟨0, 0, 0⟩ = .ok t → t.rows < 2 ^ 64 := by
    intro t ht
    have hsame : (Gate.x.matrix : Tensor Amplitude) = t := Except.ok.inj (hget.symm.trans ht)
    rw [← hsame]
    decide
  have hop : op.WellFormed (store.arena 0) 2 :=
    ⟨by simp [op], by simp [op], by simp [op], _, hget, rfl, rfl⟩
  have htwice : ¬ twice.WellFormed (store.arena 0) 2 := fun h => by simpa [twice] using h.nodup
  refine ⟨hmade, hcount, hword, ?_, ?_⟩
  · obtain ⟨outcome, net', happend, -, haccept, hok, -, -, hversion, -⟩ :=
      hmade.append_iff_wellFormed hcount store op hword
    obtain ⟨position, rfl⟩ := haccept.2 hop
    obtain ⟨rfl, hops, -⟩ := hok position rfl
    exact ⟨net', happend, hops, hversion⟩
  · obtain ⟨outcome, net', happend, -, haccept, -, herror, -⟩ :=
      hmade.append_iff_wellFormed hcount store twice hword
    cases outcome with
    | ok position => exact absurd (haccept.1 ⟨position, rfl⟩) htwice
    | error e =>
      obtain rfl := herror e rfl
      exact ⟨e, happend⟩

end Network

end GateNetwork
