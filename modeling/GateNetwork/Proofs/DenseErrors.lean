import GateNetwork.Proofs.Access

/-!
# Errors of the dense backend

A network can outlive its tensors: a handle of it may name nothing any more. Contracting then fails
at the first operator whose tensor is gone, and it fails in no other way once the workspace is
granted. An access reads its pins in between, and refuses them for the reasons that a query can be
wrong for.
-/

namespace GateNetwork

variable {α ρ σ : Type}

/-! ## Networks that outlive their tensors -/

namespace Network

/-- The networks that appends build over stores that change in any way, with the tensor that each
operator had when it was accepted. -/
inductive Appended : Network → List (Operator × Tensor α) → Prop where
  | empty (arena qubits : Nat) : Appended (.empty arena qubits) []
  | push {net net' : Network} {entries : List (Operator × Tensor α)} {s : Store α} {op : Operator}
      {t : Tensor α} {position : Nat} (h : Appended net entries)
      (hget : (s.arena net.arena).get op.tensor = .ok t)
      (hpush : net.push s op = .ok (position, net')) : Appended net' (entries ++ [(op, t)])

/-- Every handle names the tensor that it named when its operator was accepted, or nothing. -/
def OutlivedBy (entries : List (Operator × Tensor α)) (a : Arena α) : Prop :=
  ∀ e ∈ entries, a.get e.1.tensor = .ok e.2 ∨ ∃ err, a.get e.1.tensor = .error err

/-- Some operator's tensor is gone. -/
def Dangles (net : Network) (a : Arena α) : Prop :=
  ∃ op ∈ net.ops, ∃ e, a.get op.tensor = .error e

variable {net : Network} {entries : List (Operator × Tensor α)} {a : Arena α}

theorem Appended.ops_eq (h : net.Appended entries) : net.ops = entries.map Prod.fst := by
  induction h with
  | empty arena qubits => rfl
  | push _ _ hpush ih =>
    obtain ⟨-, rfl⟩ := push_eq_ok hpush
    rw [List.map_append, ← ih]
    rfl

theorem Appended.accepted (h : net.Appended entries) :
    ∀ e ∈ entries, ∃ b : Arena α, e.1.Fits b net.qubits ∧ b.get e.1.tensor = .ok e.2 := by
  induction h with
  | empty arena qubits => exact fun e he => absurd he List.not_mem_nil
  | push _ hget hpush ih =>
    obtain ⟨hop, rfl⟩ := push_eq_ok hpush
    intro e he
    rcases List.mem_append.1 he with he | he
    · exact ih e he
    · rw [List.mem_singleton.1 he]
      exact ⟨_, hop, hget⟩

end Network

/-- The operator fits, or its tensor is gone. -/
def Operator.FitsOrDead (op : Operator) (a : Arena α) (n : Nat) : Prop :=
  op.Fits a n ∨ ∃ e, a.get op.tensor = .error e

theorem Network.Appended.fits_or_dead {net : Network} {entries : List (Operator × Tensor α)}
    {a : Arena α} (h : net.Appended entries) (ha : OutlivedBy entries a) :
    ∀ op ∈ net.ops, op.FitsOrDead a net.qubits := by
  intro op hop
  rw [h.ops_eq] at hop
  obtain ⟨e, he, rfl⟩ := List.mem_map.1 hop
  obtain ⟨b, hfits, hget⟩ := h.accepted e he
  rcases ha e he with hlive | hdead
  · exact .inl (hfits.congr (hlive.trans hget.symm))
  · exact .inr hdead

/-! ## Contractions -/

namespace Dense

theorem workspace_eq_min (n : Nat) : workspace n = min (32 * 2 ^ n) (2 ^ 64 - 1) := by
  rcases Nat.lt_or_ge n 59 with hn | hn
  · have hpow : 2 ^ n ≤ 2 ^ 58 := Nat.pow_le_pow_right (by decide) (by omega)
    rw [workspace_eq hn]
    omega
  · have hpow : 2 ^ 59 ≤ 2 ^ n := Nat.pow_le_pow_right (by decide) hn
    rw [workspace_saturated hn]
    omega

/-- A workspace that fits a pool bounds the register. -/
theorem lt_of_workspace_le {n : Nat} {s : Scratch α} (hfit : workspace n ≤ s.capacity) : n < 59 :=
  wide_le_of_pow_le (capacity_lt s) ((workspace_le_iff s n).1 hfit)

variable [Zero α] [One α] [Add α] [Mul α] [Conj α] {a : Arena α} {net : Network}

omit [One α] in
/-- A run ends at the first operator whose tensor is gone. -/
theorem run_of_dead {n : Nat} {ops : List Operator} (h : ∀ op ∈ ops, op.FitsOrDead a n)
    (hdead : ∃ op ∈ ops, ∃ e, a.get op.tensor = .error e) (b : Buffers α)
    (hb : b.current.size = 2 ^ n) : ∃ m c, b.run a ops = (.error (.backend m), c) := by
  induction ops generalizing b with
  | nil =>
    obtain ⟨op, hop, -⟩ := hdead
    exact absurd hop List.not_mem_nil
  | cons op ops ih =>
    rcases h op List.mem_cons_self with hfits | ⟨e, he⟩
    · obtain ⟨t, hget, -⟩ := hfits.stored
      have hon := hfits.on?_eq hget hb
      have hrest : ∃ op ∈ ops, ∃ e, a.get op.tensor = .error e := by
        obtain ⟨dead, hmem, e, he⟩ := hdead
        rcases List.mem_cons.1 hmem with rfl | hmem
        · rw [hget] at he
          cases he
        · exact ⟨dead, hmem, e, he⟩
      obtain ⟨m, c, hrun⟩ := ih (fun o ho => h o (List.mem_cons_of_mem op ho)) hrest
        (b.advance ((a.action op).apply b.current)) (by simpa [Buffers.advance] using hb)
      refine ⟨m, c, ?_⟩
      rw [Buffers.run, hget]
      simp only [hon]
      exact hrun
    · refine ⟨e.message, b, ?_⟩
      rw [Buffers.run, he]

theorem contract_of_dangles (h : ∀ op ∈ net.ops, op.FitsOrDead a net.qubits)
    (hdangles : net.Dangles a) {bench : Bench α σ}
    (hfit : workspace net.qubits ≤ bench.scratch.capacity) :
    ∃ m, (contract a net).outcome bench = .error (.backend m) := by
  obtain ⟨cells, memory, hlease, hcells⟩ := Scratch.lease_ok hfit
  obtain ⟨-, hsize⟩ := size_current_ofCells (lt_of_workspace_le hfit) hcells
  obtain ⟨m, c, hrun⟩ := run_of_dead h hdangles (Buffers.ofCells cells) hsize
  refine ⟨m, ?_⟩
  rw [Attempt.outcome, contract, hlease]
  simp only [hrun]

/-- What a contraction comes to: refused for its workspace, ended by a tensor that is gone, or the
vector of the network. -/
theorem outcome_contract_cases (h : ∀ op ∈ net.ops, op.FitsOrDead a net.qubits)
    (bench : Bench α σ) :
    (bench.scratch.capacity < workspace net.qubits ∧ (contract a net).outcome bench =
        .error (.workspace (workspace net.qubits) bench.scratch.capacity)) ∨
      (workspace net.qubits ≤ bench.scratch.capacity ∧ net.Dangles a ∧
        ∃ m, (contract a net).outcome bench = .error (.backend m)) ∨
      (workspace net.qubits ≤ bench.scratch.capacity ∧ ¬ net.Dangles a ∧
        (contract a net).outcome bench = .ok (net.vector a)) := by
  rcases Nat.lt_or_ge bench.scratch.capacity (workspace net.qubits) with hlarge | hfit
  · refine .inl ⟨hlarge, ?_⟩
    rw [Attempt.outcome, contract, Scratch.lease_error hlarge]
  · by_cases hdangles : net.Dangles a
    · exact .inr (.inl ⟨hfit, hdangles, contract_of_dangles h hdangles hfit⟩)
    · have hfits : net.Fits a := by
        intro op hop
        rcases h op hop with hfits | he
        · exact hfits
        · exact absurd ⟨op, hop, he⟩ hdangles
      obtain ⟨memory, hcontract⟩ := contract_eq hfits bench
      refine .inr (.inr ⟨hfit, hdangles, ?_⟩)
      rw [Attempt.outcome_of_eq hcontract]
      exact Network.contracted_eq_ok_iff.2 ⟨(workspace_le_iff bench.scratch net.qubits).1 hfit, rfl⟩

end Dense

/-! ## Pins -/

namespace Query

/-- The ways in which a query can be wrong for a register. -/
def Malformed (q : Query) (n : Nat) : Prop :=
  q.modes.length ≠ q.values.length ∨ (∃ m ∈ q.modes, n ≤ m) ∨ (∃ v ∈ q.values, 1 < v) ∨
    ¬ q.modes.Nodup

/-- The query has one value for each pinned mode, the modes are distinct ones of the register, and
the values are bits. -/
structure Valid (q : Query) (n : Nat) : Prop where
  lists : q.modes.length = q.values.length
  modes : ∀ m ∈ q.modes, m < n
  values : ∀ v ∈ q.values, v ≤ 1
  nodup : q.modes.Nodup

theorem malformed_iff {q : Query} {n : Nat} : q.Malformed n ↔ ¬ q.Valid n := by
  constructor
  · intro h hvalid
    rcases h with h | ⟨m, hm, h⟩ | ⟨v, hv, h⟩ | h
    · exact h hvalid.lists
    · exact absurd (hvalid.modes m hm) (Nat.not_lt.2 h)
    · exact absurd (hvalid.values v hv) (Nat.not_le.2 h)
    · exact h hvalid.nodup
  · intro h
    by_contra hnot
    obtain ⟨hlists, hmodes, hvalues, hnodup⟩ : _ ∧ _ ∧ _ ∧ _ := by
      simpa only [Malformed, not_or] using hnot
    refine h ⟨not_not.1 hlists, fun m hm => ?_, fun v hv => ?_, not_not.1 hnodup⟩
    · exact Nat.not_le.1 fun hle => hmodes ⟨m, hm, hle⟩
    · exact Nat.not_lt.1 fun hlt => hvalues ⟨v, hv, hlt⟩

/-- The pins are in range and pin distinct modes, none of them a mode of the mask. -/
def Readable (n pinned : Nat) (pins : List (Nat × Nat)) : Prop :=
  (∀ p ∈ pins, p.1 < n ∧ p.2 ≤ 1 ∧ pinned.testBit p.1 = false) ∧ (pins.map Prod.fst).Nodup

theorem readable_cons_iff {n pinned mode value : Nat} {pins : List (Nat × Nat)} :
    Readable n pinned ((mode, value) :: pins) ↔
      (mode < n ∧ value ≤ 1 ∧ pinned.testBit mode = false) ∧
        Readable n (pinned ||| 1 <<< mode) pins := by
  have hpinned (p : Nat) : (pinned ||| 1 <<< mode).testBit p = false ↔
      pinned.testBit p = false ∧ mode ≠ p := by
    rw [Nat.testBit_or, Nat.one_shiftLeft, Nat.testBit_two_pow, Bool.or_eq_false_iff,
      decide_eq_false_iff_not]
  simp only [Readable, hpinned, List.map_cons, List.nodup_cons, List.mem_map, List.forall_mem_cons]
  constructor
  · rintro ⟨⟨hpin, hpins⟩, hnew, hnodup⟩
    refine ⟨hpin, fun p hp => ?_, hnodup⟩
    obtain ⟨hlt, hle, hfree⟩ := hpins p hp
    exact ⟨hlt, hle, hfree, fun hsame => hnew ⟨p, hp, hsame.symm⟩⟩
  · rintro ⟨hpin, hpins, hnodup⟩
    refine ⟨⟨hpin, fun p hp => ?_⟩, fun ⟨p, hp, hsame⟩ => ?_, hnodup⟩
    · obtain ⟨hlt, hle, hfree, -⟩ := hpins p hp
      exact ⟨hlt, hle, hfree⟩
    · exact (hpins p hp).2.2.2 hsame.symm

/-- Pins that can be read make a mask of their modes and an index with their values there. -/
theorem readPins_of_readable {n : Nat} (hn : n ≤ 64) {pins : List (Nat × Nat)} {pinned : Nat}
    (h : Readable n pinned pins) (bits : Nat) :
    readPins n pins pinned bits = .ok (pinned ||| mask (pins.map Prod.fst),
      bits ||| spread (pins.map Prod.fst) (indexOf (pins.map Prod.snd))) := by
  induction pins generalizing pinned bits with
  | nil => simp [readPins, mask, spread]
  | cons pin pins ih =>
    obtain ⟨mode, value⟩ := pin
    obtain ⟨⟨hmode, hvalue, hnew⟩, hpins⟩ := readable_cons_iff.1 h
    have hlow : (2 * indexOf (pins.map Prod.snd) + value) % 2 = value := by omega
    have hhigh : (2 * indexOf (pins.map Prod.snd) + value) / 2 = indexOf (pins.map Prod.snd) := by
      omega
    have hspread : spread (mode :: pins.map Prod.fst) (indexOf (value :: pins.map Prod.snd)) =
        value <<< mode ||| spread (pins.map Prod.fst) (indexOf (pins.map Prod.snd)) := by
      rw [spread, indexOf_cons, hlow, hhigh]
    rw [readPins, if_neg (by omega), if_neg (by omega), if_neg (by simp [hnew]), ih hpins,
      List.map_cons, List.map_cons, hspread, mask, Nat.or_assoc, Nat.or_assoc]

theorem readPins_of_not_readable {n : Nat} {pins : List (Nat × Nat)} {pinned : Nat}
    (h : ¬ Readable n pinned pins) (bits : Nat) :
    ∃ c, readPins n pins pinned bits = .error (.invalid c) := by
  induction pins generalizing pinned bits with
  | nil => exact absurd ⟨fun _ hp => absurd hp List.not_mem_nil, List.nodup_nil⟩ h
  | cons pin pins ih =>
    obtain ⟨mode, value⟩ := pin
    rw [readPins]
    by_cases hmode : n ≤ mode ∨ 64 ≤ mode
    · exact ⟨_, if_pos hmode⟩
    rw [if_neg hmode]
    by_cases hvalue : 1 < value
    · exact ⟨_, if_pos hvalue⟩
    rw [if_neg hvalue]
    by_cases htwice : pinned.testBit mode = true
    · exact ⟨_, if_pos htwice⟩
    rw [if_neg htwice]
    have hpin : mode < n ∧ value ≤ 1 ∧ pinned.testBit mode = false :=
      ⟨by omega, by omega, by simpa using htwice⟩
    exact ih (fun hpins => h (readable_cons_iff.2 ⟨hpin, hpins⟩)) _

/-- The pins of a query can be read when it is valid. -/
theorem readable_zip_iff {q : Query} {n : Nat} (hlists : q.modes.length = q.values.length) :
    Readable n 0 (q.modes.zip q.values) ↔ q.Valid n := by
  have hmodes : (q.modes.zip q.values).map Prod.fst = q.modes := List.map_fst_zip hlists.le
  have hvalues : (q.modes.zip q.values).map Prod.snd = q.values := List.map_snd_zip hlists.ge
  rw [Readable, hmodes]
  constructor
  · rintro ⟨hall, hnodup⟩
    refine ⟨hlists, fun m hm => ?_, fun v hv => ?_, hnodup⟩
    · rw [← hmodes] at hm
      obtain ⟨p, hp, rfl⟩ := List.mem_map.1 hm
      exact (hall p hp).1
    · rw [← hvalues] at hv
      obtain ⟨p, hp, rfl⟩ := List.mem_map.1 hv
      exact (hall p hp).2.1
  · intro h
    refine ⟨fun p hp => ?_, h.nodup⟩
    obtain ⟨hmode, hvalue⟩ := List.of_mem_zip hp
    exact ⟨h.modes _ hmode, h.values _ hvalue, Nat.zero_testBit p.1⟩

theorem pattern_of_valid {q : Query} {n : Nat} (hn : n ≤ 64) (hq : q.Valid n) :
    q.pattern n = .ok (mask q.modes, spread q.modes (indexOf q.values)) := by
  have hread := readPins_of_readable hn ((readable_zip_iff hq.lists).2 hq) 0
  rw [List.map_fst_zip hq.lists.le, List.map_snd_zip hq.lists.ge, Nat.zero_or, Nat.zero_or] at hread
  rw [pattern, if_neg (not_not.2 hq.lists), hread]

/-- Reading the pins of a query fails exactly for queries that are not valid. -/
theorem pattern_cases {q : Query} {n : Nat} (hn : n ≤ 64) :
    (q.Valid n ∧ ∃ bits, q.pattern n = .ok (mask q.modes, bits) ∧ bits < 2 ^ n) ∨
      (¬ q.Valid n ∧ ∃ c, q.pattern n = .error (.invalid c)) := by
  by_cases hq : q.Valid n
  · exact .inl ⟨hq, _, pattern_of_valid hn hq, spread_lt hq.modes _⟩
  · refine .inr ⟨hq, ?_⟩
    unfold pattern
    split
    · exact ⟨_, rfl⟩
    · rename_i hlists
      have hread := (readable_zip_iff (not_not.1 hlists)).not.2 hq
      exact readPins_of_not_readable hread 0

end Query

theorem Dense.freeModes_mask (n : Nat) (modes : List Nat) :
    freeModes n (mask modes) = (List.range n).filter fun q => decide (q ∉ modes) := by
  refine List.filter_congr fun q _ => ?_
  rw [testBit_mask]
  simp

/-- As many modes are free as are not pinned. -/
theorem Dense.length_freeModes {n : Nat} {modes : List Nat} (hmodes : ∀ m ∈ modes, m < n)
    (hnodup : modes.Nodup) : (freeModes n (mask modes)).length = n - modes.length := by
  have hpinned : ((List.range n).filter fun q => decide (q ∈ modes)).length = modes.length := by
    refine List.Perm.length_eq ((List.perm_ext_iff_of_nodup ?_ hnodup).2 fun q => ?_)
    · exact List.nodup_range.filter _
    · rw [List.mem_filter, List.mem_range, decide_eq_true_eq]
      exact ⟨And.right, fun hq => ⟨hmodes q hq, hq⟩⟩
  have htotal := List.length_eq_length_filter_add (l := List.range n) fun q => decide (q ∈ modes)
  rw [freeModes_mask]
  simp only [List.length_range, hpinned] at htotal
  have hnot : ((List.range n).filter fun q => decide (q ∉ modes)).length =
      ((List.range n).filter fun q => !decide (q ∈ modes)).length := by
    simp only [decide_not]
  omega

/-! ## Errors -/

/-- An evaluation that is settled by the first of three questions whose answer is bad: does the
workspace fit the pool, is the query well formed, are all tensors there? -/
structure Settled {β : Type} (required capacity : Nat) (malformed dangles : Prop) (size : β → Nat)
    (amplitudes : Nat) (r : Except Error β) : Prop where
  exhausted : r = .error (.workspace required capacity) ↔ capacity < required
  invalid : (∃ c, r = .error (.invalid c)) ↔ required ≤ capacity ∧ malformed
  failed : (∃ m, r = .error (.backend m)) ↔ required ≤ capacity ∧ ¬ malformed ∧ dangles
  answered : (∃ answer, r = .ok answer) ↔ required ≤ capacity ∧ ¬ malformed ∧ ¬ dangles
  size : ∀ answer, r = .ok answer → size answer = amplitudes

namespace Settled

variable {β : Type} {required capacity : Nat} {malformed dangles : Prop} {size : β → Nat}
  {amplitudes : Nat}

theorem of_exhausted (h : capacity < required) : Settled required capacity malformed dangles size
    amplitudes (.error (.workspace required capacity)) := by
  have hfit : ¬ required ≤ capacity := Nat.not_le.2 h
  constructor <;> simp [h, hfit]

theorem of_invalid (hfit : required ≤ capacity) (hbad : malformed) (c : BadArgument) :
    Settled required capacity malformed dangles size amplitudes (.error (.invalid c)) := by
  constructor <;> simp [hfit, hbad]

theorem of_failed (hfit : required ≤ capacity) (hgood : ¬ malformed) (hdangles : dangles)
    (m : String) :
    Settled required capacity malformed dangles size amplitudes (.error (.backend m)) := by
  constructor <;> simp [hfit, hgood, hdangles]

theorem of_answered (hfit : required ≤ capacity) (hgood : ¬ malformed) (hwhole : ¬ dangles)
    {answer : β} (hsize : size answer = amplitudes) :
    Settled required capacity malformed dangles size amplitudes (.ok answer) := by
  constructor <;> simp [hfit, hgood, hwhole, hsize]

end Settled

/-! ## Accesses -/

namespace Dense

variable [Zero α] [One α] [Add α] [Mul α] [Conj α] [Magnitude α ρ] [Zero ρ] [Add ρ] {a : Arena α}
  {net : Network}

/-- An access checks the workspace, reads the pins, contracts the network and cuts out the slice. -/
theorem outcome_access (q : Query) (bench : Bench α σ) :
    (access a net q : Attempt Error (Bench α σ) (Slice α ρ)).outcome bench =
      (bench.scratch.check (workspace net.qubits)).bind fun _ =>
        (q.pattern net.qubits).bind fun pins => ((contract a net).outcome bench).bind fun v =>
          match slice? net.qubits pins.1 pins.2 v with
          | some amplitudes => .ok ⟨amplitudes, normSqByHalves v⟩
          | none => .error .outOfBounds := by
  rw [access, Attempt.outcome, Attempt.bind_ok (Attempt.get_apply bench), ← Attempt.outcome,
    Attempt.outcome_ofExcept_bind]
  refine congrArg _ (funext fun _ => ?_)
  rw [Attempt.outcome_ofExcept_bind]
  refine congrArg _ (funext fun pins => ?_)
  rw [Attempt.outcome_bind]
  refine congrArg _ (funext fun v => ?_)
  cases slice? net.qubits pins.1 pins.2 v <;> rfl

theorem contract_settled (h : ∀ op ∈ net.ops, op.FitsOrDead a net.qubits) (bench : Bench α σ) :
    Settled (workspace net.qubits) bench.scratch.capacity False (net.Dangles a) Array.size
      (2 ^ net.qubits) ((contract a net).outcome bench) := by
  rcases outcome_contract_cases h bench with
    ⟨hlarge, hv⟩ | ⟨hfit, hdangles, m, hv⟩ | ⟨hfit, hwhole, hv⟩
  · rw [hv]
    exact .of_exhausted hlarge
  · rw [hv]
    exact .of_failed hfit not_false hdangles m
  · rw [hv]
    exact .of_answered hfit not_false hwhole (net.size_vector a)

theorem access_settled (h : ∀ op ∈ net.ops, op.FitsOrDead a net.qubits) (q : Query)
    (bench : Bench α σ) :
    Settled (workspace net.qubits) bench.scratch.capacity (q.Malformed net.qubits) (net.Dangles a)
      (fun slice : Slice α ρ => slice.amplitudes.size) (2 ^ (net.qubits - q.modes.length))
      ((access a net q).outcome bench) := by
  rw [outcome_access]
  rcases Nat.lt_or_ge bench.scratch.capacity (workspace net.qubits) with hlarge | hfit
  · rw [Scratch.check_error hlarge]
    exact .of_exhausted hlarge
  have hn : net.qubits < 59 := lt_of_workspace_le hfit
  rw [Scratch.check_ok hfit]
  rcases Query.pattern_cases (q := q) (by omega : net.qubits ≤ 64) with
    ⟨hvalid, bits, hpattern, hbits⟩ | ⟨hbad, c, hpattern⟩
  · have hgood : ¬ q.Malformed net.qubits := fun hbad => Query.malformed_iff.1 hbad hvalid
    rw [hpattern]
    rcases outcome_contract_cases h bench with
      ⟨hlarge, -⟩ | ⟨-, hdangles, m, hv⟩ | ⟨-, hwhole, hv⟩
    · exact absurd hfit (Nat.not_le.2 hlarge)
    · rw [hv]
      exact .of_failed hfit hgood hdangles m
    · simp only [hv, Except.bind, slice?_eq hbits (net.size_vector a)]
      refine .of_answered hfit hgood hwhole ?_
      rw [slice, Array.size_ofFn, length_freeModes hvalid.modes hvalid.nodup]
  · rw [hpattern]
    exact .of_invalid hfit (Query.malformed_iff.2 hbad) c

end Dense

end GateNetwork
