import GateNetwork.Amplitude
import GateNetwork.Proofs.DenseErrors

/-!
# Contracting with machine words

A machine computes the masks, indices and sizes of a contraction in 64-bit words, and it stops at a
shift by a whole word or more, at a sum that no word holds, and at a place outside of what it reads
or writes. Here the dense backend is written out in such steps, one that has no result where a
machine would stop. Over the networks that appends built it always has the result of the plain
evaluation: nothing is shifted before the workspace is granted, and the workspace of a wide register
never is. Memory is no such stop: what the pool may lease is taken to be there.
-/

namespace GateNetwork

/-! ## Steps that a machine may stop at -/

namespace Word

def add? (w v : Nat) : Option Nat := if w + v < wordBound then some (w + v) else none

def mul? (w v : Nat) : Option Nat := if w * v < wordBound then some (w * v) else none

/-- The bits that leave the word are dropped. -/
def shiftLeft? (w places : Nat) : Option Nat :=
  if places < 64 then some ((w <<< places) % wordBound) else none

def shiftRight? (w places : Nat) : Option Nat := if places < 64 then some (w >>> places) else none

def complement (w : Nat) : Nat := maxWord ^^^ w

/-- The quotient, rounded up. -/
def divCeil? (w v : Nat) : Option Nat :=
  if v = 0 then none
  else if 0 < w % v then add? (w / v) 1
  else some (w / v)

/-- The leading places of a buffer. -/
def leading? {α : Type} (v : Array α) (places : Nat) : Option (Array α) :=
  if places ≤ v.size then some (v.extract 0 places) else none

/-- A buffer cut in two. -/
def cut? {α : Type} (v : Array α) (place : Nat) : Option (Array α × Array α) :=
  if place ≤ v.size then some (v.extract 0 place, v.extract place v.size) else none

def write? {α : Type} (v : Array α) (place : Nat) (value : α) : Option (Array α) :=
  if place < v.size then some (v.setIfInBounds place value) else none

/-! ## Masks and indices -/

/-- Sets a bit of `w` to the bit of `v` at another place. -/
def moveBit? (w v source target : Nat) : Option Nat := do
  let bit := (← shiftRight? v source) &&& 1
  return w ||| (← shiftLeft? bit target)

def mask? (qs : List Nat) : Option Nat :=
  qs.foldlM (fun m q => do return m ||| (← shiftLeft? 1 q)) 0

/-- The index `base` with the bits of `k` at the wires. -/
def spread? (qs : List Nat) (base k : Nat) : Option Nat :=
  qs.zipIdx.foldlM (fun index (q, b) => moveBit? index k b q) base

/-- The number that the bits of `i` at the wires make. -/
def collect? (qs : List Nat) (i : Nat) : Option Nat :=
  qs.zipIdx.foldlM (fun k (q, b) => moveBit? k i q b) 0

/-- The modes that a mask of pins leaves free. -/
def freeModes? (qubits pinned : Nat) : Option (List Nat) :=
  (List.range qubits).foldlM
    (fun free q => do return if pinned &&& (← shiftLeft? 1 q) = 0 then free ++ [q] else free) []

/-! ## The backend -/

section

variable {α ρ : Type} [Zero α] [Add α] [Mul α]

/-- The amplitude after an action whose masks and offsets are at hand. -/
def amplitudeAt? (x : Action α) (targets controls : Nat) (offsets : List Nat) (v : Array α)
    (i : Nat) : Option α :=
  if i &&& controls ≠ controls then v[i]?
  else do
    let row ← collect? x.targets i
    Action.rowProduct? x.matrix row (i &&& complement targets) offsets v

/-- Writes the vector after an action over another buffer. -/
def on? (x : Action α) (current next : Array α) : Option (Array α) := do
  let targets ← mask? x.targets
  let controls ← mask? x.controls
  let columns ← shiftLeft? 1 x.targets.length
  let offsets ← (List.range columns).mapM (spread? x.targets 0)
  (Array.range next.size).mapM (amplitudeAt? x targets controls offsets current)

variable [Conj α]

/-- Applies operators in order, from one buffer into the other. -/
def run? (a : Arena α) : List Operator → Array α → Array α → Option (Except Error (Array α))
  | [], current, _ => some (.ok current)
  | op :: ops, current, next =>
    match a.get op.tensor with
    | .error e => some (.error (.backend e.message))
    | .ok t => do
      let v ← on? (op.action t) current next
      run? a ops v current

/-- The bytes of two buffers. The largest word stands for a product that no word holds. -/
def workspace (qubits : Nat) : Nat :=
  ((shiftLeft? 1 qubits).bind fun dim => mul? dim (2 * amplitudeBytes)).getD maxWord

/-- The leading cells of the pool for the given number of bytes. Committing them stops nowhere: memory
within the capacity of the pool is taken to be there. -/
def lease? (scratch : Scratch α) (bytes : Nat) : Option (Array α) := do
  let cells ← divCeil? bytes amplitudeBytes
  leading? (scratch.commit cells).memory cells

variable [One α]

/-- The two buffers in a lease, the first one set to the all-zero state. -/
def halves? (lease : Array α) : Option (Array α × Array α) := do
  let dim := lease.size / 2
  let (front, back) ← cut? lease dim
  let next ← leading? back dim
  let current ← write? (front.map fun _ => 0) 0 1
  return (current, next)

/-- Contracts a network within the scratch pool. -/
def contract? (a : Arena α) (net : Network) (scratch : Scratch α) :
    Option (Except Error (Array α)) :=
  match scratch.check (workspace net.qubits) with
  | .error e => some (.error e)
  | .ok () => do
    let lease ← lease? scratch (workspace net.qubits)
    let (current, next) ← halves? lease
    run? a net.ops current next

/-- Reads pins one by one, given the mask of the modes pinned so far and the bits they are pinned
to. -/
def readPins? (qubits : Nat) :
    List (Nat × Nat) → Nat → Nat → Option (Except Error (Nat × Nat))
  | [], pinned, bits => some (.ok (pinned, bits))
  | (mode, value) :: pins, pinned, bits =>
    if qubits ≤ mode ∨ 64 ≤ mode then some (.error (.invalid (.pinRange mode qubits)))
    else if 1 < value then some (.error (.invalid (.pinValue value)))
    else do
      let bit ← shiftLeft? 1 mode
      if pinned &&& bit ≠ 0 then some (.error (.invalid (.pinTwice mode)))
      else do
        let digit ← shiftLeft? value mode
        readPins? qubits pins (pinned ||| bit) (bits ||| digit)

def pattern? (q : Query) (qubits : Nat) : Option (Except Error (Nat × Nat)) :=
  if q.modes.length ≠ q.values.length then
    some (.error (.invalid (.pinLists q.modes.length q.values.length)))
  else readPins? qubits (q.modes.zip q.values) 0 0

/-- The amplitudes of a vector over the free modes. -/
def slice? (free : List Nat) (bits : Nat) (v : Array α) : Option (Array α) := do
  let count ← shiftLeft? 1 free.length
  (Array.range count).mapM fun k => do v[← spread? free bits k]?

variable [Magnitude α ρ] [Zero ρ] [Add ρ]

/-- Contracts a network and keeps the amplitudes that a query leaves free. -/
def access? (a : Arena α) (net : Network) (q : Query) (scratch : Scratch α) :
    Option (Except Error (Slice α ρ)) :=
  match scratch.check (workspace net.qubits) with
  | .error e => some (.error e)
  | .ok () => do
    match ← pattern? q net.qubits with
    | .error e => some (.error e)
    | .ok (pinned, bits) => do
      let free ← freeModes? net.qubits pinned
      match ← contract? a net scratch with
      | .error e => some (.error e)
      | .ok v => do
        let amplitudes ← slice? free bits v
        return .ok ⟨amplitudes, normSqByHalves v⟩

end

/-! ## Steps that have a result -/

theorem shiftLeft?_eq {w places : Nat} (hplaces : places < 64) (hw : w <<< places < 2 ^ 64) :
    shiftLeft? w places = some (w <<< places) := by
  rw [shiftLeft?, if_pos hplaces]
  exact congrArg some (Nat.mod_eq_of_lt hw)

theorem shiftLeft?_bit {bit place : Nat} (hbit : bit ≤ 1) (hplace : place < 64) :
    shiftLeft? bit place = some (bit <<< place) :=
  shiftLeft?_eq hplace (digit_shiftLeft_lt hbit hplace)

theorem moveBit?_eq {source target : Nat} (hsource : source < 64) (htarget : target < 64)
    (w v : Nat) : moveBit? w v source target = some (w ||| ((v >>> source) % 2) <<< target) := by
  have hbit : (v >>> source) % 2 ≤ 1 := Nat.le_of_lt_succ (Nat.mod_lt _ (by decide))
  have hshift := shiftLeft?_bit hbit htarget
  rw [moveBit?, shiftRight?, if_pos hsource]
  simp only [Option.bind_eq_bind, Option.bind_some, Nat.and_one_is_mod, hshift]
  rfl

theorem workspace_eq (n : Nat) : workspace n = Dense.workspace n := by
  have hside : 2 * amplitudeBytes = 32 := rfl
  have hbound : wordBound = 2 ^ 64 := rfl
  have hmax : maxWord = 2 ^ 64 - 1 := rfl
  rw [workspace, Dense.workspace_eq_min, hside, hmax]
  rcases Nat.lt_or_ge n 64 with hn | hn
  · rw [shiftLeft?_bit le_rfl hn, Nat.one_shiftLeft, Option.bind_some, mul?, hbound]
    split
    · rw [Option.getD_some]
      omega
    · rw [Option.getD_none]
      omega
  · have hpow : 2 ^ 64 ≤ 2 ^ n := Nat.pow_le_pow_right (by decide) hn
    rw [shiftLeft?, if_neg (Nat.not_lt.2 hn), Option.bind_none, Option.getD_none]
    omega

theorem divCeil?_amplitudeBytes {bytes : Nat} (hbytes : bytes < 2 ^ 64) :
    divCeil? bytes amplitudeBytes = some (Scratch.cellsFor bytes) := by
  have hcells : Scratch.cellsFor bytes = (bytes + 15) / 16 := rfl
  rw [divCeil?, if_neg (by decide), hcells]
  split
  · rename_i hrest
    have hrest : 0 < bytes % 16 := hrest
    rw [add?, if_pos]
    · exact congrArg some (by show bytes / 16 + 1 = _; omega)
    · show bytes / 16 + 1 < 2 ^ 64
      omega
  · rename_i hrest
    have hrest : ¬ 0 < bytes % 16 := hrest
    exact congrArg some (by show bytes / 16 = _; omega)

/-! ## Masks and indices that have a result -/

theorem mask?_eq {qs : List Nat} (hqs : ∀ q ∈ qs, q < 64) : mask? qs = some (mask qs) := by
  have hstep : ∀ m, ∀ q ∈ qs, (do return m ||| (← shiftLeft? 1 q)) = some (m ||| 1 <<< q) := by
    intro m q hq
    rw [shiftLeft?_bit le_rfl (hqs q hq)]
    rfl
  have hfold (m : Nat) : qs.foldl (fun m q => m ||| 1 <<< q) m = m ||| mask qs := by
    clear hqs hstep
    induction qs generalizing m with
    | nil => exact (Nat.or_zero m).symm
    | cons q qs ih => rw [List.foldl_cons, ih, mask, Nat.or_assoc]
  rw [mask?, foldlM_eq_some_foldl hstep, hfold, Nat.zero_or]

theorem spread?_from {qs : List Nat} (hqs : ∀ q ∈ qs, q < 64) {start : Nat}
    (hlen : start + qs.length ≤ 64) (base k : Nat) :
    (qs.zipIdx start).foldlM (fun index (q, b) => moveBit? index k b q) base =
      some (base ||| spread qs (k >>> start)) := by
  induction qs generalizing start base with
  | nil => exact congrArg some (Nat.or_zero base).symm
  | cons q qs ih =>
    rw [List.length_cons] at hlen
    have hmove := moveBit?_eq (by omega : start < 64) (hqs q List.mem_cons_self) base k
    rw [List.zipIdx_cons, List.foldlM_cons]
    simp only [hmove]
    refine (ih (fun p hp => hqs p (List.mem_cons_of_mem q hp)) (by omega) _).trans ?_
    rw [spread, Nat.or_assoc, Nat.shiftRight_succ]

theorem spread?_eq {qs : List Nat} (hqs : ∀ q ∈ qs, q < 64) (hlen : qs.length ≤ 64)
    (base k : Nat) : spread? qs base k = some (base ||| spread qs k) := by
  have hfrom := spread?_from hqs (by omega : 0 + qs.length ≤ 64) base k
  rwa [Nat.shiftRight_zero] at hfrom

theorem collect?_from {qs : List Nat} (hqs : ∀ q ∈ qs, q < 64) {start : Nat}
    (hlen : start + qs.length ≤ 64) (low i : Nat) :
    (qs.zipIdx start).foldlM (fun k (q, b) => moveBit? k i q b) low =
      some (low ||| collect qs i <<< start) := by
  induction qs generalizing start low with
  | nil => simp [collect]
  | cons q qs ih =>
    rw [List.length_cons] at hlen
    have hmove := moveBit?_eq (hqs q List.mem_cons_self) (by omega : start < 64) low i
    have hbit : (i >>> q) % 2 ≤ 1 := Nat.le_of_lt_succ (Nat.mod_lt _ (by decide))
    rw [List.zipIdx_cons, List.foldlM_cons]
    simp only [hmove]
    refine (ih (fun p hp => hqs p (List.mem_cons_of_mem q hp)) (by omega) _).trans ?_
    rw [collect, Nat.or_assoc, shiftLeft_or_shiftLeft_succ hbit, Nat.add_comm]

theorem collect?_eq {qs : List Nat} (hqs : ∀ q ∈ qs, q < 64) (hlen : qs.length ≤ 64) (i : Nat) :
    collect? qs i = some (collect qs i) := by
  have hfrom := collect?_from hqs (by omega : 0 + qs.length ≤ 64) 0 i
  rwa [Nat.zero_or, Nat.shiftLeft_zero] at hfrom

/-- Clearing the targets of an index. -/
theorem and_complement_mask (qs : List Nat) {i : Nat} (hi : i < 2 ^ 64) :
    i &&& complement (mask qs) = clear qs i := by
  refine Nat.eq_of_testBit_eq fun p => ?_
  have hmax : maxWord.testBit p = decide (p < 64) := Nat.testBit_two_pow_sub_one 64 p
  rw [Nat.testBit_and, complement, Nat.testBit_xor, hmax, testBit_mask, testBit_clear]
  by_cases hp : p < 64
  · by_cases hmem : p ∈ qs <;> simp [hp, hmem]
  · have hbit : i.testBit p = false := testBit_of_ge hi (Nat.not_lt.1 hp)
    simp [hbit]

theorem freeModes?_eq {n : Nat} (hn : n ≤ 64) (pinned : Nat) :
    freeModes? n pinned = some (Dense.freeModes n pinned) := by
  have hstep : ∀ free : List Nat, ∀ q ∈ List.range n,
      (do return if pinned &&& (← shiftLeft? 1 q) = 0 then free ++ [q] else free) =
        some (if !pinned.testBit q then free ++ [q] else free) := by
    intro free q hq
    have hlt := List.mem_range.1 hq
    have hfree : pinned &&& 2 ^ q = 0 ↔ (!pinned.testBit q) = true := by
      rw [Nat.and_two_pow]
      cases pinned.testBit q <;> simp
    rw [shiftLeft?_bit le_rfl (by omega), Nat.one_shiftLeft]
    simp only [Option.bind_eq_bind, Option.bind_some, hfree]
    rfl
  rw [freeModes?, foldlM_eq_some_foldl hstep, Dense.freeModes, ← List.foldl_filter,
    List.foldl_append_eq_append, List.nil_append, ← List.flatMap_def, List.flatMap_singleton']

/-! ## Contractions without a fault -/

section

variable {α ρ σ : Type} [Zero α] [Add α] [Mul α] {x : Action α} {n : Nat}

theorem amplitudeAt?_eq (hx : x.Fits n) (hn : n ≤ 64) (offsets : List Nat) (v : Array α) {i : Nat}
    (hi : i < 2 ^ n) : amplitudeAt? x (mask x.targets) (mask x.controls) offsets v i =
      x.amplitudeAt? offsets v i := by
  have hwide : i < 2 ^ 64 := hi.trans_le (Nat.pow_le_pow_right (by decide) hn)
  have htargets : ∀ q ∈ x.targets, q < 64 := fun q hq => (hx.target_lt q hq).trans_le hn
  rw [amplitudeAt?, Action.amplitudeAt?]
  by_cases hcontrols : allSet x.controls i = true
  · rw [if_neg (not_not.2 (and_mask_eq_iff.2 hcontrols)), if_pos hcontrols,
      collect?_eq htargets (hx.length_targets_le.trans hn), and_complement_mask _ hwide]
    rfl
  · rw [if_pos (fun h => hcontrols (and_mask_eq_iff.1 h)), if_neg hcontrols]

/-- An action that fits finds what it reads, and writes all of the other buffer. -/
theorem on?_eq (hx : x.Fits n) (hn : n < 64) {current next : Array α}
    (hcurrent : current.size = 2 ^ n) (hnext : next.size = 2 ^ n) :
    on? x current next = some (x.apply current) := by
  have hlen : x.targets.length ≤ n := hx.length_targets_le
  have htargets : ∀ q ∈ x.targets, q < 64 := fun q hq => (hx.target_lt q hq).trans hn
  have hcontrols : ∀ q ∈ x.controls, q < 64 := fun q hq =>
    (hx.lt q (List.mem_append_right _ hq)).trans hn
  have hcolumns : shiftLeft? 1 x.targets.length = some (2 ^ x.targets.length) := by
    rw [shiftLeft?_bit le_rfl (by omega), Nat.one_shiftLeft]
  have hoffsets : (List.range (2 ^ x.targets.length)).mapM (spread? x.targets 0) =
      some ((List.range (2 ^ x.targets.length)).map (spread x.targets)) := by
    refine mapM_eq_some_map fun k _ => ?_
    rw [spread?_eq htargets (by omega), Nat.zero_or]
  rw [on?, mask?_eq htargets, mask?_eq hcontrols, hcolumns]
  simp only [Option.bind_eq_bind, Option.bind_some, hoffsets]
  rw [hnext, ← hcurrent]
  refine mapM_range_eq_some fun i hi => ?_
  rw [hcurrent] at hi
  rw [amplitudeAt?_eq hx hn.le _ _ hi]
  exact Action.amplitudeAt?_eq hx hcurrent hi

variable [Conj α] {a : Arena α} {net : Network}

/-- A run over buffers of the right size stops only at a tensor that is gone. -/
theorem run?_eq (hn : n < 64) {ops : List Operator} (h : ∀ op ∈ ops, op.FitsOrDead a n)
    (b : Dense.Buffers α) (hcurrent : b.current.size = 2 ^ n) (hnext : b.next.size = 2 ^ n) :
    run? a ops b.current b.next =
      some ((b.run a ops).1.map fun _ => (b.run a ops).2.current) := by
  induction ops generalizing b with
  | nil => rfl
  | cons op ops ih =>
    rw [run?, Dense.Buffers.run]
    rcases h op List.mem_cons_self with hfits | ⟨e, he⟩
    · obtain ⟨t, hget, -⟩ := hfits.stored
      have hx : (op.action t).Fits n := by
        rw [← Arena.tensorD_of_get hget]
        exact hfits.action
      -- The operator reads one buffer and writes the other, so the sizes of both are carried along.
      have hrest := ih (fun o ho => h o (List.mem_cons_of_mem op ho))
        (b.advance ((op.action t).apply b.current))
        (by simpa [Dense.Buffers.advance] using hcurrent) hcurrent
      simp only [hget, on?_eq hx hn hcurrent hnext, Action.on?_eq hx hcurrent,
        Option.bind_eq_bind, Option.bind_some]
      exact hrest
    · simp only [he]
      rfl

variable [One α]

omit [Add α] [Mul α] [Conj α] in
/-- The first buffer with its first place overwritten is the all-zero state. -/
theorem write?_zeros {v : Array α} (hv : 0 < v.size) :
    write? (v.map fun _ => (0 : α)) 0 1 = some (Dense.Buffers.zeroState v.size) := by
  have hplace : 0 < (v.map fun _ => (0 : α)).size := by simpa using hv
  rw [write?, if_pos hplace, Dense.Buffers.zeroState]
  refine congrArg some (Array.ext (by simp) fun i hi hi' => ?_)
  rw [Array.getElem_setIfInBounds (by simpa using hi)]
  rcases Nat.eq_zero_or_pos i with rfl | hpos
  · simp
  · simp [hpos.ne, hpos.ne']

omit [Add α] [Mul α] [Conj α] [One α] in
theorem lease?_eq {s : Scratch α} {bytes : Nat} (hfit : bytes ≤ s.capacity) :
    ∃ cells scratch, lease? s bytes = some cells ∧ s.lease bytes = .ok (cells, scratch) ∧
      cells.size = Scratch.cellsFor bytes := by
  obtain ⟨cells, memory, hlease, hsize⟩ := Scratch.lease_ok hfit
  refine ⟨cells, _, ?_, hlease, hsize⟩
  rw [Scratch.lease, Scratch.check_ok hfit] at hlease
  have hcells := congrArg Prod.fst (Except.ok.inj hlease)
  rw [lease?, divCeil?_amplitudeBytes (hfit.trans_lt (capacity_lt s))]
  simp only [Option.bind_eq_bind, Option.bind_some]
  rw [leading?, if_pos (s.le_size_commit _)]
  exact congrArg some hcells

omit [Add α] [Mul α] [Conj α] in
/-- Both buffers lie within a lease of two cells or more. -/
theorem halves?_eq {lease : Array α} (hlease : 2 ≤ lease.size) :
    halves? lease =
      some ((Dense.Buffers.ofCells lease).current, (Dense.Buffers.ofCells lease).next) := by
  rw [halves?, Dense.Buffers.ofCells]
  generalize hdim : lease.size / 2 = dim
  have hcut : cut? lease dim = some (lease.extract 0 dim, lease.extract dim lease.size) := by
    rw [cut?, if_pos (by omega)]
  have hback : leading? (lease.extract dim lease.size) dim =
      some (lease.extract dim (dim + dim)) := by
    have hsize : (lease.extract dim lease.size).size = lease.size - dim := by simp
    rw [leading?, if_pos (by omega), Array.extract_extract, Nat.add_zero,
      Nat.min_eq_left (by omega)]
  have hfront : (lease.extract 0 dim).size = dim := by
    rw [Array.size_extract]
    omega
  have hwrite := write?_zeros (v := lease.extract 0 dim) (by omega)
  rw [hfront] at hwrite
  simp only [hcut, hback, hwrite, Option.bind_eq_bind, Option.bind_some]
  rfl

/-- Contracting in machine words gives what the plain contraction gives. -/
theorem contract?_eq (h : ∀ op ∈ net.ops, op.FitsOrDead a net.qubits) (bench : Bench α σ) :
    contract? a net bench.scratch = some ((Dense.contract a net).outcome bench) := by
  rw [contract?, Attempt.outcome, Dense.contract, workspace_eq]
  rcases Nat.lt_or_ge bench.scratch.capacity (Dense.workspace net.qubits) with hlarge | hfit
  · rw [Scratch.lease_error hlarge, Scratch.check_error hlarge]
  · have hn : net.qubits < 59 := Dense.lt_of_workspace_le hfit
    obtain ⟨cells, scratch, hcells, hlease, hsize⟩ := lease?_eq hfit
    obtain ⟨hdim, hcurrent⟩ := Dense.size_current_ofCells hn hsize
    have hpos : 0 < 2 ^ net.qubits := Nat.two_pow_pos net.qubits
    have hnext : (Dense.Buffers.ofCells cells).next.size = 2 ^ net.qubits := by
      rw [Dense.Buffers.ofCells, hdim, Array.size_extract]
      omega
    have hrun := run?_eq (by omega) h (Dense.Buffers.ofCells cells) hcurrent hnext
    rw [Scratch.check_ok hfit]
    simp only [hcells, hlease, halves?_eq (by omega : 2 ≤ cells.size), hrun,
      Option.bind_eq_bind, Option.bind_some]
    rcases (Dense.Buffers.ofCells cells).run a net.ops with ⟨outcome, buffers⟩
    cases outcome <;> rfl

/-! ## Accesses without a fault -/

omit [Zero α] [Add α] [Mul α] [Conj α] [One α] in
theorem readPins?_eq (n : Nat) (pins : List (Nat × Nat)) (pinned bits : Nat) :
    readPins? n pins pinned bits = some (Query.readPins n pins pinned bits) := by
  induction pins generalizing pinned bits with
  | nil => rfl
  | cons pin pins ih =>
    obtain ⟨mode, value⟩ := pin
    rw [readPins?, Query.readPins]
    by_cases hmode : n ≤ mode ∨ 64 ≤ mode
    · rw [if_pos hmode, if_pos hmode]
    rw [if_neg hmode, if_neg hmode]
    by_cases hvalue : 1 < value
    · rw [if_pos hvalue, if_pos hvalue]
    rw [if_neg hvalue, if_neg hvalue, shiftLeft?_bit le_rfl (by omega),
      shiftLeft?_bit (by omega) (by omega)]
    have htwice : pinned &&& 1 <<< mode ≠ 0 ↔ pinned.testBit mode = true := by
      rw [Nat.one_shiftLeft, Nat.and_two_pow]
      cases pinned.testBit mode <;> simp
    simp only [Option.bind_eq_bind, Option.bind_some, htwice, ih]
    split <;> rfl

theorem pattern?_eq (q : Query) (n : Nat) : pattern? q n = some (q.pattern n) := by
  rw [pattern?, Query.pattern, readPins?_eq]
  split <;> rfl

omit [Add α] [Mul α] [Conj α] [One α] in
/-- Reading the free amplitudes finds each of them. -/
theorem slice?_eq (hn : n < 64) {pinned bits : Nat} (hbits : bits < 2 ^ n) {v : Array α}
    (hv : v.size = 2 ^ n) :
    slice? (Dense.freeModes n pinned) bits v = some (Dense.slice n pinned bits v) := by
  have hfree : ∀ q ∈ Dense.freeModes n pinned, q < 64 := fun q hq =>
    (Dense.freeModes_lt q hq).trans hn
  have hlen : (Dense.freeModes n pinned).length ≤ n := by
    have hle := List.length_filter_le (fun q => !pinned.testBit q) (List.range n)
    rwa [List.length_range] at hle
  rw [slice?, shiftLeft?_bit le_rfl (by omega), Nat.one_shiftLeft]
  refine mapM_range_eq_some
    (g := fun k => v.getD (bits ||| spread (Dense.freeModes n pinned) k) 0) fun k _ => ?_
  have hread : bits ||| spread (Dense.freeModes n pinned) k < v.size :=
    hv ▸ Nat.or_lt_two_pow hbits (spread_lt Dense.freeModes_lt k)
  rw [spread?_eq hfree (by omega)]
  exact getElem?_eq_some_getD hread

variable [Magnitude α ρ] [Zero ρ] [Add ρ]

/-- Accessing in machine words gives what the plain access gives. -/
theorem access?_eq (h : ∀ op ∈ net.ops, op.FitsOrDead a net.qubits) (q : Query)
    (bench : Bench α σ) : access? a net q bench.scratch =
      some ((Dense.access a net q : Attempt Error (Bench α σ) (Slice α ρ)).outcome bench) := by
  rw [access?, Dense.outcome_access, workspace_eq]
  rcases Nat.lt_or_ge bench.scratch.capacity (Dense.workspace net.qubits) with hlarge | hfit
  · rw [Scratch.check_error hlarge]
    rfl
  have hn : net.qubits < 59 := Dense.lt_of_workspace_le hfit
  rw [Scratch.check_ok hfit]
  simp only [pattern?_eq, contract?_eq h bench, Option.bind_eq_bind, Option.bind_some, Except.bind]
  rcases Query.pattern_cases (q := q) (by omega : net.qubits ≤ 64) with
    ⟨-, bits, hpattern, hbits⟩ | ⟨-, c, hpattern⟩
  · simp only [hpattern, freeModes?_eq (by omega : net.qubits ≤ 64), Option.bind_some]
    rcases Dense.outcome_contract_cases h bench with ⟨-, hv⟩ | ⟨-, -, m, hv⟩ | ⟨-, -, hv⟩
    · rw [hv]
    · rw [hv]
    · have hsize := net.size_vector a
      simp only [hv, slice?_eq (by omega) hbits hsize, Dense.slice?_eq hbits hsize,
        Option.bind_some]
      rfl
  · simp only [hpattern]

/-- For every network that appends built, whatever became of its tensors since, for every pool and
every query: what an access and a contraction answer, the error that each of them gives and when,
and that computing them in machine words stops at no shift, sum or place short of it, provided that
the memory within the pool's capacity is there. -/
theorem evaluations_settled {entries : List (Operator × Tensor α)} (hnet : net.Appended entries)
    (ha : Network.OutlivedBy entries a) (bench : Bench α σ) (q : Query) :
    let backend : Backend α ρ σ := Dense.backend
    let required := min (32 * 2 ^ net.qubits) (2 ^ 64 - 1)
    let capacity := bench.scratch.capacity
    let slice := (backend.access a net q).outcome bench
    let vector := (backend.materialize a net).outcome bench
    Settled required capacity (q.Malformed net.qubits) (net.Dangles a)
        (fun s => s.amplitudes.size) (2 ^ (net.qubits - q.modes.length)) slice ∧
      Settled required capacity False (net.Dangles a) Array.size (2 ^ net.qubits) vector ∧
      access? a net q bench.scratch = some slice ∧
      contract? a net bench.scratch = some vector := by
  intro backend required capacity slice vector
  have hfits := hnet.fits_or_dead ha
  have hrequired : Dense.workspace net.qubits = required := Dense.workspace_eq_min net.qubits
  have hslice := Dense.access_settled (ρ := ρ) hfits q bench
  have hvector := Dense.contract_settled hfits bench
  rw [hrequired] at hslice hvector
  exact ⟨hslice, hvector, access?_eq hfits q bench, contract?_eq hfits bench⟩

end

/-- A network whose one tensor is gone, over a pool that just holds its buffers. -/
theorem evaluations_settled_gone :
    let a : Arena Amplitude := .empty 0
    let entries : List (Operator × Tensor Amplitude) :=
      [(⟨[1], [0], ⟨0, 0, 0⟩, .unitary, false⟩, Gate.x.matrix)]
    let bench : Bench Amplitude Unit := ⟨.ofBytes 128, ()⟩
    let backend : Backend Amplitude Float Unit := Dense.backend
    Network.negation.Appended entries ∧ Network.OutlivedBy entries a ∧
      (∃ m, (backend.access a .negation (.unpinned 0)).outcome bench = .error (.backend m)) ∧
      ∃ m, (backend.materialize a .negation).outcome bench = .error (.backend m) := by
  intro a entries bench backend
  have hfits := (Network.negation_built (1 : Amplitude)).fits _ (List.mem_singleton.2 rfl)
  have hnet : Network.negation.Appended entries :=
    .push (.empty 0 2) (Store.get_sample_negation 1) (Network.push_of_fits hfits)
  have ha : Network.OutlivedBy entries a := by
    intro e he
    obtain rfl := List.mem_singleton.1 he
    exact .inr ⟨_, rfl⟩
  have hdangles : Network.negation.Dangles a := ⟨_, List.mem_singleton.2 rfl, _, rfl⟩
  have hcapacity : min (32 * 2 ^ 2) (2 ^ 64 - 1) ≤ bench.scratch.capacity := by decide
  have hgood : ¬ (Query.unpinned 0).Malformed 2 := by simp [Query.Malformed, Query.unpinned]
  obtain ⟨hslice, hvector, -, -⟩ := evaluations_settled (ρ := Float) hnet ha bench (.unpinned 0)
  exact ⟨hnet, ha, hslice.failed.2 ⟨hcapacity, hgood, hdangles⟩,
    hvector.failed.2 ⟨hcapacity, not_false, hdangles⟩⟩

end Word

end GateNetwork
