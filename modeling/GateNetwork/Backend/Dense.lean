import GateNetwork.Backend

/-!
# Dense contraction

The dense backend applies the operators of a network one at a time to the vector of the all-zero
state. Two buffers of `2^n` amplitudes lie side by side in the scratch pool; each operator reads one
and writes the other. A network too large for the pool is refused before any work is done, and that
also keeps every index within a word.
-/

namespace GateNetwork

namespace Dense

/-- The bytes of two buffers for a register, the largest word if they cannot be counted. -/
def workspace (qubits : Nat) : Nat :=
  match dimension? qubits with
  | none => maxWord
  | some dim => min (2 * amplitudeBytes * dim) maxWord

/-- The two buffers. -/
structure Buffers (α : Type) where
  /-- The amplitudes after the operators applied so far. -/
  current : Array α
  /-- The buffer that the next operator writes. -/
  next : Array α
  /-- Whether the current amplitudes lie in the second half of the cells. -/
  swapped : Bool

namespace Buffers

variable {α : Type}

/-- The amplitudes of the all-zero state: one at index zero, and zero elsewhere. -/
def zeroState [Zero α] [One α] (dim : Nat) : Array α :=
  Array.ofFn fun i : Fin dim => if i.val = 0 then 1 else 0

/-- The buffers in freshly leased cells: the first half set to the all-zero state, the second as it
was found. -/
def ofCells [Zero α] [One α] (cells : Array α) : Buffers α :=
  let dim := cells.size / 2
  ⟨zeroState dim, cells.extract dim (dim + dim), false⟩

/-- The cells that the buffers lie in. -/
def cells (b : Buffers α) : Array α :=
  if b.swapped then b.next ++ b.current else b.current ++ b.next

/-- The buffers after `v` was written, which is current now. -/
def advance (b : Buffers α) (v : Array α) : Buffers α := ⟨v, b.current, !b.swapped⟩

variable [Zero α] [Add α] [Mul α] [Conj α]

/-- Applies operators in order. A tensor that is not stored any more ends the run; the operators
before it stay applied. -/
def run (a : Arena α) : List Operator → Buffers α → Except Error Unit × Buffers α
  | [], b => (.ok (), b)
  | op :: ops, b =>
    match a.get op.tensor with
    | .error e => (.error (.backend e.message), b)
    | .ok t =>
      match (op.action t).on? b.current with
      | none => (.error .outOfBounds, b)
      | some v => run a ops (b.advance v)

end Buffers

variable {α ρ σ : Type} [Zero α] [One α] [Add α] [Mul α] [Conj α]

/-- Contracts a network into its state vector, within the scratch pool. -/
def contract (a : Arena α) (net : Network) : Attempt Error (Bench α σ) (Array α) := fun bench =>
  match bench.scratch.lease (workspace net.qubits) with
  | .error e => .error e bench
  | .ok (cells, scratch) =>
    let (outcome, buffers) := (Buffers.ofCells cells).run a net.ops
    let bench := { bench with scratch := scratch.giveBack buffers.cells }
    match outcome with
    | .ok () => .ok buffers.current bench
    | .error e => .error e bench

/-- The amplitudes of a vector over the free modes, where the pinned ones have the given bits. -/
def slice? (qubits pinned bits : Nat) (v : Array α) : Option (Array α) :=
  let free := (List.range qubits).filter fun q => !pinned.testBit q
  (Array.range (twoPow free.length)).mapM fun k => v[bits ||| spread free k]?

variable [Magnitude α ρ] [Zero ρ] [Add ρ]

/-- Contracts a network and keeps the amplitudes that a query leaves free. -/
def access (a : Arena α) (net : Network) (q : Query) :
    Attempt Error (Bench α σ) (Slice α ρ) := do
  let bench ← get
  Attempt.ofExcept (bench.scratch.check (workspace net.qubits))
  let (pinned, bits) ← Attempt.ofExcept (q.pattern net.qubits)
  let v ← contract a net
  match slice? net.qubits pinned bits v with
  | some amplitudes => return ⟨amplitudes, normSqByHalves v⟩
  | none => throw .outOfBounds

/-- The dense backend. It keeps no state of its own, so it works with any. -/
def backend : Backend α ρ σ where
  workspace net := workspace net.qubits
  materialize := contract
  access := access

end Dense

end GateNetwork
