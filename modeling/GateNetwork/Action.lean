import GateNetwork.Tensor
import GateNetwork.Wires

/-!
# Actions on a state vector

An action is a matrix on some wires of a register, under the control of others. It is what is left
of an operator once its tensor has been fetched and brought into the form in which it is applied.
-/

namespace GateNetwork

/-- A matrix applied to a register. -/
structure Action (α : Type) where
  /-- The wires that the matrix acts on, the first one being its lowest index bit. -/
  targets : List Nat
  /-- The wires that must all be one for the matrix to be applied. -/
  controls : List Nat
  /-- The matrix. -/
  matrix : Tensor α

namespace Action

variable {α : Type} [Zero α] [Add α] [Mul α]

/-- The product of one matrix row with the amplitudes at `base` combined with each column's offset,
added up from zero in column order. There is no result if an entry or an amplitude is missing. -/
def rowProduct? (m : Tensor α) (row base : Nat) (offsets : List Nat) (v : Array α) : Option α :=
  offsets.zipIdx.foldlM
    (fun total (offset, col) => do
      let entry ← m.get? row col
      let amplitude ← v[base ||| offset]?
      return total + entry * amplitude)
    0

/-- The amplitude at index `i` after the action: unchanged where a control is zero, and otherwise
the row of the index's target bits times the amplitudes that differ from `i` in these bits only. -/
def amplitudeAt? (x : Action α) (offsets : List Nat) (v : Array α) (i : Nat) : Option α :=
  if allSet x.controls i then
    rowProduct? x.matrix (collect x.targets i) (clear x.targets i) offsets v
  else v[i]?

/-- The vector after the action. -/
def on? (x : Action α) (v : Array α) : Option (Array α) :=
  let offsets := (List.range (twoPow x.targets.length)).map (spread x.targets)
  (Array.range v.size).mapM (x.amplitudeAt? offsets v)

end Action

end GateNetwork
