import GateNetwork.Histogram
import GateNetwork.NetworkState

/-!
# Sampling

A basis state is drawn by inverting the cumulative distribution: a number from zero up to one is
scaled to the squared norm, and the first index whose cumulative weight exceeds it is the outcome.
-/

namespace GateNetwork

namespace Sampling

variable {α ρ τ : Type}

section Cumulative

variable [Magnitude α ρ] [Zero ρ] [Add ρ]

/-- The cumulative weights that follow a weight reached so far. -/
def cumulativeFrom (total : ρ) : List α → List ρ
  | [] => []
  | a :: as =>
    let total := total + normSq a
    total :: cumulativeFrom total as

/-- The cumulative weights of a vector, in index order. -/
def cumulative (v : Array α) : Array ρ := (cumulativeFrom (0 : ρ) v.toList).toArray

end Cumulative

variable [LE ρ] [DecidableLE ρ] [Mul ρ]

/-- The index that a drawn weight selects: the first whose cumulative weight is not at or below it,
and at most the last one. -/
def select (weights : Array ρ) (drawn : ρ) : Nat :=
  min (weights.findIdx fun p => !decide (p ≤ drawn)) (weights.size - 1)

/-- Draws a number of shots one after the other and records their basis states. -/
def draw (next : τ → ρ × τ) (qubits : Nat) (weights : Array ρ) (total : ρ) :
    Nat → Histogram → τ → Histogram × τ
  | 0, h, source => (h, source)
  | shots + 1, h, source =>
    let (u, source) := next source
    let index := select weights (u * total)
    draw next qubits weights total shots (h.record (basisText qubits index)) source

end Sampling

namespace NetworkState

variable {α ρ σ τ : Type} [Magnitude α ρ] [Zero ρ] [Add ρ] [LE ρ] [DecidableLE ρ]

/-- The cumulative weights that samples are drawn by, if there are shots and the squared norm is not
zero. -/
def weightsToDraw (b : Backend α ρ σ) (store : Store α) (shots : Nat) :
    Attempt Error (Desk α σ) (Array ρ) := do
  if shots = 0 then
    throw (.invalid .noShots)
  let v ← currentVector b store
  let weights := Sampling.cumulative v
  if weights.back?.getD 0 ≤ 0 then
    throw (.invalid .zeroNorm)
  return weights

/-- Draws basis states of a network state. The numbers come from a source, one per shot; unless all
shots can be drawn, the source is left as it was. -/
def sample [Mul ρ] (b : Backend α ρ σ) (store : Store α) (next : τ → ρ × τ) (shots : Nat) :
    Attempt Error (Desk α σ × τ) Histogram :=
  .beside (fun _ => weightsToDraw b store shots) fun weights desk source =>
    let total := weights.back?.getD 0
    let (h, source) := Sampling.draw next desk.state.qubits weights total shots .empty source
    (.ok h, source)

end NetworkState

end GateNetwork
