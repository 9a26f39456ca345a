import GateNetwork.NetworkState
import GateNetwork.Sink

/-!
# Dumps

A network state is written out one amplitude a line. The vector is had before the first line is
written, so a failed contraction writes nothing.
-/

namespace GateNetwork.NetworkState

variable {α ρ σ τ : Type}

/-- Writes the vector of a state to a sink, up to the first line that is refused. -/
def dump (b : Backend α ρ σ) (store : Store α) (s : NetworkState α) (line : α → String)
    (sink : Sink τ) : Attempt Error (Bench α σ × τ) Unit :=
  .beside (fun _ => s.vectorToDump b store) fun v _ t => sink.writeAll (v.toList.map line) t

end GateNetwork.NetworkState
