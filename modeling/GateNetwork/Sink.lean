import GateNetwork.Error

/-!
# Sinks

A text is written to a sink line by line; a sink may refuse, and what it took before stays written.
-/

namespace GateNetwork

/-- A receiver of text with a state of type `τ`: given its state and a text it either takes the text
or gives a reason, and moves on to another state. -/
structure Sink (τ : Type) where
  /-- Offers a text to the receiver. -/
  write : τ → String → Except String Unit × τ

namespace Sink

variable {τ : Type}

/-- Writes texts in order, up to the first that is refused. -/
def writeAll (sink : Sink τ) : List String → τ → Except Error Unit × τ
  | [], t => (.ok (), t)
  | s :: rest, t =>
    match sink.write t s with
    | (.ok (), t) => writeAll sink rest t
    | (.error reason, t) => (.error (.sink reason), t)

end Sink

end GateNetwork
