/-!
# Measurement outcomes
-/

namespace GateNetwork

/-- The outcome of measuring one qubit. -/
inductive Outcome where
  /-- The qubit was found in state 0. -/
  | zero
  /-- The qubit was found in state 1. -/
  | one
deriving DecidableEq

namespace Outcome

/-- The bit of an outcome. -/
def bit : Outcome → Nat
  | zero => 0
  | one => 1

/-- The text of an outcome, its bit. -/
def text (o : Outcome) : String := toString o.bit

/-- Outcomes are ordered by their bits. -/
instance : LT Outcome := ⟨fun a b => a.bit < b.bit⟩

instance (a b : Outcome) : Decidable (a < b) := Nat.decLt a.bit b.bit

end Outcome

end GateNetwork
