/-!
# Handles of stored tensors

A handle names a tensor in an arena without owning it. It stays valid only as long as its slot keeps
the generation it was issued with.
-/

namespace GateNetwork

/-- A reference to a tensor: the arena that issued it, a slot of that arena, and the generation of
the slot at that moment. -/
structure Handle where
  /-- The number of the arena. -/
  arena : Nat
  /-- The slot within the arena. -/
  slot : Nat
  /-- The generation of the slot, a 32-bit counter that wraps around. -/
  generation : UInt32
deriving DecidableEq

/-- The text of a handle, such as `tensor#0.3g1`. -/
def Handle.text (h : Handle) : String :=
  s!"tensor#{h.arena}.{h.slot}g{h.generation.toNat}"

end GateNetwork
