import GateNetwork.Arena

/-!
# Staged tensors

Tensors that are needed for one computation only are staged: they are allocated one by one and
released together, in the order in which they were staged.
-/

namespace GateNetwork

/-- The handles of the tensors staged so far. -/
structure Staging where
  /-- The handles, in the order of staging. -/
  handles : List Handle

namespace Staging

variable {α : Type}

/-- Nothing staged yet. -/
def empty : Staging := ⟨[]⟩

/-- Allocates a tensor that lives until the staging is closed. A rejected tensor changes neither the
arena nor the staging. -/
def stage (s : Staging) (a : Arena α) (t : Tensor α) :
    Except Error (Handle × Staging × Arena α) :=
  match a.allocate t with
  | .ok (h, b) => .ok (h, ⟨s.handles ++ [h]⟩, b)
  | .error e => .error e

/-- How many tensors were staged. -/
def count (s : Staging) : Nat := s.handles.length

/-- Releases what was staged. A tensor released earlier is left alone, also when its slot has a new
tensor by now. -/
def close (s : Staging) (a : Arena α) : Arena α := s.handles.foldl Arena.release a

end Staging

end GateNetwork
