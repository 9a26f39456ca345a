import GateNetwork.Error
import GateNetwork.Size

/-!
# Scratch memory

Contractions work in a pool of scratch memory of fixed capacity. Memory is committed when it is
first leased, filled with zeros, and keeps what was last written to it. The capacity is the only
limit here: what lies within it is taken to be there when it is asked for, also where an allocator
would run out or refuse a request beyond half the address space.
-/

namespace GateNetwork

/-- The values written over the leading places of `base`; places beyond the end of `base` are
dropped, places without a value keep theirs. -/
def overwrite {α : Type} (base values : Array α) : Array α :=
  values.extract 0 base.size ++ base.extract values.size base.size

theorem size_overwrite {α : Type} (base values : Array α) :
    (overwrite base values).size = base.size := by
  simp [overwrite]; omega

/-- What stands in each place after writing over the leading places. -/
theorem getElem?_overwrite {α : Type} (base values : Array α) (i : Nat) :
    (overwrite base values)[i]? =
      if i < base.size then (if i < values.size then values[i]? else base[i]?) else none := by
  by_cases hb : i < base.size
  · by_cases hv : i < values.size
    · rw [overwrite, Array.getElem?_append_left (by simp; omega), Array.getElem?_extract]
      simp only [hb, hv, if_true, Nat.zero_add]
      rw [if_pos (by omega)]
    · have hsize : (values.extract 0 base.size).size = values.size := by simp; omega
      rw [overwrite, Array.getElem?_append_right (by omega), hsize, Array.getElem?_extract,
        if_pos (by omega), Nat.add_sub_cancel' (by omega)]
      simp [hb, hv]
  · rw [Array.getElem?_eq_none (by rw [size_overwrite]; omega), if_neg hb]

/-- A pool of scratch memory. -/
structure Scratch (α : Type) where
  /-- The number of cells that may be leased, one scalar each. -/
  limit : Nat
  /-- The bytes of all these cells can be counted. -/
  limit_le : limit ≤ maxWord / amplitudeBytes
  /-- The cells committed so far. -/
  memory : Array α

namespace Scratch

variable {α : Type}

/-- The pool of at most the given number of bytes, as far as they can be counted, with nothing
committed. -/
def ofBytes (bytes : Nat) : Scratch α :=
  ⟨min bytes maxWord / amplitudeBytes, Nat.div_le_div_right (Nat.min_le_right _ _), #[]⟩

/-- The capacity in bytes, a whole number of cells. -/
def capacity (s : Scratch α) : Nat := s.limit * amplitudeBytes

/-- The number of cells that hold the given number of bytes. -/
def cellsFor (bytes : Nat) : Nat := (bytes + (amplitudeBytes - 1)) / amplitudeBytes

/-- Refuses a request beyond the capacity. -/
def check (s : Scratch α) (required : Nat) : Except Error Unit :=
  if s.capacity < required then .error (.workspace required s.capacity) else .ok ()

/-- Commits zeros until there are at least `cells` cells. -/
def commit [Zero α] (s : Scratch α) (cells : Nat) : Scratch α :=
  { s with memory := s.memory ++ Array.replicate (cells - s.memory.size) 0 }

/-- Leases the leading cells for the given number of bytes: their contents, and the pool with these
cells committed. Within the capacity the memory is taken to be there. -/
def lease [Zero α] (s : Scratch α) (required : Nat) : Except Error (Array α × Scratch α) :=
  match s.check required with
  | .ok () =>
    let committed := s.commit (cellsFor required)
    .ok (committed.memory.extract 0 (cellsFor required), committed)
  | .error e => .error e

/-- Ends a lease: the leading cells hold what was written to them. -/
def giveBack (s : Scratch α) (cells : Array α) : Scratch α :=
  { s with memory := overwrite s.memory cells }

/-- A line about the pool for diagnostics. -/
def text (s : Scratch α) : String := s!"ScratchPool \x7b capacity: {s.capacity} \x7d"

end Scratch

end GateNetwork
