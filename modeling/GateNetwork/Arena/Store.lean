import GateNetwork.Arena

/-!
# Stores

A store holds arenas by number. An arena taken from place `k` always has the number `k`, so handles
of different arenas never meet.
-/

namespace GateNetwork

/-- Arenas by number; a number without an arena stands for an empty one. -/
structure Store (α : Type) where
  /-- The arenas in the order of their numbers. -/
  arenas : Array (Arena α)

namespace Store

variable {α β : Type}

/-- The store without any tensor. -/
def empty : Store α := ⟨#[]⟩

/-- The arena of the given number. -/
def arena (s : Store α) (number : Nat) : Arena α :=
  (s.arenas.getD number (Arena.empty number)).renumber number

/-- Replaces the arena of the given number. -/
def put (s : Store α) (number : Nat) (a : Arena α) : Store α :=
  let missing := (Array.range (number + 1 - s.arenas.size)).map Arena.empty
  ⟨(s.arenas ++ missing).setIfInBounds number a⟩

/-- Allocates in the arena of the given number. -/
def allocate (s : Store α) (number : Nat) (t : Tensor α) : Except Error (Handle × Store α) :=
  match (s.arena number).allocate t with
  | .ok (h, a) => .ok (h, s.put number a)
  | .error e => .error e

/-- Releases a handle in the arena of the given number. -/
def release (s : Store α) (number : Nat) (h : Handle) : Store α :=
  s.put number ((s.arena number).release h)

@[simp] theorem number_arena (s : Store α) (k : Nat) : (s.arena k).number = k := rfl

/-- What was put at a number is found there. -/
theorem arena_put_same (s : Store α) (k : Nat) (a : Arena α) (h : a.number = k) :
    (s.put k a).arena k = a := by
  subst h
  have hk : a.number < s.arenas.size + (a.number + 1 - s.arenas.size) := by omega
  simp [arena, put, Array.getD, hk, Arena.renumber]

/-- Putting an arena at one number leaves the others alone. -/
theorem arena_put_other (s : Store α) {j k : Nat} (a : Arena α) (h : j ≠ k) :
    (s.put k a).arena j = s.arena j := by
  have hset : (s.put k a).arenas[j]? =
      (s.arenas ++ (Array.range (k + 1 - s.arenas.size)).map Arena.empty)[j]? := by
    simp [put, Ne.symm h]
  simp only [arena, Array.getD_eq_getD_getElem?, hset]
  by_cases hj : j < s.arenas.size
  · simp [Array.getElem?_append_left hj]
  · simp only [Array.getElem?_append_right (Nat.le_of_not_lt hj), Array.getElem?_map,
      Array.getElem?_eq_none (Nat.le_of_not_lt hj)]
    cases (Array.range (k + 1 - s.arenas.size))[j - s.arenas.size]? <;> rfl

end Store

end GateNetwork
