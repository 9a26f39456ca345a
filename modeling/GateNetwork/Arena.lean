import GateNetwork.Error
import GateNetwork.Tensor

/-!
# Arenas

An arena owns gate tensors in numbered slots and gives out handles to them. A released slot is put
on a stack and reused first; its generation has moved on by then, so an old handle does not reach
the new tensor until the generation, a 32-bit counter, has come round.
-/

namespace GateNetwork

/-- One place of an arena. -/
structure Slot (α : Type) where
  /-- How often the slot has been released, as a 32-bit counter. -/
  generation : UInt32
  /-- The tensor in the slot, unless the slot is free. -/
  tensor : Option (Tensor α)

/-- A list that names the slots without a tensor, each of them once. -/
structure ListsFree {α : Type} (slots : Array (Slot α)) (free : List Nat) : Prop where
  /-- No slot is named twice. -/
  nodup : free.Nodup
  /-- The named slots are those that hold no tensor. -/
  mem_iff : ∀ i, i ∈ free ↔ slots[i]?.any (·.tensor.isNone)

namespace ListsFree

variable {α : Type} {slots : Array (Slot α)} {free : List Nat}

/-- A new slot that holds a tensor is not free. -/
theorem push (h : ListsFree slots free) {s : Slot α} (hs : s.tensor.isSome) :
    ListsFree (slots.push s) free := by
  refine ⟨h.nodup, fun i => ?_⟩
  rw [h.mem_iff, Array.getElem?_push]
  split
  · rename_i hi
    simp [hi, Option.isNone_eq_false_iff.2 hs]
  · rfl

/-- Filling the slot at the head takes it off the list. -/
theorem fill {slot : Nat} (h : ListsFree slots (slot :: free)) (t : Tensor α) :
    ListsFree (slots.modify slot ({ · with tensor := some t })) free := by
  obtain ⟨hnot, hnodup⟩ := List.nodup_cons.1 h.nodup
  refine ⟨hnodup, fun i => ?_⟩
  rw [Array.getElem?_modify]
  split
  · rename_i hi
    subst hi
    cases slots[slot]? <;> simp [hnot]
  · rename_i hi
    rw [← h.mem_iff, List.mem_cons, or_iff_right (Ne.symm hi)]

/-- A slot that loses its tensor goes on the list. -/
theorem drop (h : ListsFree slots free) {slot : Nat} (hs : slots[slot]?.any (·.tensor.isSome)) :
    ListsFree (slots.modify slot fun s => ⟨s.generation + 1, none⟩) (slot :: free) := by
  have hnot : slot ∉ free := by
    rw [h.mem_iff]
    cases hget : slots[slot]? with
    | none => simp
    | some s => simpa [hget, Option.isSome_iff_ne_none] using hs
  refine ⟨List.nodup_cons.2 ⟨hnot, h.nodup⟩, fun i => ?_⟩
  rw [Array.getElem?_modify, List.mem_cons]
  split
  · rename_i hi
    subst hi
    cases hget : slots[slot]? with
    | none => simp [hget] at hs
    | some s => simp
  · rename_i hi
    rw [or_iff_right (Ne.symm hi), h.mem_iff]

end ListsFree

/-- A store of gate tensors. -/
structure Arena (α : Type) where
  /-- The number of the arena, which its handles carry. -/
  number : Nat
  /-- The slots ever made, live or free. -/
  slots : Array (Slot α)
  /-- The free slots, the one released last at the head. -/
  free : List Nat
  /-- The free slots are those without a tensor. -/
  lists_free : ListsFree slots free

namespace Arena

variable {α : Type}

/-- The arena of the given number, without any slot. -/
def empty (number : Nat) : Arena α := ⟨number, #[], [], List.nodup_nil, by simp⟩

/-- The arena under another number. -/
def renumber (a : Arena α) (number : Nat) : Arena α := { a with number := number }

/-- Whether a handle was issued by this arena. -/
def owns (a : Arena α) (h : Handle) : Bool := h.arena == a.number

/-- The tensor of a handle, if the handle's slot still has the handle's generation. -/
def find? (a : Arena α) (h : Handle) : Option (Tensor α) :=
  match a.slots[h.slot]? with
  | some slot => if slot.generation = h.generation then slot.tensor else none
  | none => none

/-- The slot of a handle that finds a tensor holds one. -/
theorem holds_of_find? (a : Arena α) {h : Handle} (hfind : (a.find? h).isSome) :
    a.slots[h.slot]?.any (·.tensor.isSome) := by
  unfold find? at hfind
  split at hfind
  · rename_i s hs
    split at hfind
    · rw [hs]; exact hfind
    · cases hfind
  · cases hfind

/-- The tensor that a handle names. Foreign handles and released tensors are different errors. -/
def get (a : Arena α) (h : Handle) : Except Error (Tensor α) :=
  if a.owns h then
    match a.find? h with
    | some t => .ok t
    | none => .error (.invalid (.releasedHandle h))
  else .error (.invalid (.foreignHandle h a.number))

/-- The generation of a slot, zero for a slot that is still to be made. -/
def generationAt (a : Arena α) (slot : Nat) : UInt32 :=
  match a.slots[slot]? with
  | some s => s.generation
  | none => 0

/-- Puts a tensor into the slot released last, or into a new one, and names it. -/
def store (a : Arena α) (t : Tensor α) : Handle × Arena α :=
  match hfree : a.free with
  | [] =>
    (⟨a.number, a.slots.size, 0⟩,
      { a with slots := a.slots.push ⟨0, some t⟩, lists_free := a.lists_free.push rfl })
  | slot :: rest =>
    (⟨a.number, slot, a.generationAt slot⟩,
      { a with
        slots := a.slots.modify slot ({ · with tensor := some t })
        free := rest
        lists_free := (hfree ▸ a.lists_free).fill t })

/-- Stores a tensor if it is square with a power-of-two side. -/
def allocate (a : Arena α) (t : Tensor α) : Except Error (Handle × Arena α) :=
  if t.hasGateShape then .ok (a.store t)
  else .error (.invalid (.storedShape t.rows t.cols))

/-- Drops the tensor of a handle, moves its slot to the next generation and makes the slot free. A
handle that names no tensor here changes nothing. -/
def release (a : Arena α) (h : Handle) : Arena α :=
  if hlive : a.owns h && (a.find? h).isSome then
    { a with
      slots := a.slots.modify h.slot fun s => ⟨s.generation + 1, none⟩
      free := h.slot :: a.free
      lists_free := a.lists_free.drop (a.holds_of_find? (Bool.and_eq_true_iff.1 hlive).2) }
  else a

/-- The number of slots ever made. -/
def slotCount (a : Arena α) : Nat := a.slots.size

/-- The number of tensors stored now. -/
def liveCount (a : Arena α) : Nat := a.slots.size - a.free.length

/-- A line about the arena for diagnostics. -/
def text (a : Arena α) : String :=
  s!"TensorArena \x7b id: {a.number}, live: {a.liveCount}, slots: {a.slotCount} \x7d"

@[simp] theorem number_allocate {a b : Arena α} {t : Tensor α} {h : Handle}
    (e : a.allocate t = .ok (h, b)) : b.number = a.number := by
  unfold allocate at e
  split at e
  · simp only [store] at e
    split at e <;> · cases e; rfl
  · cases e

@[simp] theorem number_release (a : Arena α) (h : Handle) : (a.release h).number = a.number := by
  unfold release
  split <;> rfl

end Arena

end GateNetwork
