import Mathlib
import GateNetwork.Arena

/-!
# Handles of an arena

A stored tensor is found under the handle that was given out for it, and under no other; releasing a
handle ends what that handle names, and changes nothing for the others.
-/

namespace GateNetwork

namespace Arena

variable {α : Type} {a b : Arena α} {t : Tensor α} {h k : Handle}

/-! ## Resolving -/

theorem find?_slot {s : Slot α} (hs : a.slots[h.slot]? = some s) :
    a.find? h = if s.generation = h.generation then s.tensor else none := by
  rw [find?, hs]

theorem find?_beyond (hs : a.slots[h.slot]? = none) : a.find? h = none := by
  rw [find?, hs]

theorem get_foreign (hown : a.owns h = false) :
    a.get h = .error (.invalid (.foreignHandle h a.number)) := by
  rw [get, hown]
  rfl

theorem get_found (hown : a.owns h = true) (hfind : a.find? h = some t) : a.get h = .ok t := by
  rw [get, hown, hfind]
  rfl

theorem get_released (hown : a.owns h = true) (hfind : a.find? h = none) :
    a.get h = .error (.invalid (.releasedHandle h)) := by
  rw [get, hown, hfind]
  rfl

/-- What a handle names is the tensor found under it, if it was issued by the arena. -/
theorem get_eq_ok_iff : a.get h = .ok t ↔ a.owns h = true ∧ a.find? h = some t := by
  refine ⟨fun hget => ?_, fun ⟨hown, hfind⟩ => get_found hown hfind⟩
  cases hown : a.owns h with
  | false =>
    rw [get_foreign hown] at hget
    cases hget
  | true =>
    cases hfind : a.find? h with
    | none =>
      rw [get_released hown hfind] at hget
      cases hget
    | some u =>
      rw [get_found hown hfind] at hget
      cases hget
      exact ⟨rfl, rfl⟩

theorem owns_congr (hnumber : b.number = a.number) : b.owns h = a.owns h := by
  rw [owns, owns, hnumber]

/-- What a handle names is settled by the number of the arena and by what is found under it. -/
theorem get_congr (hnumber : b.number = a.number) (hfind : b.find? h = a.find? h) :
    b.get h = a.get h := by
  rw [get, get, owns_congr hnumber, hfind, hnumber]

/-- Two arenas of one number that both refuse a handle refuse it with the same error. -/
theorem get_error_congr (hnumber : b.number = a.number) (ha : ∀ t, a.get h ≠ .ok t)
    (hb : ∀ t, b.get h ≠ .ok t) : b.get h = a.get h := by
  have hown : b.owns h = a.owns h := owns_congr hnumber
  cases hcase : a.owns h with
  | false => rw [get_foreign hcase, get_foreign (hown.trans hcase), hnumber]
  | true =>
    refine get_congr hnumber ?_
    have hfa : a.find? h = none :=
      Option.eq_none_iff_forall_ne_some.2 fun t ht => ha t (get_found hcase ht)
    have hfb : b.find? h = none :=
      Option.eq_none_iff_forall_ne_some.2 fun t ht => hb t (get_found (hown.trans hcase) ht)
    rw [hfa, hfb]

/-! ## Storing -/

theorem number_store (a : Arena α) (t : Tensor α) : (a.store t).2.number = a.number := by
  unfold store
  split <;> rfl

theorem arena_store (a : Arena α) (t : Tensor α) : (a.store t).1.arena = a.number := by
  unfold store
  split <;> rfl

/-- The slot at the head of the free ones exists and is empty. -/
theorem head_free {slot : Nat} {rest : List Nat} (hfree : a.free = slot :: rest) :
    ∃ s, a.slots[slot]? = some s ∧ s.tensor = none := by
  have hmem := (a.lists_free.mem_iff slot).1 (hfree ▸ List.mem_cons_self)
  cases hs : a.slots[slot]? with
  | none => simp [hs] at hmem
  | some s => exact ⟨s, rfl, by simpa [hs] using hmem⟩

/-- Nothing was found under a handle before it was given out. -/
theorem find?_before_store (a : Arena α) (t : Tensor α) : a.find? (a.store t).1 = none := by
  unfold store
  split
  · simp [find?]
  · rename_i slot rest hfree
    obtain ⟨s, hs, hnone⟩ := head_free hfree
    simp [find?, hs, hnone]

theorem find?_store (a : Arena α) (t : Tensor α) : (a.store t).2.find? (a.store t).1 = some t := by
  unfold store
  split
  · simp [find?]
  · rename_i slot rest hfree
    obtain ⟨s, hs, -⟩ := head_free hfree
    rw [find?_slot (s := ⟨s.generation, some t⟩) (by simp [Array.getElem?_modify, hs])]
    simp [generationAt, hs]

/-- Storing leaves alone what is found under the other handles of the arena. -/
theorem find?_store_other (a : Arena α) (t : Tensor α) (hown : a.owns k = true)
    (hk : k ≠ (a.store t).1) : (a.store t).2.find? k = a.find? k := by
  have hnumber : k.arena = a.number := by simpa [owns] using hown
  unfold store at *
  split at hk
  · rename_i hfree
    have hne : k.slot = a.slots.size → k.generation ≠ 0 := by
      rintro hslot hgen
      exact hk (by cases k; simp_all)
    simp only [find?, Array.getElem?_push]
    by_cases hslot : k.slot = a.slots.size
    · simp [hslot, Ne.symm (hne hslot)]
    · simp [hslot]
  · rename_i slot rest hfree
    obtain ⟨s, hs, hnone⟩ := head_free hfree
    have hne : k.slot = slot → k.generation ≠ s.generation := by
      rintro hslot hgen
      exact hk (by cases k; simp_all [generationAt])
    simp only [find?, Array.getElem?_modify]
    by_cases hslot : slot = k.slot
    · subst hslot
      simp [hs, Ne.symm (hne rfl)]
    · simp [hslot]

theorem allocate_eq_store (e : a.allocate t = .ok (h, b)) :
    h = (a.store t).1 ∧ b = (a.store t).2 := by
  unfold allocate at e
  split at e
  · have hpair : a.store t = (h, b) := Except.ok.inj e
    rw [hpair]
    exact ⟨rfl, rfl⟩
  · cases e

/-- After an allocation the new handle names the tensor, and every other handle what it named. -/
theorem get_allocate (e : a.allocate t = .ok (h, b)) (k : Handle) :
    b.get k = if k = h then .ok t else a.get k := by
  obtain ⟨rfl, rfl⟩ := allocate_eq_store e
  have hnumber := number_store a t
  split
  · rename_i hk
    subst hk
    exact get_found (by simp [owns, arena_store, hnumber]) (find?_store a t)
  · rename_i hk
    cases hown : a.owns k with
    | true => exact get_congr hnumber (find?_store_other a t hown hk)
    | false =>
      rw [get_foreign hown, get_foreign ((owns_congr hnumber).trans hown), hnumber]

/-- A new handle named nothing before. -/
theorem get_before_allocate (e : a.allocate t = .ok (h, b)) (u : Tensor α) : a.get h ≠ .ok u := by
  obtain ⟨rfl, rfl⟩ := allocate_eq_store e
  intro hget
  have hfind := (get_eq_ok_iff.1 hget).2
  rw [find?_before_store] at hfind
  cases hfind

/-- Allocating keeps what the handles in use name. -/
theorem get_allocate_of_get {u : Tensor α} (e : a.allocate t = .ok (h, b)) (hk : a.get k = .ok u) :
    b.get k = .ok u := by
  have hne : k ≠ h := fun he => get_before_allocate e u (he ▸ hk)
  rw [get_allocate e, if_neg hne, hk]

theorem exists_allocate (a : Arena α) (ht : t.hasGateShape = true) :
    ∃ h b, a.allocate t = .ok (h, b) := by
  unfold allocate
  rw [if_pos ht]
  exact ⟨_, _, rfl⟩

/-! ## Releasing -/

/-- A handle that names a tensor has the generation of its slot. -/
theorem generation_of_find? (hfind : (a.find? h).isSome) :
    ∃ s, a.slots[h.slot]? = some s ∧ s.generation = h.generation := by
  cases hs : a.slots[h.slot]? with
  | none =>
    rw [find?_beyond hs] at hfind
    cases hfind
  | some s =>
    refine ⟨s, rfl, ?_⟩
    by_contra hne
    rw [find?_slot hs, if_neg hne] at hfind
    cases hfind

/-- Releasing leaves alone what is found under the other handles of the arena. -/
theorem find?_release_other (hlive : a.owns h = true) (hsome : (a.find? h).isSome)
    (hown : a.owns k = true) (hk : k ≠ h) : (a.release h).find? k = a.find? k := by
  obtain ⟨s, hs, hgen⟩ := generation_of_find? hsome
  have hrelease : (a.release h).slots =
      a.slots.modify h.slot fun s => ⟨s.generation + 1, none⟩ := by
    rw [release, dif_pos (by rw [hlive, hsome]; rfl)]
  by_cases hslot : h.slot = k.slot
  · have hne : s.generation ≠ k.generation := by
      intro he
      have hnumber : k.arena = h.arena := by simp_all [owns]
      refine hk ?_
      cases h
      cases k
      simp_all
    rw [hslot] at hs
    rw [find?_slot hs, if_neg hne, find?_slot (s := ⟨s.generation + 1, none⟩)]
    · simp
    · simp [hrelease, Array.getElem?_modify, hslot, hs]
  · have hsame : (a.release h).slots[k.slot]? = a.slots[k.slot]? := by
      simp [hrelease, Array.getElem?_modify, hslot]
    rw [find?, find?, hsame]

/-- Releasing a handle leaves alone what the other handles name. -/
theorem get_release_other (a : Arena α) (hk : k ≠ h) : (a.release h).get k = a.get k := by
  by_cases hlive : a.owns h && (a.find? h).isSome
  · obtain ⟨hown, hsome⟩ := Bool.and_eq_true_iff.1 hlive
    have hnumber := number_release a h
    cases hkown : a.owns k with
    | true => exact get_congr hnumber (find?_release_other hown hsome hkown hk)
    | false =>
      rw [get_foreign hkown, get_foreign ((owns_congr hnumber).trans hkown), hnumber]
  · rw [release, dif_neg hlive]

theorem get_release_same (a : Arena α) (h : Handle) (t : Tensor α) :
    (a.release h).get h ≠ .ok t := by
  intro hget
  obtain ⟨hown, hfind⟩ := get_eq_ok_iff.1 hget
  by_cases hlive : a.owns h && (a.find? h).isSome
  · obtain ⟨s, hs, -⟩ := generation_of_find? (Bool.and_eq_true_iff.1 hlive).2
    have hslot : (a.release h).slots[h.slot]? = some ⟨s.generation + 1, none⟩ := by
      rw [release, dif_pos hlive]
      simp [Array.getElem?_modify, hs]
    rw [find?_slot hslot] at hfind
    simp at hfind
  · rw [release, dif_neg hlive] at hown hfind
    exact hlive (by simp [hown, hfind])

end Arena

end GateNetwork
