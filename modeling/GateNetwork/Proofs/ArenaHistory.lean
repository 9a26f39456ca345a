import GateNetwork.Proofs.Arena

/-!
# Arenas after any calls

Whatever is allocated and released, live handles or stale ones, an arena is a finite map: a handle
names the tensor of the last allocation that gave it out, unless it was released since. The live
handles are counted by the slots that are not free, and there are as many slots as tensors were ever
live at one moment.

The map is settled call by call; the counts rest on one correspondence, between live handles and the
slots that hold a tensor.
-/

namespace GateNetwork

namespace Arena

variable {α : Type} {a b : Arena α} {t u : Tensor α} {h k : Handle}

/-! ## Live handles -/

/-- The handles that name a tensor. -/
def liveHandles (a : Arena α) : Set Handle := {h | ∃ t, a.get h = .ok t}

/-- A handle is live if it is what the arena would give out for its slot, and the slot is full. -/
theorem mem_liveHandles_iff : h ∈ a.liveHandles ↔
    ∃ s, a.slots[h.slot]? = some s ∧ s.tensor.isSome ∧ h = ⟨a.number, h.slot, s.generation⟩ := by
  constructor
  · rintro ⟨t, hget⟩
    obtain ⟨hown, hfind⟩ := get_eq_ok_iff.1 hget
    obtain ⟨s, hs, hgen⟩ := generation_of_find? (by rw [hfind]; rfl : (a.find? h).isSome)
    rw [find?_slot hs, if_pos hgen] at hfind
    have hnumber : h.arena = a.number := by simpa [owns] using hown
    refine ⟨s, hs, by rw [hfind]; rfl, ?_⟩
    rw [hgen, ← hnumber]
  · rintro ⟨s, hs, hfull, hh⟩
    obtain ⟨t, ht⟩ := Option.isSome_iff_exists.1 hfull
    have hown : a.owns h = true := by rw [hh]; simp [owns]
    have hgen : s.generation = h.generation := by rw [hh]
    exact ⟨t, get_found hown (by rw [find?_slot hs, if_pos hgen, ht])⟩

theorem free_lt {i : Nat} (hi : i ∈ a.free) : i < a.slots.size := by
  have hany := (a.lists_free.mem_iff i).1 hi
  by_contra hge
  rw [Array.getElem?_eq_none (Nat.not_lt.1 hge)] at hany
  cases hany

theorem length_free_le (a : Arena α) : a.free.length ≤ a.slots.size := by
  have hsub : a.free ⊆ List.range a.slots.size := fun i hi => List.mem_range.2 (free_lt hi)
  have hle := (List.subperm_of_subset a.lists_free.nodup hsub).length_le
  rwa [List.length_range] at hle

/-- The slots of the live handles are those that are not free. -/
theorem slot_image_liveHandles (a : Arena α) :
    Handle.slot '' a.liveHandles = ↑(Finset.range a.slots.size \ a.free.toFinset) := by
  ext i
  simp only [Set.mem_image, Finset.coe_sdiff, Set.mem_sdiff, Finset.mem_coe, Finset.mem_range,
    List.mem_toFinset, a.lists_free.mem_iff i]
  constructor
  · rintro ⟨h, hlive, rfl⟩
    obtain ⟨s, hs, hfull, -⟩ := mem_liveHandles_iff.1 hlive
    have hlt : h.slot < a.slots.size := by
      by_contra hge
      rw [Array.getElem?_eq_none (Nat.not_lt.1 hge)] at hs
      cases hs
    exact ⟨hlt, by simpa [hs, Option.isSome_iff_ne_none] using hfull⟩
  · rintro ⟨hlt, hfull⟩
    have hs : a.slots[i]? = some a.slots[i] := Array.getElem?_eq_getElem hlt
    refine ⟨⟨a.number, i, a.slots[i].generation⟩, ?_, rfl⟩
    refine mem_liveHandles_iff.2 ⟨a.slots[i], hs, ?_, rfl⟩
    simpa [hs, Option.isSome_iff_ne_none] using hfull

/-- Two live handles of one slot are one handle. -/
theorem injOn_slot (a : Arena α) : Set.InjOn Handle.slot a.liveHandles := by
  intro h hh k hk hslot
  obtain ⟨s, hs, -, heq⟩ := mem_liveHandles_iff.1 hh
  obtain ⟨r, hr, -, keq⟩ := mem_liveHandles_iff.1 hk
  rw [← hslot, hs] at hr
  obtain rfl := Option.some.inj hr
  rw [heq, keq, hslot]

theorem finite_liveHandles (a : Arena α) : a.liveHandles.Finite := by
  refine Set.Finite.of_finite_image ?_ a.injOn_slot
  rw [slot_image_liveHandles]
  exact Finset.finite_toSet _

/-- The live count counts the live handles. -/
theorem ncard_liveHandles (a : Arena α) : a.liveHandles.ncard = a.liveCount := by
  have hsub : a.free.toFinset ⊆ Finset.range a.slots.size := fun i hi =>
    Finset.mem_range.2 (free_lt (List.mem_toFinset.1 hi))
  rw [← a.injOn_slot.ncard_image, slot_image_liveHandles, Set.ncard_coe_finset,
    Finset.card_sdiff_of_subset hsub, Finset.card_range,
    List.toFinset_card_of_nodup a.lists_free.nodup, liveCount]

/-- Arenas that resolve the same handles have the same live count. -/
theorem liveCount_congr (hget : ∀ h, b.get h = a.get h) : b.liveCount = a.liveCount := by
  have hlive : b.liveHandles = a.liveHandles := by
    ext h
    simp only [liveHandles, Set.mem_ofPred_eq, hget]
  rw [← ncard_liveHandles, ← ncard_liveHandles, hlive]

/-! ## Slots -/

/-- A slot is made only when all slots are full. -/
theorem slotCount_store (a : Arena α) (t : Tensor α) :
    (a.store t).2.slotCount = max a.slotCount (a.liveCount + 1) := by
  have hle := a.length_free_le
  unfold store
  split
  · rename_i hfree
    simp [slotCount, liveCount, hfree]
  · rename_i slot rest hfree
    rw [hfree, List.length_cons] at hle
    simp only [slotCount, liveCount, hfree, Array.size_modify, List.length_cons]
    omega

theorem liveCount_store (a : Arena α) (t : Tensor α) :
    (a.store t).2.liveCount = a.liveCount + 1 := by
  have hle := a.length_free_le
  unfold store
  split
  · rename_i hfree
    simp [liveCount, hfree]
  · rename_i slot rest hfree
    rw [hfree, List.length_cons] at hle
    simp only [liveCount, hfree, Array.size_modify, List.length_cons]
    omega

theorem slotCount_release (a : Arena α) (h : Handle) : (a.release h).slotCount = a.slotCount := by
  unfold release
  split
  · simp [slotCount]
  · rfl

/-! ## Calls -/

inductive Call (α : Type) where
  | allocate (t : Tensor α)
  | release (h : Handle)

/-- What became of a call. -/
inductive Entry (α : Type) where
  /-- A tensor was stored under a handle. -/
  | stored (h : Handle) (t : Tensor α)
  | refused (t : Tensor α)
  | released (h : Handle)

/-- The handle that the call gave out or took back. -/
def Entry.handle? : Entry α → Option Handle
  | .stored h _ => some h
  | .refused _ => none
  | .released h => some h

def call (a : Arena α) : Call α → Entry α × Arena α
  | .allocate t =>
    match a.allocate t with
    | .ok (h, b) => (.stored h t, b)
    | .error _ => (.refused t, a)
  | .release h => (.released h, a.release h)

/-- The arena after calls. -/
def run (a : Arena α) : List (Call α) → Arena α
  | [] => a
  | c :: cs => (a.call c).2.run cs

/-- What became of calls, in order. -/
def log (a : Arena α) : List (Call α) → List (Entry α)
  | [] => []
  | c :: cs => (a.call c).1 :: (a.call c).2.log cs

theorem run_append (a : Arena α) (cs ds : List (Call α)) :
    a.run (cs ++ ds) = (a.run cs).run ds := by
  induction cs generalizing a with
  | nil => rfl
  | cons c cs ih => exact ih (a.call c).2

theorem log_append (a : Arena α) (cs ds : List (Call α)) :
    a.log (cs ++ ds) = a.log cs ++ (a.run cs).log ds := by
  induction cs generalizing a with
  | nil => rfl
  | cons c cs ih => exact congrArg ((a.call c).1 :: ·) (ih (a.call c).2)

/-- After a call a handle names what the call stored under it; the handles that the call neither
gave out nor took back name what they named before. -/
theorem get_call_iff (a : Arena α) (c : Call α) : (a.call c).2.get h = .ok t ↔
    (a.call c).1 = .stored h t ∨ (a.call c).1.handle? ≠ some h ∧ a.get h = .ok t := by
  cases c with
  | allocate u =>
    cases heq : a.allocate u with
    | error e => simp [call, heq, Entry.handle?]
    | ok r =>
      obtain ⟨k, b⟩ := r
      simp only [call, heq, get_allocate heq, Entry.stored.injEq, Entry.handle?, ne_eq,
        Option.some.injEq]
      by_cases hk : h = k
      · simp [hk]
      · simp [hk, Ne.symm hk]
  | release k =>
    simp only [call, reduceCtorEq, false_or, Entry.handle?, ne_eq, Option.some.injEq]
    by_cases hk : k = h
    · subst hk
      simp [get_release_same]
    · simp [hk, get_release_other a (Ne.symm hk)]

/-- A call leaves alone what the other handles name. -/
theorem get_call_other (a : Arena α) (c : Call α) (hh : (a.call c).1.handle? ≠ some h) :
    (a.call c).2.get h = a.get h := by
  cases c with
  | allocate u =>
    cases heq : a.allocate u with
    | error e => simp [call, heq]
    | ok r =>
      obtain ⟨k, b⟩ := r
      have hne : h ≠ k := by
        rintro rfl
        exact hh (by simp [call, heq, Entry.handle?])
      simp [call, heq, get_allocate heq, hne]
  | release k =>
    have hne : h ≠ k := by
      rintro rfl
      exact hh rfl
    exact get_release_other a hne

theorem slotCount_call (a : Arena α) (c : Call α) :
    (a.call c).2.slotCount = a.slotCount ∨
      (a.call c).2.slotCount = a.slotCount + 1 ∧
        (a.call c).2.liveCount = (a.call c).2.slotCount := by
  cases c with
  | release k => exact .inl (slotCount_release a k)
  | allocate u =>
    cases heq : a.allocate u with
    | error e => exact .inl (by simp [call, heq])
    | ok r =>
      obtain ⟨k, b⟩ := r
      obtain ⟨-, rfl⟩ := allocate_eq_store heq
      have hslots := slotCount_store a u
      have hlive := liveCount_store a u
      have hle : a.liveCount ≤ a.slotCount := Nat.sub_le _ _
      simp only [call, heq]
      omega

/-! ## Runs -/

/-- The tensor `t` was stored under `h`, and afterwards `h` was neither given out nor taken back. -/
def StoredLast (entries : List (Entry α)) (h : Handle) (t : Tensor α) : Prop :=
  ∃ before after, entries = before ++ .stored h t :: after ∧ ∀ e ∈ after, e.handle? ≠ some h

theorem storedLast_concat {entries : List (Entry α)} {e : Entry α} :
    StoredLast (entries ++ [e]) h t ↔
      e = .stored h t ∨ e.handle? ≠ some h ∧ StoredLast entries h t := by
  constructor
  · rintro ⟨before, after, heq, hafter⟩
    rcases List.eq_nil_or_concat' after with rfl | ⟨init, last, rfl⟩
    · obtain ⟨-, hlast⟩ := List.append_inj' heq rfl
      exact .inl (List.singleton_inj.1 hlast)
    · rw [← List.cons_append, ← List.append_assoc] at heq
      obtain ⟨hinit, hlast⟩ := List.append_inj' heq rfl
      obtain rfl := List.singleton_inj.1 hlast
      refine .inr ⟨hafter e (by simp), before, init, hinit, fun e' he' => ?_⟩
      exact hafter e' (List.mem_append_left _ he')
  · rintro (rfl | ⟨he, before, after, rfl, hafter⟩)
    · exact ⟨entries, [], rfl, by simp⟩
    · refine ⟨before, after ++ [e], by simp, fun e' he' => ?_⟩
      rcases List.mem_append.1 he' with he' | he'
      · exact hafter e' he'
      · rw [List.mem_singleton.1 he']
        exact he

theorem number_call (a : Arena α) (c : Call α) : (a.call c).2.number = a.number := by
  cases c with
  | release k => exact number_release a k
  | allocate u =>
    cases heq : a.allocate u with
    | error e => simp [call, heq]
    | ok r => simpa [call, heq] using number_allocate heq

theorem number_run (a : Arena α) (cs : List (Call α)) : (a.run cs).number = a.number := by
  induction cs generalizing a with
  | nil => rfl
  | cons c cs ih => exact (ih (a.call c).2).trans (number_call a c)

theorem get_run_iff (number : Nat) (calls : List (Call α)) :
    ((empty number).run calls).get h = .ok t ↔ StoredLast ((empty number).log calls) h t := by
  induction calls using List.reverseRecOn with
  | nil =>
    have hnone : ∀ u : Tensor α, (empty number).get h ≠ .ok u := by
      intro u hget
      simpa [find?, empty] using (get_eq_ok_iff.1 hget).2
    refine iff_of_false (hnone t) ?_
    rintro ⟨before, after, heq, -⟩
    simp [log] at heq
  | append_singleton calls c ih =>
    rw [run_append, log_append]
    show (((empty number).run calls).call c).2.get h = .ok t ↔
      StoredLast ((empty number).log calls ++ [(((empty number).run calls).call c).1]) h t
    rw [get_call_iff, storedLast_concat, ih]

theorem slotCount_run_append (a : Arena α) (cs ds : List (Call α)) :
    (a.run cs).slotCount ≤ (a.run (cs ++ ds)).slotCount := by
  induction ds using List.reverseRecOn with
  | nil => rw [List.append_nil]
  | append_singleton ds d ih =>
    refine ih.trans ?_
    rw [← List.append_assoc, run_append a (cs ++ ds)]
    rcases slotCount_call (a.run (cs ++ ds)) d with hslots | ⟨hslots, -⟩
    · exact hslots.ge
    · exact (Nat.le_succ _).trans hslots.ge

/-- There are as many slots as tensors were ever live at one moment. -/
theorem slotCount_run (number : Nat) (calls : List (Call α)) :
    IsGreatest {n | ∃ past, past <+: calls ∧ ((empty number).run past).liveHandles.ncard = n}
      (((empty number).run calls).slotCount) := by
  refine ⟨?_, ?_⟩
  · induction calls using List.reverseRecOn with
    | nil => exact ⟨[], List.prefix_rfl, by rw [ncard_liveHandles]; rfl⟩
    | append_singleton calls c ih =>
      obtain ⟨past, hpast, hcount⟩ := ih
      rcases slotCount_call ((empty number).run calls) c with hslots | ⟨-, hfull⟩
      · refine ⟨past, hpast.trans (List.prefix_append _ _), ?_⟩
        rw [hcount, run_append]
        exact hslots.symm
      · refine ⟨calls ++ [c], List.prefix_rfl, ?_⟩
        rw [ncard_liveHandles, run_append]
        exact hfull
  · rintro n ⟨past, ⟨rest, rfl⟩, rfl⟩
    rw [ncard_liveHandles]
    exact (Nat.sub_le _ _).trans (slotCount_run_append _ past rest)

/-- Tensors are accepted that are square with a power of two as their side. -/
theorem exists_allocate_iff (a : Arena α) (t : Tensor α) :
    (∃ h b, a.allocate t = .ok (h, b)) ↔ t.rows = t.cols ∧ ∃ i, t.rows = 2 ^ i := by
  have hshape : t.hasGateShape = true ↔ t.rows = t.cols ∧ ∃ i, t.rows = 2 ^ i := by
    rw [Tensor.hasGateShape, Bool.and_eq_true, beq_iff_eq, isPowerOfTwo_iff]
    rfl
  rw [← hshape]
  refine ⟨?_, a.exists_allocate⟩
  rintro ⟨h, b, heq⟩
  by_contra hnot
  rw [allocate, if_neg hnot] at heq
  cases heq

/-- An arena is a finite map from handles to tensors, whatever was allocated in it and released from
it. -/
theorem run_isFiniteMap (number : Nat) (calls : List (Call α)) :
    let a : Arena α := (empty number).run calls
    -- The free list names the slots without a tensor, each once.
    (a.free.Nodup ∧ ∀ i, i ∈ a.free ↔ ∃ s, a.slots[i]? = some s ∧ s.tensor = none) ∧
    -- A square tensor with a power of two as its side is stored, under a handle that was not live.
    (∀ t, (∃ h b, a.allocate t = .ok (h, b)) ↔ t.rows = t.cols ∧ ∃ i, t.rows = 2 ^ i) ∧
    (∀ t h b, a.allocate t = .ok (h, b) → h ∉ a.liveHandles) ∧
    -- A handle names the tensor stored last under it, and nothing once it was released.
    (∀ h t, a.get h = .ok t ↔ StoredLast ((empty number).log calls) h t) ∧
    (∀ h, (∀ t, ¬ StoredLast ((empty number).log calls) h t) → a.get h = .error (.invalid
      (if h.arena = number then .releasedHandle h else .foreignHandle h number))) ∧
    -- Every call leaves alone what the handles name that it neither gives out nor takes back.
    (∀ c h, (a.call c).1.handle? ≠ some h → (a.call c).2.get h = a.get h) ∧
    -- The live handles are counted by the slots that are not free.
    (a.liveHandles.Finite ∧ a.liveHandles.ncard = a.liveCount ∧ a.free.length ≤ a.slots.size) ∧
    -- There are as many slots as tensors were ever live at one moment.
    IsGreatest {n | ∃ past, past <+: calls ∧ ((empty number).run past).liveHandles.ncard = n}
      a.slotCount := by
  intro a
  have hget (h : Handle) (t : Tensor α) := get_run_iff (h := h) (t := t) number calls
  refine ⟨⟨a.lists_free.nodup, fun i => ?_⟩, a.exists_allocate_iff, fun t h b heq => ?_, hget,
    fun h hnot => ?_, fun c h hh => get_call_other a c hh, ?_, slotCount_run number calls⟩
  · rw [a.lists_free.mem_iff, Option.any_eq_true]
    simp only [Option.isNone_iff_eq_none]
  · rintro ⟨u, hu⟩
    exact get_before_allocate heq u hu
  · have hnumber : a.number = number := number_run (empty number) calls
    have hdead : ∀ t, a.get h ≠ .ok t := fun t ht => hnot t ((hget h t).1 ht)
    cases hown : a.owns h with
    | true =>
      have hfind : a.find? h = none :=
        Option.eq_none_iff_forall_ne_some.2 fun t ht => hdead t (get_found hown ht)
      have harena : h.arena = number := by simpa [owns, hnumber] using hown
      rw [get_released hown hfind, if_pos harena]
    | false =>
      have harena : h.arena ≠ number := by simpa [owns, hnumber] using hown
      rw [get_foreign hown, hnumber, if_neg harena]
  · exact ⟨a.finite_liveHandles, a.ncard_liveHandles, a.length_free_le⟩

end Arena

end GateNetwork
