import GateNetwork.Proofs.ArenaHistory
import GateNetwork.Proofs.Staging

/-!
# Counts of staged tensors

Staging fills free slots first and makes new ones only when none is left, so the number of slots
afterwards is settled by the number of staged tensors. Closing gives the slots back one generation
later. A handle that names nothing is given out again only when the generation of its slot has come
round to it; until then it is steady, and staging does not change what it names.
-/

namespace GateNetwork

variable {α : Type}

namespace Arena

variable {a b : Arena α} {t : Tensor α} {h : Handle} {n : Nat}

/-! ## Generations -/

theorem generationAt_of_getElem? {i : Nat} {s : Slot α} (hs : a.slots[i]? = some s) :
    a.generationAt i = s.generation := by
  rw [generationAt, hs]

/-- Storing leaves every slot at its generation. -/
theorem generationAt_store (a : Arena α) (t : Tensor α) (i : Nat) :
    (a.store t).2.generationAt i = a.generationAt i := by
  unfold store
  split
  · simp only [generationAt, Array.getElem?_push]
    by_cases hi : i = a.slots.size
    · simp [hi]
    · simp [hi]
  · rename_i slot rest hfree
    simp only [generationAt, Array.getElem?_modify]
    by_cases hi : slot = i
    · subst hi
      cases a.slots[slot]? <;> simp
    · simp [hi]

theorem generation_store (a : Arena α) (t : Tensor α) :
    (a.store t).1.generation = a.generationAt (a.store t).1.slot := by
  unfold store
  split
  · simp [generationAt]
  · rfl

theorem generationAt_of_get (hget : a.get h = .ok t) : a.generationAt h.slot = h.generation := by
  obtain ⟨-, hfind⟩ := get_eq_ok_iff.1 hget
  obtain ⟨s, hs, hgen⟩ := generation_of_find? (by rw [hfind]; rfl)
  rw [generationAt_of_getElem? hs, hgen]

/-- Releasing a tensor moves on the slot that held it. -/
theorem generationAt_release (hget : a.get h = .ok t) (i : Nat) :
    (a.release h).generationAt i = if i = h.slot then h.generation + 1 else a.generationAt i := by
  obtain ⟨hown, hfind⟩ := get_eq_ok_iff.1 hget
  have hfound : (a.find? h).isSome := by rw [hfind]; rfl
  obtain ⟨s, hs, hgen⟩ := generation_of_find? hfound
  have hslots : (a.release h).slots = a.slots.modify h.slot fun s => ⟨s.generation + 1, none⟩ := by
    rw [release, dif_pos (Bool.and_eq_true_iff.2 ⟨hown, hfound⟩)]
  split
  · rename_i hi
    subst hi
    have hafter : (a.release h).slots[h.slot]? = some ⟨s.generation + 1, none⟩ := by
      rw [hslots, Array.getElem?_modify, if_pos rfl, hs]
      rfl
    rw [generationAt_of_getElem? hafter, hgen]
  · rename_i hi
    simp only [generationAt, hslots, Array.getElem?_modify, if_neg (Ne.symm hi)]

theorem release_of_dead (hdead : ∀ t, a.get h ≠ .ok t) : a.release h = a := by
  rw [release, dif_neg]
  intro hlive
  obtain ⟨hown, hfound⟩ := Bool.and_eq_true_iff.1 hlive
  obtain ⟨t, hfind⟩ := Option.isSome_iff_exists.1 hfound
  exact hdead t (get_found hown hfind)

/-! ## Steady handles -/

/-- If the handle was issued by the arena and names nothing, then its slot must be released more
than `n` times before the arena can give the handle out again. -/
def Steady (a : Arena α) (n : Nat) (h : Handle) : Prop :=
  a.owns h = true → (∀ t, a.get h ≠ .ok t) → n < (h.generation - a.generationAt h.slot).toNat

theorem Steady.mono {m : Nat} (hs : a.Steady n h) (hmn : m ≤ n) : a.Steady m h :=
  fun hown hdead => hmn.trans_lt (hs hown hdead)

/-! ## Generations along a run -/

/-- No slot is past generation `n`; and of the handles that were given out, each names a tensor or
has a generation that its slot has left behind. -/
structure Aged (a : Arena α) (n : Nat) (entries : List (Entry α)) : Prop where
  le : ∀ i, (a.generationAt i).toNat ≤ n
  issued : ∀ h t, .stored h t ∈ entries →
    (∃ u, a.get h = .ok u) ∨ h.generation.toNat < (a.generationAt h.slot).toNat

theorem Aged.mono {m : Nat} {entries : List (Entry α)} (ha : a.Aged n entries) (hnm : n ≤ m) :
    a.Aged m entries :=
  ⟨fun i => (ha.le i).trans hnm, ha.issued⟩

/-- A call that gives out no handle. -/
theorem Aged.concat {entries : List (Entry α)} (ha : a.Aged n entries) {e : Entry α}
    (he : ∀ h t, e ≠ .stored h t) : a.Aged n (entries ++ [e]) := by
  refine ⟨ha.le, fun h t hh => ?_⟩
  rcases List.mem_append.1 hh with hh | hh
  · exact ha.issued h t hh
  · exact absurd (List.mem_singleton.1 hh).symm (he h t)

theorem Aged.store {entries : List (Entry α)} (ha : a.Aged n entries)
    (heq : a.allocate t = .ok (h, b)) : b.Aged n (entries ++ [.stored h t]) := by
  have hgen (i : Nat) : b.generationAt i = a.generationAt i := by
    rw [(allocate_eq_store heq).2, generationAt_store]
  refine ⟨fun i => hgen i ▸ ha.le i, fun k u hk => ?_⟩
  rw [hgen]
  rcases List.mem_append.1 hk with hk | hk
  · rcases ha.issued k u hk with ⟨v, hv⟩ | hlt
    · exact .inl ⟨v, get_allocate_of_get heq hv⟩
    · exact .inr hlt
  · cases List.mem_singleton.1 hk
    exact .inl ⟨t, by rw [get_allocate heq, if_pos rfl]⟩

theorem Aged.release {entries : List (Entry α)} (ha : a.Aged n entries) (hn : n + 1 < 2 ^ 32)
    (k : Handle) : (a.release k).Aged (n + 1) entries := by
  by_cases hlive : ∃ t, a.get k = .ok t
  · obtain ⟨t, hget⟩ := hlive
    have hle := ha.le k.slot
    rw [generationAt_of_get hget] at hle
    have hmove : (k.generation + 1).toNat = k.generation.toNat + 1 := by
      rw [UInt32.toNat_add, UInt32.toNat_one]
      exact Nat.mod_eq_of_lt (by omega)
    refine ⟨fun i => ?_, fun h u hh => ?_⟩
    · rw [generationAt_release hget]
      split
      · rw [hmove]
        exact Nat.succ_le_succ hle
      · exact (ha.le i).trans (Nat.le_succ n)
    · rw [generationAt_release hget]
      rcases ha.issued h u hh with ⟨v, hv⟩ | hlt
      · by_cases hk : h = k
        · subst hk
          rw [if_pos rfl, hmove]
          exact .inr (Nat.lt_succ_self _)
        · exact .inl ⟨v, by rw [get_release_other a hk, hv]⟩
      · refine .inr ?_
        split
        · rename_i hslot
          rw [hslot, generationAt_of_get hget] at hlt
          omega
        · exact hlt
  · rw [release_of_dead fun t ht => hlive ⟨t, ht⟩]
    exact ha.mono (Nat.le_succ n)

theorem aged_run (number : Nat) (calls : List (Call α)) (hcount : calls.length < 2 ^ 32) :
    ((empty number).run calls).Aged calls.length ((empty number).log calls) := by
  induction calls using List.reverseRecOn with
  | nil =>
    refine ⟨fun i => ?_, fun h t hh => absurd hh List.not_mem_nil⟩
    simp [run, empty, generationAt]
  | append_singleton calls c ih =>
    rw [List.length_append, List.length_singleton] at hcount ⊢
    have hage := ih (by omega)
    rw [run_append, log_append]
    cases c with
    | release k =>
      simp only [run, log, call]
      exact (hage.release hcount k).concat (by simp)
    | allocate t =>
      simp only [run, log, call]
      cases heq : ((empty number).run calls).allocate t with
      | error e => exact (hage.concat (by simp)).mono (Nat.le_succ _)
      | ok r => exact (hage.store heq).mono (Nat.le_succ _)

/-- Within the first 2^32 calls the handles given out are steady. -/
theorem steady_run {number : Nat} {calls : List (Call α)}
    (hissued : .stored h t ∈ (empty number).log calls) (hcount : calls.length + n < 2 ^ 32) :
    ((empty number).run calls).Steady n h := by
  intro _ hdead
  have hage := aged_run number calls (by omega)
  rcases hage.issued h t hissued with ⟨u, hu⟩ | hlt
  · exact absurd hu (hdead u)
  · have hle := hage.le h.slot
    rw [UInt32.toNat_sub]
    omega

end Arena

/-! ## Staging -/

namespace Staging

variable {s s' : Staging} {base a b : Arena α} {t : Tensor α} {h : Handle} {n : Nat}

/-- The arena `a` is `base` with the tensors of the staging in it, in as few slots as possible and
under the handles that the slots were ready for. -/
structure Tally (s : Staging) (base a : Arena α) : Prop where
  staged : s.Over base a
  live : a.liveCount = base.liveCount + s.count
  slots : a.slotCount = max base.slotCount (base.liveCount + s.count)
  generation : ∀ i, a.generationAt i = base.generationAt i
  issued : ∀ h ∈ s.handles, h.arena = base.number ∧ h.generation = base.generationAt h.slot

theorem Tally.empty (base : Arena α) : Tally .empty base base := by
  have hle : base.liveCount ≤ base.slotCount := Nat.sub_le _ _
  refine ⟨.empty base, rfl, ?_, fun _ => rfl, fun h hh => absurd hh List.not_mem_nil⟩
  simp [Staging.empty, count, hle]

theorem count_stage (e : s.stage a t = .ok (h, s', b)) : s'.count = s.count + 1 := by
  obtain ⟨-, rfl⟩ := stage_eq_ok e
  simp [count]

theorem Tally.stage (o : Tally s base a) (e : s.stage a t = .ok (h, s', b)) : Tally s' base b := by
  have hcount := count_stage e
  have hover := o.staged.stage e
  obtain ⟨heq, rfl⟩ := stage_eq_ok e
  obtain ⟨rfl, rfl⟩ := Arena.allocate_eq_store heq
  have hlive := o.live
  have hslots := o.slots
  refine ⟨hover, ?_, ?_, fun i => ?_, fun k hk => ?_⟩
  · rw [Arena.liveCount_store, hcount]
    omega
  · rw [Arena.slotCount_store, hcount]
    omega
  · rw [Arena.generationAt_store, o.generation]
  · rcases List.mem_append.1 hk with hk | hk
    · exact o.issued k hk
    · obtain rfl := List.mem_singleton.1 hk
      refine ⟨?_, ?_⟩
      · rw [Arena.arena_store, o.staged.number]
      · rw [Arena.generation_store, o.generation]

/-- A steady handle is not given out. -/
theorem Tally.notMem_of_steady (o : Tally s base a) (hs : base.Steady n h) : h ∉ s.handles := by
  intro hh
  obtain ⟨harena, hgen⟩ := o.issued h hh
  have hlt := hs (by simp [Arena.owns, harena]) (o.staged.fresh h hh)
  rw [hgen] at hlt
  simp at hlt

theorem Tally.get_of_steady (o : Tally s base a) (hs : base.Steady n h) : a.get h = base.get h :=
  o.staged.other h (o.notMem_of_steady hs)

/-! ## Closing -/

theorem slotCount_close (s : Staging) (a : Arena α) : (s.close a).slotCount = a.slotCount := by
  unfold close
  induction s.handles generalizing a with
  | nil => rfl
  | cons h hs ih => rw [List.foldl_cons, ih, Arena.slotCount_release]

/-- Each slot is released at most once: the handle to be released has the generation of the
beginning. -/
theorem Tally.generationAt_close (o : Tally s base a) (i : Nat) :
    (s.close a).generationAt i = base.generationAt i ∨
      (s.close a).generationAt i = base.generationAt i + 1 := by
  have hstart : ∀ i, a.generationAt i = base.generationAt i ∨
      a.generationAt i = base.generationAt i + 1 := fun i => .inl (o.generation i)
  have hissued := fun h hh => (o.issued h hh).2
  unfold close
  -- On the way not every tensor is staged any more, so the induction keeps the generations only.
  clear o
  generalize s.handles = handles at hissued
  induction handles generalizing a with
  | nil => exact hstart i
  | cons h hs ih =>
    rw [List.foldl_cons]
    refine ih (fun j => ?_) fun k hk => hissued k (List.mem_cons_of_mem h hk)
    by_cases hlive : ∃ t, a.get h = .ok t
    · obtain ⟨t, hget⟩ := hlive
      rw [Arena.generationAt_release hget]
      split
      · rename_i hj
        rw [hj, hissued h List.mem_cons_self]
        exact .inr rfl
      · exact hstart j
    · rw [Arena.release_of_dead fun t ht => hlive ⟨t, ht⟩]
      exact hstart j

/-- Closing brings a handle at most one release nearer to being given out again. -/
theorem Tally.steady_close (o : Tally s base a) (hs : base.Steady (n + 1) h) :
    (s.close a).Steady n h := by
  intro hown hdead
  have hnumber : (s.close a).number = base.number := (number_close s a).trans o.staged.number
  have hlt := hs ((Arena.owns_congr hnumber).symm.trans hown) fun t =>
    o.staged.get_close h ▸ hdead t
  rcases o.generationAt_close h.slot with hgen | hgen
  · rw [hgen]
    omega
  · have hone : 1 ≤ h.generation - base.generationAt h.slot := by
      rw [UInt32.le_iff_toNat_le]
      exact Nat.one_le_of_lt hlt
    rw [hgen, sub_add_eq_sub_sub, UInt32.toNat_sub_of_le _ _ hone]
    exact Nat.lt_sub_of_add_lt hlt

end Staging

end GateNetwork
