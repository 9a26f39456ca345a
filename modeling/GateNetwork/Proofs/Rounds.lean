import GateNetwork.Amplitude
import GateNetwork.Proofs.Tally

/-!
# Handles given out again

The generation of a slot counts in 32 bits how often the slot was emptied, so after 2^32 times it
comes round. A released handle is refused until then. When the slot is filled after a whole number
of rounds, the arena gives the handle out again, and whoever kept the released handle reaches the
new tensor with it.
-/

namespace GateNetwork

namespace Arena

variable {α : Type} {a b : Arena α} {t u : Tensor α} {h k : Handle}

/-! ## Slots as handles see them -/

def tensorAt? (a : Arena α) (i : Nat) : Option (Tensor α) := a.slots[i]?.bind Slot.tensor

/-- A handle names the tensor in its slot if arena and generation are those of the handle. -/
theorem get_eq_ok_iff_tensorAt? : a.get h = .ok t ↔
    h.arena = a.number ∧ h.generation = a.generationAt h.slot ∧ a.tensorAt? h.slot = some t := by
  rw [get_eq_ok_iff, owns, beq_iff_eq, tensorAt?]
  cases hs : a.slots[h.slot]? with
  | none => simp [find?_beyond hs]
  | some s =>
    rw [find?_slot hs, generationAt_of_getElem? hs]
    by_cases hgen : s.generation = h.generation
    · simp [hgen]
    · simp [hgen, Ne.symm hgen]

theorem release_eq_self_iff : a.release h = a ↔ ∀ t, a.get h ≠ .ok t := by
  constructor
  · intro hsame t hget
    have hdead := get_release_same a h t
    rw [hsame] at hdead
    exact hdead hget
  · exact release_of_dead

/-! ## Generations as counts -/

/-- The slot that a call empties, if it empties one. -/
def emptied (a : Arena α) : Call α → List Nat
  | .allocate _ => []
  | .release h =>
    match a.get h with
    | .ok _ => [h.slot]
    | .error _ => []

/-- The slots that calls empty, in order. -/
def emptiedBy (a : Arena α) : List (Call α) → List Nat
  | [] => []
  | c :: cs => a.emptied c ++ (a.call c).2.emptiedBy cs

theorem emptiedBy_release (hlive : a.get h = .ok t) (calls : List (Call α)) :
    a.emptiedBy (.release h :: calls) = h.slot :: (a.release h).emptiedBy calls := by
  rw [emptiedBy, emptied, hlive]
  rfl

theorem emptiedBy_append (a : Arena α) (cs ds : List (Call α)) :
    a.emptiedBy (cs ++ ds) = a.emptiedBy cs ++ (a.run cs).emptiedBy ds := by
  induction cs generalizing a with
  | nil => rfl
  | cons c cs ih =>
    rw [List.cons_append, emptiedBy, ih, emptiedBy, List.append_assoc]
    rfl

theorem generationAt_call (a : Arena α) (c : Call α) (i : Nat) :
    (a.call c).2.generationAt i = a.generationAt i + .ofNat ((a.emptied c).count i) := by
  cases c with
  | allocate u =>
    cases heq : a.allocate u with
    | error e => simp [call, heq, emptied]
    | ok r =>
      have hstore : r.2 = (a.store u).2 := (allocate_eq_store heq).2
      simp [call, heq, emptied, hstore, generationAt_store]
  | release h =>
    cases hget : a.get h with
    | error e =>
      have hdead : a.release h = a := release_of_dead fun t ht => by
        rw [hget] at ht
        cases ht
      simp [call, hdead, emptied, hget]
    | ok t =>
      have hgen : h.generation = a.generationAt h.slot := (generationAt_of_get hget).symm
      rw [call, generationAt_release hget, emptied, hget]
      by_cases hi : i = h.slot
      · simp [hi, hgen]
      · simp [hi, Ne.symm hi]

/-- The generation of a slot counts, in 32 bits, how often calls empty it. -/
theorem generationAt_run (a : Arena α) (calls : List (Call α)) (i : Nat) :
    (a.run calls).generationAt i = a.generationAt i + .ofNat ((a.emptiedBy calls).count i) := by
  induction calls generalizing a with
  | nil => simp [run, emptiedBy]
  | cons c cs ih =>
    rw [run, ih, generationAt_call, emptiedBy, List.count_append, UInt32.ofNat_add, UInt32.add_assoc]

/-- A 32-bit counter is where it was after a whole number of rounds. -/
theorem eq_add_ofNat_iff (g : UInt32) (n : Nat) : g = g + .ofNat n ↔ 2 ^ 32 ∣ n := by
  rw [← UInt32.toNat_inj, UInt32.toNat_add, UInt32.toNat_ofNat']
  have hg := g.toNat_lt
  omega

/-- After any calls a handle that was live names what its slot holds, provided that the slot was
emptied a whole number of rounds. -/
theorem get_run_of_get_iff (hlive : a.get h = .ok t) (calls : List (Call α)) :
    (a.run calls).get h = .ok u ↔
      2 ^ 32 ∣ (a.emptiedBy calls).count h.slot ∧ (a.run calls).tensorAt? h.slot = some u := by
  obtain ⟨harena, hgen, -⟩ := get_eq_ok_iff_tensorAt?.1 hlive
  have hround : h.generation = (a.run calls).generationAt h.slot ↔
      2 ^ 32 ∣ (a.emptiedBy calls).count h.slot := by
    rw [generationAt_run, ← hgen]
    exact eq_add_ofNat_iff _ _
  rw [get_eq_ok_iff_tensorAt?, number_run, hround]
  simp [harena]

/-- A slot is filled under the handle that was live there exactly when it was emptied a whole number
of rounds since. -/
theorem allocate_run_of_get (hlive : a.get h = .ok t) (calls : List (Call α))
    (heq : (a.run calls).allocate u = .ok (k, b)) :
    k = h ↔ k.slot = h.slot ∧ 2 ^ 32 ∣ (a.emptiedBy calls).count h.slot := by
  obtain ⟨harena, hgen, -⟩ := get_eq_ok_iff_tensorAt?.1 hlive
  obtain ⟨hk, -⟩ := allocate_eq_store heq
  have hkarena : k.arena = h.arena := by
    rw [hk, arena_store, number_run, harena]
  have hkgen : k.slot = h.slot →
      (k.generation = h.generation ↔ 2 ^ 32 ∣ (a.emptiedBy calls).count h.slot) := by
    intro hslot
    rw [hk] at hslot ⊢
    rw [generation_store, hslot, generationAt_run, ← hgen, eq_comm]
    exact eq_add_ofNat_iff _ _
  constructor
  · rintro rfl
    exact ⟨rfl, (hkgen rfl).1 rfl⟩
  · rintro ⟨hslot, hround⟩
    have hgeneration := (hkgen hslot).2 hround
    cases k
    cases h
    simp_all

/-! ## A full round -/

/-- Calls that release a handle and fill its slot again, `n` times over. -/
def refills (t : Tensor α) : Nat → Handle → List (Call α)
  | 0, _ => []
  | n + 1, h => .release h :: .allocate t :: refills t n { h with generation := h.generation + 1 }

/-- The slot released last is filled first, under the next generation. -/
theorem get_refill (hlive : a.get h = .ok t) (hu : u.hasGateShape = true) :
    (a.run [.release h, .allocate u]).get { h with generation := h.generation + 1 } = .ok u := by
  obtain ⟨hown, hfind⟩ := get_eq_ok_iff.1 hlive
  have hfree : (a.release h).free = h.slot :: a.free := by
    rw [release, dif_pos (by rw [hown, hfind]; rfl)]
  have hgen : (a.release h).generationAt h.slot = h.generation + 1 := by
    rw [generationAt_release hlive, if_pos rfl]
  have hnumber : (a.release h).number = h.arena := by
    rw [number_release]
    exact (get_eq_ok_iff_tensorAt?.1 hlive).1.symm
  obtain ⟨k, b, heq⟩ := exists_allocate (a.release h) hu
  have hk : k = { h with generation := h.generation + 1 } := by
    rw [(allocate_eq_store heq).1, store]
    split
    · rename_i hnil
      rw [hfree] at hnil
      cases hnil
    · rename_i slot rest hcons
      rw [hfree] at hcons
      cases hcons
      rw [hnumber, hgen]
  simp only [run, call, heq]
  rw [get_allocate heq, if_pos hk.symm]

/-- A slot that is emptied and filled `n` times is `n` generations on. -/
theorem get_run_refills (hlive : a.get h = .ok u) (hu : u.hasGateShape = true) (n : Nat) :
    (a.run (refills u n h)).get { h with generation := h.generation + .ofNat n } = .ok u := by
  induction n generalizing a h with
  | zero => simpa [refills, run] using hlive
  | succ n ih =>
    have hnext := ih (get_refill hlive hu)
    rw [UInt32.add_assoc, ← UInt32.ofNat_one, ← UInt32.ofNat_add, Nat.add_comm] at hnext
    exact hnext

theorem get_release_refills (hlive : a.get h = .ok t) (hu : u.hasGateShape = true) (n : Nat) :
    ((a.release h).run (.allocate u :: refills u n { h with generation := h.generation + 1 })).get
      { h with generation := h.generation + 1 + .ofNat n } = .ok u := by
  have hlast := get_run_refills (get_refill hlive hu) hu n
  rw [← run_append] at hlast
  exact hlast

/-- A full round brings the released handle back. -/
theorem get_release_round (hlive : a.get h = .ok t) (hu : u.hasGateShape = true) :
    ((a.release h).run (.allocate u ::
      refills u (2 ^ 32 - 1) { h with generation := h.generation + 1 })).get h = .ok u := by
  have hround : (1 : UInt32) + .ofNat (2 ^ 32 - 1) = 0 := rfl
  have hlast := get_release_refills hlive hu (2 ^ 32 - 1)
  rwa [UInt32.add_assoc, hround, UInt32.add_zero] at hlast

/-! ## Released handles -/

theorem exists_allocate_of_stored {calls : List (Call α)} (hmem : .stored h u ∈ a.log calls) :
    ∃ past rest b, calls = past ++ .allocate u :: rest ∧
      (a.run past).allocate u = .ok (h, b) := by
  induction calls generalizing a with
  | nil => cases hmem
  | cons c cs ih =>
    rcases List.mem_cons.1 hmem with hmem | hmem
    · cases c with
      | release k => cases hmem
      | allocate v =>
        cases heq : a.allocate v with
        | error e => simp [call, heq] at hmem
        | ok r =>
          obtain ⟨rfl, rfl⟩ : h = r.1 ∧ u = v := by simpa [call, heq] using hmem
          exact ⟨[], cs, r.2, rfl, heq⟩
    · obtain ⟨past, rest, b, rfl, heq⟩ := ih hmem
      exact ⟨c :: past, rest, b, rfl, heq⟩

theorem get_first (number : Nat) (ht : t.hasGateShape = true) :
    ((empty number).run [.allocate t]).get ⟨number, 0, 0⟩ = .ok t := by
  have heq : (empty number).allocate t = .ok ((empty number).store t) := if_pos ht
  simp only [run, call, heq]
  exact get_found (beq_self_eq_true number) (find?_store (empty number) t)

/-- The first turn is the release itself, so whole rounds are at least one. -/
theorem round_le_count (hlive : a.get h = .ok t) {calls : List (Call α)}
    (hround : 2 ^ 32 ∣ (a.emptiedBy (.release h :: calls)).count h.slot) :
    2 ^ 32 ≤ (a.emptiedBy (.release h :: calls)).count h.slot := by
  refine Nat.le_of_dvd ?_ hround
  rw [emptiedBy_release hlive, List.count_cons_self]
  exact Nat.succ_pos _

/-- Before the first round is over a released handle names nothing. -/
theorem get_of_count_lt (hlive : a.get h = .ok t) {calls : List (Call α)}
    (hfirst : (a.emptiedBy (.release h :: calls)).count h.slot < 2 ^ 32) :
    ((a.release h).run calls).get h = .error (.invalid (.releasedHandle h)) := by
  have hown : ((a.release h).run calls).owns h = true := by
    rw [owns_congr ((number_run _ calls).trans (number_release a h))]
    exact (get_eq_ok_iff.1 hlive).1
  refine get_released hown (Option.eq_none_iff_forall_ne_some.2 fun u hu => ?_)
  have hround := ((get_run_of_get_iff hlive (.release h :: calls)).1 (get_found hown hu)).1
  exact Nat.not_le.2 hfirst (round_le_count hlive hround)

/-- Before the first round is over a released handle is not given out again. -/
theorem notMem_log_of_count_lt (hlive : a.get h = .ok t) {calls : List (Call α)}
    (hfirst : (a.emptiedBy (.release h :: calls)).count h.slot < 2 ^ 32) :
    .stored h u ∉ (a.release h).log calls := by
  intro hmem
  obtain ⟨past, rest, b, rfl, heq⟩ := exists_allocate_of_stored hmem
  have hround := ((allocate_run_of_get hlive (.release h :: past) heq).1 rfl).2
  have hle : (a.emptiedBy (.release h :: past)).count h.slot ≤
      (a.emptiedBy (.release h :: (past ++ .allocate u :: rest))).count h.slot := by
    rw [← List.cons_append, emptiedBy_append, List.count_append]
    exact Nat.le_add_right _ _
  exact Nat.not_le.2 (hle.trans_lt hfirst) (round_le_count hlive hround)

/-- What a released handle can still do, whatever was allocated and released since. It names a
tensor, its release empties a slot, and it is given out again, exactly when the slot was emptied a
whole number of rounds and is filled again; so before the first round is over it is dead. -/
theorem stale_handle_iff (hlive : a.get h = .ok t) (calls : List (Call α)) :
    let later := (a.release h).run calls
    let turns := (a.emptiedBy (.release h :: calls)).count h.slot
    ((∃ u, later.get h = .ok u) ↔ 2 ^ 32 ∣ turns ∧ (later.tensorAt? h.slot).isSome) ∧
    (later.release h ≠ later ↔ 2 ^ 32 ∣ turns ∧ (later.tensorAt? h.slot).isSome) ∧
    (∀ u k b, later.allocate u = .ok (k, b) → (k = h ↔ k.slot = h.slot ∧ 2 ^ 32 ∣ turns)) ∧
    (turns < 2 ^ 32 →
      later.get h = .error (.invalid (.releasedHandle h)) ∧ later.release h = later ∧
      ∀ u, .stored h u ∉ (a.release h).log calls) := by
  intro later turns
  have hget : (∃ u, later.get h = .ok u) ↔ 2 ^ 32 ∣ turns ∧ (later.tensorAt? h.slot).isSome := by
    have hnames (u : Tensor α) : later.get h = .ok u ↔
        2 ^ 32 ∣ turns ∧ later.tensorAt? h.slot = some u :=
      get_run_of_get_iff hlive (.release h :: calls)
    simp only [hnames, exists_and_left, Option.isSome_iff_exists]
  have hrelease : later.release h ≠ later ↔ ∃ u, later.get h = .ok u := by
    rw [ne_eq, release_eq_self_iff]
    push Not
    rfl
  have hgiven (u k b) (heq : later.allocate u = .ok (k, b)) :
      k = h ↔ k.slot = h.slot ∧ 2 ^ 32 ∣ turns :=
    allocate_run_of_get hlive (.release h :: calls) heq
  refine ⟨hget, hrelease.trans hget, hgiven, fun hfirst => ?_⟩
  have hdead : later.get h = .error (.invalid (.releasedHandle h)) := get_of_count_lt hlive hfirst
  refine ⟨hdead, release_of_dead fun u hu => ?_, fun u => notMem_log_of_count_lt hlive hfirst⟩
  rw [hdead] at hu
  cases hu

/-- The slot of a released handle is filled, emptied and filled again. -/
theorem stale_handle_refused :
    let live : Arena Amplitude := (empty 0).run [.allocate (.identity 2)]
    let first : Handle := ⟨0, 0, 0⟩
    let later := (live.release first).run
      [.allocate (.identity 1), .release ⟨0, 0, 1⟩, .allocate (.identity 4)]
    live.get first = .ok (.identity 2) ∧
      later.get first = .error (.invalid (.releasedHandle first)) ∧ later.release first = later := by
  intro live first later
  have hlive : live.get first = .ok (.identity 2) := get_first 0 rfl
  obtain ⟨-, -, -, hdead⟩ := stale_handle_iff hlive
    [.allocate (.identity 1), .release ⟨0, 0, 1⟩, .allocate (.identity 4)]
  obtain ⟨hrefused, hsame, -⟩ := hdead (by decide)
  exact ⟨hlive, hrefused, hsame⟩

/-- The first tensor of an arena is released, and after a full round its handle names another tensor,
which a second release would drop. -/
theorem get_released_after_round :
    let live : Arena Amplitude := (empty 0).run [.allocate (.identity 2)]
    let first : Handle := ⟨0, 0, 0⟩
    let later := (live.release first).run (.allocate (.identity 1) ::
      refills (.identity 1) (2 ^ 32 - 1) { first with generation := first.generation + 1 })
    live.get first = .ok (.identity 2) ∧
      (live.release first).get first = .error (.invalid (.releasedHandle first)) ∧
      later.get first = .ok (.identity 1) ∧ later.release first ≠ later := by
  intro live first later
  have hlive : live.get first = .ok (.identity 2) := get_first 0 rfl
  have hrevived : later.get first = .ok (.identity 1) := get_release_round hlive rfl
  have hrefused : ((live.release first).run []).get first =
      .error (.invalid (.releasedHandle first)) := get_of_count_lt hlive (by decide)
  exact ⟨hlive, hrefused, hrevived, fun hsame => release_eq_self_iff.1 hsame _ hrevived⟩

end Arena

end GateNetwork
