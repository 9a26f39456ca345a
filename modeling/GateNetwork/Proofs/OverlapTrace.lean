import GateNetwork.Proofs.Interleaving
import GateNetwork.Proofs.JoinTrace

/-!
# What an overlap leaves behind

An overlap may end with a value or with an error, and an error may come before, among or after the
staged copies. What is left in the store is the same on every way out: it depends on the two
networks and not on the backend.

Repeats use the slots of the first time again, with one exception. The bra may name a tensor that
was released, and each repeat moves its slot on by one generation. When the generation has come
round, a staged copy gets the released handle, the bra takes the copy for its own tensor, and the
join goes on to stage more than it did before.
-/

namespace GateNetwork

variable {α ρ σ ι : Type}

/-! ## After overlaps -/

namespace NetworkState

variable {ket bra : NetworkState α}

/-- What an overlap leaves of the store: it joins the networks, if both are there and not empty. -/
def storeAfterOverlap (ket bra : NetworkState α) (s : Store α) : Store α :=
  match ket.network, bra.network with
  | some k, some l => if k.qubits = 0 || l.qubits = 0 then s else k.storeAfterJoin l s
  | _, _ => s

theorem final_inner (b : Backend α ρ σ) (ket bra : NetworkState α) (site : Site α σ) :
    ((ket.inner b bra).final site).store = ket.storeAfterOverlap bra site.store := by
  unfold inner storeAfterOverlap getNetwork
  cases ket.network with
  | none => rfl
  | some k =>
    cases bra.network with
    | none => rfl
    | some l =>
      rw [Attempt.final_ofExcept_bind]
      dsimp only
      rw [Attempt.final_ofExcept_bind]
      dsimp only
      split
      · rfl
      · exact Network.final_withStaging k l _ site

theorem final_overlap [Magnitude α ρ] (b : Backend α ρ σ) (ket bra : NetworkState α)
    (site : Site α σ) :
    ((ket.overlap b bra).final site).store = ket.storeAfterOverlap bra site.store := by
  rw [← final_inner b ket bra site, overlap]
  cases h : ket.inner b bra site with
  | ok a last => rw [Attempt.final_bind_ok h, Attempt.final, Attempt.final, h]; rfl
  | error e last => rw [Attempt.final, Attempt.final, Attempt.bind_error h, h]

theorem storeAfterOverlap_cases (ket bra : NetworkState α) :
    ket.storeAfterOverlap bra = id ∨ ∃ k l, ket.network = some k ∧ bra.network = some l ∧
      ket.storeAfterOverlap bra = k.storeAfterJoin l := by
  cases hk : ket.network with
  | none => exact .inl (funext fun s => by simp only [storeAfterOverlap, hk, id])
  | some k =>
    cases hl : bra.network with
    | none => exact .inl (funext fun s => by simp only [storeAfterOverlap, hk, hl, id])
    | some l =>
      by_cases hzero : (k.qubits = 0 || l.qubits = 0) = true
      · exact .inl (funext fun s => by simp only [storeAfterOverlap, hk, hl, if_pos hzero, id])
      · exact .inr ⟨k, l, rfl, rfl,
          funext fun s => by simp only [storeAfterOverlap, hk, hl, if_neg hzero]⟩

end NetworkState

/-! ## A released tensor in the bra -/

namespace Arena

/-- Two slots, of which the first is empty and at generation `g`. -/
def spare (g : UInt32) : Arena Amplitude where
  number := 0
  slots := #[⟨g, none⟩, ⟨0, some (.raising 1)⟩]
  free := [0]
  lists_free := ⟨List.nodup_singleton 0, fun i => by
    match i with
    | 0 | 1 | i + 2 => simp⟩

/-- The first slot holds the transposed copy of the tensor in the second. -/
def filled (g : UInt32) : Arena Amplitude := ((spare g).store (Tensor.raising 1).transpose).2

theorem release_filled (g : UInt32) : (filled g).release ⟨0, 0, g⟩ = spare (g + 1) := by
  simp [release, find?, filled, store, spare, owns]

theorem get_filled {g : UInt32} (hg : g ≠ 0) :
    (filled g).get ⟨0, 0, 0⟩ = .error (.invalid (.releasedHandle ⟨0, 0, 0⟩)) := by
  simp [get, find?, filled, store, spare, owns, hg]

end Arena

namespace Operator

/-- The non-unitary operator on the first qubit with the tensor of a handle. -/
def onFirst (h : Handle) (adjoint : Bool) : Operator := ⟨[0], [], h, .nonUnitary, adjoint⟩

theorem onFirst_fits {a : Arena α} {h : Handle} {t : Tensor α} (adjoint : Bool)
    (hget : a.get h = .ok t) (hrows : t.rows = 2) (hcols : t.cols = 2) :
    (onFirst h adjoint).Fits a 1 :=
  ⟨by simp [onFirst], by simp [onFirst, wires], by simp [onFirst, wires], by simp [onFirst],
    t, hget, hrows, hcols⟩

end Operator

namespace Network

open Arena (spare filled)

variable {s : Store Amplitude} {g : UInt32} {n : Nat}

/-- One qubit, raised by the first tensor of the arena and then by the second. -/
def raisedTwice : Network := ⟨0, 1, [.onFirst ⟨0, 0, 0⟩ false, .onFirst ⟨0, 1, 0⟩ false], 2⟩

theorem raisedTwice_built (h₀ : (s.arena 0).get ⟨0, 0, 0⟩ = .ok (.raising 1))
    (h₁ : (s.arena 0).get ⟨0, 1, 0⟩ = .ok (.raising 1)) : raisedTwice.Built s := by
  refine built_iff.2 ⟨fun op hop => ?_, rfl⟩
  rcases List.mem_pair.1 hop with rfl | rfl
  · exact Operator.onFirst_fits false h₀ rfl rfl
  · exact Operator.onFirst_fits false h₁ rfl rfl

/-- The last operator is joined first, and its copy gets the empty slot. -/
theorem final_join_spare (hs : s.arena 0 = spare g) :
    ∃ net : Network, net.arena = 0 ∧ ((empty 0 1).join raisedTwice).final ⟨s, .empty⟩ =
      (pushBra 0 [.onFirst ⟨0, 0, 0⟩ false] net).final ⟨s.put 0 (filled g), ⟨[⟨0, 0, g⟩]⟩⟩ := by
  have hstage : Staging.empty.stage (spare g) (Tensor.raising 1).transpose =
      .ok (⟨0, 0, g⟩, ⟨[⟨0, 0, g⟩]⟩, filled g) := rfl
  have hbra : (Operator.onFirst ⟨0, 1, 0⟩ false).toBra (spare g) (spare g) .empty =
      .ok (.onFirst ⟨0, 0, g⟩ true, ⟨[⟨0, 0, g⟩]⟩, filled g) := rfl
  have hfits : (Operator.onFirst ⟨0, 0, g⟩ true).Fits ((s.put 0 (filled g)).arena 0) 1 := by
    rw [Store.arena_put_same s 0 (filled g) rfl]
    exact Operator.onFirst_fits true ((Staging.get_stage hstage _).trans (if_pos rfl)) rfl rfl
  refine ⟨⟨0, 1, [.onFirst ⟨0, 0, g⟩ true], 1⟩, rfl, ?_⟩
  rw [final_join]
  show (pushBra 0 [.onFirst ⟨0, 1, 0⟩ false, .onFirst ⟨0, 0, 0⟩ false] (empty 0 1)).final
    ⟨s, .empty⟩ = _
  rw [final_pushBra_cons]
  dsimp only [empty]
  rw [hs, hbra]
  dsimp only
  rw [push_of_fits hfits]
  rfl

/-- Before the generation has come round, the released tensor stops the join and the slot is empty
again, one generation on. -/
theorem arena_storeAfterJoin_spare (hs : s.arena 0 = spare g) (hg : g ≠ 0) :
    ((empty 0 1).storeAfterJoin raisedTwice s).arena 0 = spare (g + 1) := by
  obtain ⟨net, hnet, hfinal⟩ := final_join_spare hs
  have hput := Store.arena_put_same s 0 (filled g) rfl
  have hbra : (Operator.onFirst ⟨0, 0, 0⟩ false).toBra (filled g) (filled g) ⟨[⟨0, 0, g⟩]⟩ =
      .error (.invalid (.releasedHandle ⟨0, 0, 0⟩)) := by
    rw [Operator.toBra_of_copied rfl, Operator.onFirst, Arena.get_filled hg]
    rfl
  refine (arena_storeAfterJoin_same (empty 0 1) raisedTwice s).trans ?_
  dsimp only [empty] at hfinal ⊢
  rw [hfinal, final_pushBra_cons, hnet, hput, hbra]
  dsimp only
  rw [hput]
  exact Arena.release_filled g

theorem arena_iterate_spare (hs : s.arena 0 = spare 1) (hn : n < 2 ^ 32) :
    (((empty 0 1).storeAfterJoin raisedTwice)^[n] s).arena 0 = spare (1 + .ofNat n) := by
  induction n with
  | zero => exact hs
  | succ n ih =>
    -- Short of a full round no generation on the way is zero, that of the released handle.
    have hg : 1 + UInt32.ofNat n ≠ 0 := by
      rw [Ne, ← UInt32.toNat_inj, UInt32.toNat_add, UInt32.toNat_ofNat', UInt32.toNat_one,
        UInt32.toNat_zero]
      omega
    rw [Function.iterate_succ_apply', arena_storeAfterJoin_spare (ih (by omega)) hg,
      UInt32.ofNat_add, UInt32.add_assoc]
    rfl

/-- When the generation has come round, the copy passes for the released tensor and is copied
itself. -/
theorem slotCount_storeAfterJoin_spare (hs : s.arena 0 = spare 0) :
    (((empty 0 1).storeAfterJoin raisedTwice s).arena 0).slotCount = 3 := by
  obtain ⟨net, hnet, hfinal⟩ := final_join_spare hs
  have hput := Store.arena_put_same s 0 (filled 0) rfl
  obtain ⟨a, hbra⟩ : ∃ a, (Operator.onFirst ⟨0, 0, 0⟩ false).toBra (filled 0) (filled 0)
      ⟨[⟨0, 0, 0⟩]⟩ = .ok (.onFirst ⟨0, 2, 0⟩ true, ⟨[⟨0, 0, 0⟩, ⟨0, 2, 0⟩]⟩, a) := ⟨_, rfl⟩
  have hstaged : (empty 0 1).stagedByJoin raisedTwice s = 2 := by
    rw [stagedByJoin]
    dsimp only [empty] at hfinal ⊢
    rw [hfinal, final_pushBra_cons, hnet, hput, hbra]
    dsimp only
    cases net.push ((s.put 0 (filled 0)).put 0 a) (.onFirst ⟨0, 2, 0⟩ true) <;> rfl
  have hslots := slotCount_storeAfterJoin (empty 0 1) raisedTwice s
  dsimp only [empty] at hslots hstaged ⊢
  rw [hslots, hstaged, hs]
  rfl

end Network

/-! ## In a room -/

namespace Room

variable [DecidableEq ι] [Magnitude α ρ]

/-- The room after the overlap of two of its states. -/
def afterOverlap (b : Backend α ρ σ) (ket bra : ι) (room : Room ι α σ) : Room ι α σ :=
  (room.ask b (.overlap ket bra : Question ι α Unit)).2

/-- Nothing can be seen in `after` of an overlap with the ket `ket` that was asked for in `room`:
the states with their networks and kept vectors are the same, so are the arenas other than the
ket's, and every handle of every arena names what it named. -/
structure Unmarked (room after : Room ι α σ) (ket : ι) : Prop where
  states : after.states = room.states
  others : ∀ k, (∀ net, (room.states ket).network = some net → net.arena ≠ k) →
    after.store.arena k = room.store.arena k
  get : ∀ k h, (after.store.arena k).get h = (room.store.arena k).get h
  liveCount : ∀ k, (after.store.arena k).liveCount = (room.store.arena k).liveCount

/-- The released handles among those of the bra are not given out again by the ket's arena before
their slots are released `n` times more. -/
def SteadyFor (room : Room ι α σ) (ket bra : ι) (n : Nat) : Prop :=
  ∀ k l, (room.states ket).network = some k → (room.states bra).network = some l →
    ∀ op ∈ l.ops, (room.store.arena k.arena).Steady n op.tensor

variable {room : Room ι α σ} {ket bra : ι}

theorem store_afterOverlap (b : Backend α ρ σ) (ket bra : ι) (room : Room ι α σ) :
    (room.afterOverlap b ket bra).store =
      (room.states ket).storeAfterOverlap (room.states bra) room.store :=
  NetworkState.final_overlap b (room.states ket) (room.states bra) ⟨room.store, room.bench⟩

theorem store_iterate_afterOverlap (b : Backend α ρ σ) (ket bra : ι) (room : Room ι α σ) (n : Nat) :
    ((afterOverlap b ket bra)^[n] room).store =
      ((room.states ket).storeAfterOverlap (room.states bra))^[n] room.store := by
  -- The states stay, so every repeat joins the same two networks.
  have hstates : ∀ n, ((afterOverlap b ket bra)^[n] room).states = room.states := by
    intro n
    induction n with
    | zero => rfl
    | succ n ih =>
      rw [Function.iterate_succ_apply']
      exact ih
  induction n with
  | zero => rfl
  | succ n ih =>
    rw [Function.iterate_succ_apply', Function.iterate_succ_apply', store_afterOverlap, ih, hstates]

omit [DecidableEq ι] in
/-- Handles that the ket's arena gave out are steady within its first 2^32 calls. -/
theorem steadyFor_of_run {k l : Network} {calls : List (Arena.Call α)} {n : Nat}
    (hk : (room.states ket).network = some k) (hl : (room.states bra).network = some l)
    (harena : room.store.arena k.arena = (Arena.empty k.arena).run calls)
    (hissued : ∀ op ∈ l.ops, op.tensor.arena = k.arena →
      ∃ t, .stored op.tensor t ∈ (Arena.empty k.arena).log calls)
    (hcount : calls.length + n < 2 ^ 32) : room.SteadyFor ket bra n := by
  rintro _ _ hk' hl' op hop
  obtain rfl := Option.some.inj (hk.symm.trans hk')
  obtain rfl := Option.some.inj (hl.symm.trans hl')
  intro hown
  obtain ⟨t, ht⟩ := hissued op hop (beq_iff_eq.1 hown)
  rw [harena] at hown ⊢
  exact Arena.steady_run ht hcount hown

theorem unmarked_afterOverlap (b : Backend α ρ σ) (ket bra : ι) (room : Room ι α σ) :
    room.Unmarked (room.afterOverlap b ket bra) ket := by
  refine ⟨rfl, fun k hk => ?_, fun k h => ?_, fun k => ?_⟩ <;> rw [store_afterOverlap] <;>
    rcases NetworkState.storeAfterOverlap_cases (room.states ket) (room.states bra) with
      hnone | ⟨net, other, hnet, -, hjoin⟩
  · rw [hnone, id]
  · rw [hjoin, Network.arena_storeAfterJoin_other (hk net hnet).symm]
  · rw [hnone, id]
  · rw [hjoin, Network.get_storeAfterJoin]
  · rw [hnone, id]
  · rw [hjoin, Network.liveCount_storeAfterJoin]

/-- An overlap leaves no trace, whether it ends in a value or in an error, and whichever error that
is. Asked for again and again, it adds no slots beyond those of the first time as long as the
generations of released handles do not come round, and never more than one slot for each
operator. -/
theorem overlap_leaves_no_trace (b : Backend α ρ σ) (room : Room ι α σ) (ket bra : ι) :
    room.Unmarked (room.afterOverlap b ket bra) ket ∧
    (∀ n, room.SteadyFor ket bra n → ∀ k,
      (((afterOverlap b ket bra)^[n + 1] room).store.arena k).slotCount =
        ((room.afterOverlap b ket bra).store.arena k).slotCount) ∧
    ∀ n k, (((afterOverlap b ket bra)^[n] room).store.arena k).slotCount ≤
      max (room.store.arena k).slotCount
        ((room.store.arena k).liveCount + (room.states bra).operatorCount) := by
  refine ⟨unmarked_afterOverlap b ket bra room, ?_⟩
  simp only [store_iterate_afterOverlap, store_afterOverlap]
  rcases NetworkState.storeAfterOverlap_cases (room.states ket) (room.states bra) with
    hnone | ⟨net, other, hnet, hother, hjoin⟩
  · simp [hnone]
  · have hcount : (room.states bra).operatorCount = other.ops.length := by
      rw [NetworkState.operatorCount, hother]
      rfl
    rw [hjoin, hcount]
    refine ⟨fun n hsteady k => ?_, fun n k => ?_⟩ <;> by_cases hk : k = net.arena
    · subst hk
      exact Network.slotCount_iterate_eq (hsteady net other hnet hother)
    · rw [Network.iterate_storeAfterJoin_other hk, Network.arena_storeAfterJoin_other hk]
    · subst hk
      exact (Network.slotCount_iterate_le net other room.store n).2
    · rw [Network.iterate_storeAfterJoin_other hk]
      exact le_max_left _ _

/-- The bra refers to a released tensor, which is met after a copy was staged. -/
theorem overlap_leaves_no_trace_released :
    let calls : List (Arena.Call Amplitude) :=
      [.allocate (.raising 1), .allocate (.raising 1), .release ⟨1, 1, 0⟩]
    let bra : Network :=
      ⟨1, 2, [⟨[0], [], ⟨1, 1, 0⟩, .unitary, false⟩, ⟨[1], [], ⟨1, 0, 0⟩, .nonUnitary, true⟩], 2⟩
    let room : Room Bool Amplitude Unit :=
      ⟨fun i => .ofNetwork (bif i then bra else .raising) {},
        Store.empty.put 1 ((Arena.empty 1).run calls), ⟨.ofBytes 300, ()⟩⟩
    let b : Backend Amplitude Float Unit := Dense.backend
    room.SteadyFor false true 9 ∧ room.Unmarked (room.afterOverlap b false true) false ∧
      (((afterOverlap b false true)^[10] room).store.arena 1).slotCount =
        ((room.afterOverlap b false true).store.arena 1).slotCount := by
  intro calls bra room b
  have harena : room.store.arena 1 = (Arena.empty 1).run calls :=
    Store.arena_put_same _ 1 _ (Arena.number_run _ _)
  have hlog : (Arena.empty 1).log calls = [.stored ⟨1, 0, 0⟩ (.raising 1),
      .stored ⟨1, 1, 0⟩ (.raising 1), .released ⟨1, 1, 0⟩] := rfl
  have hsteady : room.SteadyFor false true 9 := by
    refine steadyFor_of_run rfl rfl harena (fun op hop _ => ⟨.raising 1, ?_⟩) (by decide)
    show .stored op.tensor (.raising 1) ∈ (Arena.empty 1).log calls
    rw [hlog]
    rcases List.mem_pair.1 hop with rfl | rfl <;> simp
  obtain ⟨hunmarked, hslots, -⟩ := overlap_leaves_no_trace b room false true
  exact ⟨hsteady, hunmarked, hslots 9 hsteady 1⟩

/-- The bra's first tensor is released after the network was built. The generation of its slot comes
round before the overlap is asked for the 2^32-th time, which adds a slot to those of the first
time. -/
theorem overlap_adds_slot_after_round :
    let live : Arena Amplitude :=
      (Arena.empty 0).run [.allocate (.raising 1), .allocate (.raising 1)]
    let room : Room Bool Amplitude Unit :=
      ⟨fun i => .ofNetwork (bif i then .raisedTwice else .empty 0 1) {},
        Store.empty.put 0 (live.release ⟨0, 0, 0⟩), ⟨.ofBytes 300, ()⟩⟩
    let b : Backend Amplitude Float Unit := Dense.backend
    Network.raisedTwice.Built (Store.empty.put 0 live) ∧
      ((room.afterOverlap b false true).store.arena 0).slotCount = 2 ∧
      (((afterOverlap b false true)^[2 ^ 32] room).store.arena 0).slotCount = 3 := by
  intro live room b
  have hlive : (Store.empty.put 0 live).arena 0 = live := Store.arena_put_same _ 0 _ rfl
  have hspare : room.store.arena 0 = .spare 1 := Store.arena_put_same _ 0 (.spare 1) rfl
  have hjoin : (room.states false).storeAfterOverlap (room.states true) =
      (Network.empty 0 1).storeAfterJoin .raisedTwice := rfl
  refine ⟨Network.raisedTwice_built (by rw [hlive]; rfl) (by rw [hlive]; rfl), ?_, ?_⟩
  · rw [store_afterOverlap, hjoin, Network.arena_storeAfterJoin_spare hspare (by decide)]
    rfl
  · have hround : (1 : UInt32) + .ofNat (2 ^ 32 - 1) = 0 := rfl
    have hlast := Network.arena_iterate_spare hspare (n := 2 ^ 32 - 1) (by decide)
    rw [hround] at hlast
    rw [store_iterate_afterOverlap, hjoin, show 2 ^ 32 = (2 ^ 32 - 1) + 1 from rfl,
      Function.iterate_succ_apply']
    exact Network.slotCount_storeAfterJoin_spare hlast

end Room

end GateNetwork
