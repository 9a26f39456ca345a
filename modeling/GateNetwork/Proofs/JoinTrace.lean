import GateNetwork.Proofs.Joining
import GateNetwork.Proofs.Tally

/-!
# What a join leaves behind

A join may stop at any operator, of the ket or of the bra, and then some copies are staged and
others are not. The invariant here asks nothing of the operators, so it holds wherever a join stops:
closing the staging gives back each handle of each arena what it named, and leaves as many slots as
the copies needed.

Joining once more stages as many copies as before, unless a released handle of the bra has been
given out again in between.
-/

namespace GateNetwork

variable {α σ : Type}

/-! ## Bra side -/

namespace Operator

variable {op : Operator} {a b source target : Arena α} {staging staging' : Staging} {n : Nat}

theorem check_congr (hget : b.get op.tensor = a.get op.tensor) : op.check b n = op.check a n := by
  rw [check, check, hget]

/-- What decides whether an operator fits is what its handle names. -/
theorem fits_congr_tensor (op : Operator) {h k : Handle}
    (hget : ∀ t, a.get h = .ok t ↔ b.get k = .ok t) :
    ({ op with tensor := h } : Operator).Fits a n ↔
      ({ op with tensor := k } : Operator).Fits b n := by
  constructor
  · rintro ⟨hne, hlt, hnodup, hfew, t, ht, hshape⟩
    exact ⟨hne, hlt, hnodup, hfew, t, (hget t).1 ht, hshape⟩
  · rintro ⟨hne, hlt, hnodup, hfew, t, ht, hshape⟩
    exact ⟨hne, hlt, hnodup, hfew, t, (hget t).2 ht, hshape⟩

end Operator

namespace Staging

variable {s : Staging} {a : Arena α} {t : Tensor α}

/-- A tensor is refused for its shape and for nothing else. -/
theorem stage_of_shape (s : Staging) (a : Arena α) (hshape : t.hasGateShape = true) :
    ∃ h s' b, s.stage a t = .ok (h, s', b) := by
  obtain ⟨h, b, heq⟩ := a.exists_allocate hshape
  exact ⟨h, ⟨s.handles ++ [h]⟩, b, by rw [stage, heq]⟩

theorem stage_of_not_shape (s : Staging) (a : Arena α) (hshape : t.hasGateShape = false) :
    s.stage a t = .error (.invalid (.storedShape t.rows t.cols)) := by
  rw [stage, Arena.allocate, hshape]
  rfl

end Staging

namespace Network

variable {s s' store store' : Store α} {l source : Nat} {j j' : Joining α} {net net' : Network}
  {ops : List Operator}

/-! ## Appending -/

theorem push_of_not_fits {op : Operator} (h : ¬ op.Fits (store.arena net.arena) net.qubits) :
    ∃ e, net.push store op = .error e := by
  cases hpush : net.push store op with
  | error e => exact ⟨e, rfl⟩
  | ok pushed => exact absurd (push_eq_ok hpush).1 h

theorem pushAll_congr (hget : ∀ k h, (store'.arena k).get h = (store.arena k).get h) :
    pushAll store' net ops = pushAll store net ops := by
  have hpush (net : Network) (op : Operator) : net.push store' op = net.push store op := by
    rw [push, push, Operator.check_congr (hget net.arena op.tensor)]
  induction ops generalizing net with
  | nil => rfl
  | cons op ops ih =>
    rw [pushAll, pushAll, List.foldlM_cons, List.foldlM_cons, hpush]
    cases net.push store op with
    | error e => rfl
    | ok r => exact ih

theorem pushAll_ok (h : pushAll store net ops = .ok net') :
    net'.arena = net.arena ∧ net'.qubits = net.qubits := by
  induction ops generalizing net with
  | nil =>
    cases h
    exact ⟨rfl, rfl⟩
  | cons op ops ih =>
    rw [pushAll, List.foldlM_cons] at h
    cases hpush : net.push store op with
    | error e =>
      rw [hpush] at h
      cases h
    | ok pushed =>
      rw [hpush] at h
      obtain ⟨harena, hqubits⟩ := ih h
      rw [(push_eq_ok hpush).2] at harena hqubits
      exact ⟨harena, hqubits⟩

/-- One operator of the bra side: its form is made, then kept in the store, then appended. -/
theorem final_pushBra_cons (source : Nat) (op : Operator) (ops : List Operator) (net : Network)
    (j : Joining α) : (pushBra source (op :: ops) net).final j =
      match op.toBra (j.store.arena source) (j.store.arena net.arena) j.staging with
      | .error _ => j
      | .ok (bra, staging, a) =>
        match net.push (j.store.put net.arena a) bra with
        | .error _ => ⟨j.store.put net.arena a, staging⟩
        | .ok (_, next) => (pushBra source ops next).final ⟨j.store.put net.arena a, staging⟩ := by
  rw [pushBra, Attempt.final_bind_ok (Attempt.get_apply j), Attempt.final_ofExcept_bind]
  cases op.toBra (j.store.arena source) (j.store.arena net.arena) j.staging with
  | error e => rfl
  | ok made =>
    obtain ⟨bra, staging, a⟩ := made
    refine (Attempt.final_bind_ok (Attempt.set_apply _ j) _).trans ?_
    rw [Attempt.final_ofExcept_bind]
    dsimp only
    cases net.push (j.store.put net.arena a) bra <;> rfl

theorem final_join (ket bra : Network) (j : Joining α) : (ket.join bra).final j =
      match pushAll j.store (.empty ket.arena (max ket.qubits bra.qubits)) ket.ops with
      | .ok net => (pushBra bra.arena bra.ops.reverse net).final j
      | .error _ => j := by
  rw [join, Attempt.final_bind_ok (Attempt.get_apply j), Attempt.final_ofExcept_bind]
  cases pushAll j.store (.empty ket.arena (max ket.qubits bra.qubits)) ket.ops with
  | ok net => rfl
  | error e => rfl

/-! ## What joining stages -/

/-- On the way to a joined network, whether or not it can be completed: the arena `l` of the store
`s` has staged tensors added, and the other arenas are as they were. -/
structure Grown (s : Store α) (l : Nat) (j : Joining α) : Prop where
  others : ∀ k, k ≠ l → j.store.arena k = s.arena k
  tally : j.staging.Tally (s.arena l) (j.store.arena l)

theorem Grown.start (s : Store α) (l : Nat) : Grown s l ⟨s, .empty⟩ :=
  ⟨fun _ _ => rfl, .empty _⟩

theorem Grown.put (hj : Grown s l j) {staging : Staging} {a : Arena α}
    (htally : staging.Tally (s.arena l) a) : Grown s l ⟨j.store.put l a, staging⟩ := by
  have hput : (j.store.put l a).arena l = a := Store.arena_put_same _ l a htally.staged.number
  refine ⟨fun k hk => ?_, hput.symm ▸ htally⟩
  rw [← hj.others k hk]
  exact Store.arena_put_other j.store a hk

/-- What a steady handle names does not change on the way. -/
theorem Grown.get_of_steady (hj : Grown s l j) {h : Handle} {n : Nat}
    (hs : (s.arena l).Steady n h) (k : Nat) : (j.store.arena k).get h = (s.arena k).get h := by
  by_cases hk : k = l
  · subst hk
    exact hj.tally.get_of_steady hs
  · rw [hj.others k hk]

/-- A bra-side form stages at most one tensor. -/
theorem Grown.toBra (hj : Grown s l j) {op bra : Operator} {source : Arena α} {staging : Staging}
    {a : Arena α} (e : op.toBra source (j.store.arena l) j.staging = .ok (bra, staging, a)) :
    Grown s l ⟨j.store.put l a, staging⟩ ∧ staging.count ≤ j.staging.count + 1 := by
  cases hplace : op.inPlace (j.store.arena l) with
  | true =>
    rw [Operator.toBra_of_inPlace hplace] at e
    cases e
    exact ⟨hj.put hj.tally, Nat.le_succ _⟩
  | false =>
    rw [Operator.toBra_of_copied hplace] at e
    cases hget : source.get op.tensor with
    | error e' =>
      rw [hget] at e
      cases e
    | ok t =>
      rw [hget] at e
      cases hstage : j.staging.stage (j.store.arena l) (op.braTensor t) with
      | error e' =>
        simp only [bind, Except.bind, hstage] at e
        cases e
      | ok staged =>
        simp only [bind, Except.bind, hstage] at e
        cases e
        exact ⟨hj.put (hj.tally.stage hstage), (Staging.count_stage hstage).le⟩

/-- Wherever appending the bra side stops, no more than one tensor was staged for each operator. -/
theorem Grown.pushBra (hj : Grown s l j) (source : Nat) (ops : List Operator)
    (hnet : net.arena = l) :
    Grown s l ((pushBra source ops net).final j) ∧
      ((pushBra source ops net).final j).staging.count ≤ j.staging.count + ops.length := by
  induction ops generalizing j net with
  | nil => exact ⟨hj, Nat.le_add_right _ _⟩
  | cons op ops ih =>
    rw [final_pushBra_cons, hnet, List.length_cons]
    cases hbra : op.toBra (j.store.arena source) (j.store.arena l) j.staging with
    | error e => exact ⟨hj, Nat.le_add_right _ _⟩
    | ok made =>
      obtain ⟨bra, staging, a⟩ := made
      obtain ⟨hgrown, hcount⟩ := hj.toBra hbra
      dsimp only
      cases hpush : net.push (j.store.put l a) bra with
      | error e => exact ⟨hgrown, by dsimp only; omega⟩
      | ok pushed =>
        have hnext : pushed.2.arena = l := by rw [(push_eq_ok hpush).2, hnet]
        obtain ⟨hrest, hrestcount⟩ := ih hgrown hnext
        refine ⟨hrest, hrestcount.trans ?_⟩
        dsimp only
        omega

theorem Grown.join (s : Store α) (ket bra : Network) :
    Grown s ket.arena ((ket.join bra).final ⟨s, .empty⟩) ∧
      ((ket.join bra).final ⟨s, .empty⟩).staging.count ≤ bra.ops.length := by
  rw [final_join]
  cases hall : Network.pushAll s (.empty ket.arena (max ket.qubits bra.qubits)) ket.ops with
  | error e => exact ⟨.start s _, Nat.zero_le _⟩
  | ok net =>
    have h := (Grown.start s ket.arena).pushBra bra.arena bra.ops.reverse (pushAll_ok hall).1
    rw [List.length_reverse] at h
    simpa [Staging.count, Staging.empty] using h

/-! ## Joining twice -/

/-- Over stores that answer alike, the bra-side forms of an operator are made or refused alike, they
stage alike, and they fit alike. -/
theorem Grown.toBra_congr (hj : Grown s l j) (hj' : Grown s' l j') (source : Nat) {op : Operator}
    (hget : ∀ k h, (s'.arena k).get h = (s.arena k).get h)
    (hs : (s.arena l).Steady 0 op.tensor) (hs' : (s'.arena l).Steady 0 op.tensor)
    (hcount : j'.staging.count = j.staging.count) :
    ((∃ e, op.toBra (j.store.arena source) (j.store.arena l) j.staging = .error e) ∧
        ∃ e, op.toBra (j'.store.arena source) (j'.store.arena l) j'.staging = .error e) ∨
      ∃ bra bra' staging staging' a a',
        op.toBra (j.store.arena source) (j.store.arena l) j.staging = .ok (bra, staging, a) ∧
        op.toBra (j'.store.arena source) (j'.store.arena l) j'.staging = .ok (bra', staging', a') ∧
        staging'.count = staging.count ∧
        ∀ n, bra.Fits ((j.store.put l a).arena l) n ↔
          bra'.Fits ((j'.store.put l a').arena l) n := by
  have hsame (k : Nat) : (j'.store.arena k).get op.tensor = (j.store.arena k).get op.tensor := by
    rw [hj.get_of_steady hs, hj'.get_of_steady hs', hget]
  cases hplace : op.inPlace (j.store.arena l) with
  | true =>
    have hplace' : op.inPlace (j'.store.arena l) = true := hplace
    refine .inr ⟨_, _, _, _, _, _, Operator.toBra_of_inPlace hplace,
      Operator.toBra_of_inPlace hplace', hcount, fun n => ?_⟩
    rw [Store.arena_put_same _ l _ rfl, Store.arena_put_same _ l _ rfl]
    exact Operator.fits_congr_tensor { op with adjoint := !op.adjoint } fun t => by rw [hsame]
  | false =>
    have hplace' : op.inPlace (j'.store.arena l) = false := hplace
    cases hfound : (j.store.arena source).get op.tensor with
    | error e =>
      rw [Operator.toBra_of_copied hplace, Operator.toBra_of_copied hplace', hsame, hfound]
      exact .inl ⟨⟨e, rfl⟩, e, rfl⟩
    | ok t =>
      have hfound' := (hsame source).trans hfound
      cases hshape : (op.braTensor t).hasGateShape with
      | false =>
        rw [Operator.toBra_of_copied hplace, Operator.toBra_of_copied hplace', hfound, hfound']
        have hstage (s : Staging) (a : Arena α) := s.stage_of_not_shape a hshape
        exact .inl ⟨⟨_, by simp only [bind, Except.bind, hstage]; rfl⟩, _,
          by simp only [bind, Except.bind, hstage]; rfl⟩
      | true =>
        obtain ⟨h, staging, a, hstage⟩ := j.staging.stage_of_shape (j.store.arena l) hshape
        obtain ⟨h', staging', a', hstage'⟩ := j'.staging.stage_of_shape (j'.store.arena l) hshape
        refine .inr ⟨_, _, staging, staging', a, a', Operator.toBra_of_stage hplace hfound hstage,
          Operator.toBra_of_stage hplace' hfound' hstage', ?_, fun n => ?_⟩
        · rw [Staging.count_stage hstage, Staging.count_stage hstage', hcount]
        · rw [Store.arena_put_same _ l a (hj.tally.stage hstage).staged.number,
            Store.arena_put_same _ l a' (hj'.tally.stage hstage').staged.number]
          have hread : a.get h = .ok (op.braTensor t) := by simpa using Staging.get_stage hstage h
          have hread' : a'.get h' = .ok (op.braTensor t) := by
            simpa using Staging.get_stage hstage' h'
          exact Operator.fits_congr_tensor { op with adjoint := !op.adjoint } fun u => by
            rw [hread, hread']

/-- Whether the bra side can be completed or not, over stores that answer alike as many tensors are
staged. -/
theorem Grown.count_pushBra (hj : Grown s l j) (hj' : Grown s' l j')
    (hget : ∀ k h, (s'.arena k).get h = (s.arena k).get h)
    (hs : ∀ op ∈ ops, (s.arena l).Steady 0 op.tensor)
    (hs' : ∀ op ∈ ops, (s'.arena l).Steady 0 op.tensor)
    (hcount : j'.staging.count = j.staging.count) (harena : net.arena = l)
    (harena' : net'.arena = l) (hqubits : net'.qubits = net.qubits) :
    ((Network.pushBra source ops net').final j').staging.count =
      ((Network.pushBra source ops net).final j).staging.count := by
  induction ops generalizing j j' net net' with
  | nil => exact hcount
  | cons op ops ih =>
    have hop := List.mem_cons_self (a := op) (l := ops)
    rw [final_pushBra_cons, final_pushBra_cons, harena, harena']
    rcases hj.toBra_congr hj' source hget (hs op hop) (hs' op hop) hcount with
      ⟨⟨e, hbra⟩, e', hbra'⟩ | ⟨bra, bra', staging, staging', a, a', hbra, hbra', hcount, hfits⟩
    · rw [hbra, hbra']
      exact hcount
    · rw [hbra, hbra']
      dsimp only
      -- The copies may have different handles in the two stores, but the append is refused in both
      -- or in neither.
      have hiff : bra'.Fits ((j'.store.put l a').arena net'.arena) net'.qubits ↔
          bra.Fits ((j.store.put l a).arena net.arena) net.qubits := by
        rw [harena, harena', hqubits, hfits]
      by_cases hfit : bra.Fits ((j.store.put l a).arena net.arena) net.qubits
      · rw [push_of_fits hfit, push_of_fits (hiff.2 hfit)]
        exact ih (hj.toBra hbra).1 (hj'.toBra hbra').1
          (fun op hop => hs op (List.mem_cons_of_mem _ hop))
          (fun op hop => hs' op (List.mem_cons_of_mem _ hop)) hcount harena harena' hqubits
      · obtain ⟨e, hpush⟩ := push_of_not_fits hfit
        obtain ⟨e', hpush'⟩ := push_of_not_fits (mt hiff.1 hfit)
        rw [hpush, hpush']
        exact hcount

theorem Grown.count_join (ket bra : Network)
    (hget : ∀ k h, (s'.arena k).get h = (s.arena k).get h)
    (hs : ∀ op ∈ bra.ops, (s.arena ket.arena).Steady 0 op.tensor)
    (hs' : ∀ op ∈ bra.ops, (s'.arena ket.arena).Steady 0 op.tensor) :
    ((ket.join bra).final ⟨s', .empty⟩).staging.count =
      ((ket.join bra).final ⟨s, .empty⟩).staging.count := by
  rw [final_join, final_join, pushAll_congr hget]
  cases hall : pushAll s (.empty ket.arena (max ket.qubits bra.qubits)) ket.ops with
  | error e => rfl
  | ok net =>
    have harena := (pushAll_ok hall).1
    exact (Grown.start s ket.arena).count_pushBra (.start s' ket.arena) hget
      (fun op hop => hs op (List.mem_reverse.1 hop)) (fun op hop => hs' op (List.mem_reverse.1 hop))
      rfl harena harena rfl

/-! ## After joining -/

/-- The store once the staging of a join is closed. -/
def storeAfterJoin (ket bra : Network) (s : Store α) : Store α :=
  let j := (ket.join bra).final ⟨s, .empty⟩
  j.store.put ket.arena (j.staging.close (j.store.arena ket.arena))

/-- How many tensors a join stages. -/
def stagedByJoin (ket bra : Network) (s : Store α) : Nat :=
  ((ket.join bra).final ⟨s, .empty⟩).staging.count

theorem final_withStaging {β : Type} (ket bra : Network)
    (use : Network → Arena α → Attempt Error (Bench α σ) β) (site : Site α σ) :
    ((withStaging ket.arena (ket.join bra) use).final site).store =
      ket.storeAfterJoin bra site.store := by
  simp only [storeAfterJoin, withStaging, Attempt.final]
  cases ket.join bra ⟨site.store, .empty⟩ with
  | error e j => rfl
  | ok net j =>
    dsimp only
    cases use net (j.store.arena ket.arena) site.bench <;> rfl

section

variable {ket bra : Network} {k n : Nat} {h : Handle}

theorem arena_storeAfterJoin_same (ket bra : Network) (s : Store α) :
    (ket.storeAfterJoin bra s).arena ket.arena =
      ((ket.join bra).final ⟨s, .empty⟩).staging.close
        (((ket.join bra).final ⟨s, .empty⟩).store.arena ket.arena) :=
  Store.arena_put_same _ _ _ (Staging.number_close _ _)

theorem arena_storeAfterJoin_other (hk : k ≠ ket.arena) :
    (ket.storeAfterJoin bra s).arena k = s.arena k := by
  rw [← (Grown.join s ket bra).1.others k hk]
  exact Store.arena_put_other _ _ hk

theorem get_storeAfterJoin (ket bra : Network) (s : Store α) (k : Nat) (h : Handle) :
    ((ket.storeAfterJoin bra s).arena k).get h = (s.arena k).get h := by
  by_cases hk : k = ket.arena
  · subst hk
    rw [arena_storeAfterJoin_same]
    exact (Grown.join s ket bra).1.tally.staged.get_close h
  · rw [arena_storeAfterJoin_other hk]

theorem liveCount_storeAfterJoin (ket bra : Network) (s : Store α) (k : Nat) :
    ((ket.storeAfterJoin bra s).arena k).liveCount = (s.arena k).liveCount :=
  Arena.liveCount_congr fun h => get_storeAfterJoin ket bra s k h

/-- Slots are added only where the copies need more than there are. -/
theorem slotCount_storeAfterJoin (ket bra : Network) (s : Store α) :
    ((ket.storeAfterJoin bra s).arena ket.arena).slotCount =
      max (s.arena ket.arena).slotCount
        ((s.arena ket.arena).liveCount + ket.stagedByJoin bra s) := by
  rw [arena_storeAfterJoin_same, Staging.slotCount_close]
  exact (Grown.join s ket bra).1.tally.slots

theorem steady_storeAfterJoin (hs : (s.arena ket.arena).Steady (n + 1) h) :
    ((ket.storeAfterJoin bra s).arena ket.arena).Steady n h := by
  rw [arena_storeAfterJoin_same]
  exact (Grown.join s ket bra).1.tally.steady_close hs

/-! ## Joining again and again -/

theorem iterate_storeAfterJoin_other (hk : k ≠ ket.arena) :
    ((ket.storeAfterJoin bra)^[n] s).arena k = s.arena k := by
  induction n with
  | zero => rfl
  | succ n ih => rw [Function.iterate_succ_apply', arena_storeAfterJoin_other hk, ih]

/-- However often the networks are joined, there are no more slots than one join can need. -/
theorem slotCount_iterate_le (ket bra : Network) (s : Store α) (n : Nat) :
    (((ket.storeAfterJoin bra)^[n] s).arena ket.arena).liveCount = (s.arena ket.arena).liveCount ∧
      (((ket.storeAfterJoin bra)^[n] s).arena ket.arena).slotCount ≤
        max (s.arena ket.arena).slotCount ((s.arena ket.arena).liveCount + bra.ops.length) := by
  induction n with
  | zero => exact ⟨rfl, le_max_left _ _⟩
  | succ n ih =>
    rw [Function.iterate_succ_apply']
    set t := (ket.storeAfterJoin bra)^[n] s
    obtain ⟨hlive, hslots⟩ := ih
    have hstaged : ket.stagedByJoin bra t ≤ bra.ops.length := (Grown.join t ket bra).2
    refine ⟨(liveCount_storeAfterJoin ket bra t _).trans hlive, ?_⟩
    rw [slotCount_storeAfterJoin, hlive]
    omega

/-- A second join needs the slots of the first one, and no others. -/
theorem slotCount_storeAfterJoin_again
    (hs : ∀ op ∈ bra.ops, (s.arena ket.arena).Steady 1 op.tensor) :
    ((ket.storeAfterJoin bra (ket.storeAfterJoin bra s)).arena ket.arena).slotCount =
      ((ket.storeAfterJoin bra s).arena ket.arena).slotCount := by
  have hstaged : ket.stagedByJoin bra (ket.storeAfterJoin bra s) = ket.stagedByJoin bra s :=
    Grown.count_join ket bra (get_storeAfterJoin ket bra s)
      (fun op hop => (hs op hop).mono zero_le_one) fun op hop => steady_storeAfterJoin (hs op hop)
  rw [slotCount_storeAfterJoin, hstaged, liveCount_storeAfterJoin, slotCount_storeAfterJoin]
  omega

theorem slotCount_iterate_eq (hs : ∀ op ∈ bra.ops, (s.arena ket.arena).Steady n op.tensor) :
    (((ket.storeAfterJoin bra)^[n + 1] s).arena ket.arena).slotCount =
      ((ket.storeAfterJoin bra s).arena ket.arena).slotCount := by
  induction n generalizing s with
  | zero => rfl
  | succ n ih =>
    rw [Function.iterate_succ_apply, ih fun op hop => steady_storeAfterJoin (hs op hop)]
    exact slotCount_storeAfterJoin_again fun op hop => (hs op hop).mono (Nat.le_add_left 1 n)

end

end Network

end GateNetwork
