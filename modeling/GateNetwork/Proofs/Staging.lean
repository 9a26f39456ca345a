import GateNetwork.Arena.Staging
import GateNetwork.Arena.Store
import GateNetwork.Proofs.Arena

/-!
# Staged tensors and stores

An arena with staged tensors answers like the arena before them on every handle that was not staged,
and once the staging is closed it answers like that arena on every handle. Seen from a store, a
computation that stages tensors in one arena and closes the staging leaves no trace.
-/

namespace GateNetwork

variable {α : Type}

namespace Staging

variable {s s' : Staging} {base a b : Arena α} {t : Tensor α} {h : Handle}

/-- The arena `a` is the arena `base` with the tensors of the staging added, under handles that
named nothing before. -/
structure Over (s : Staging) (base a : Arena α) : Prop where
  number : a.number = base.number
  other : ∀ h, h ∉ s.handles → a.get h = base.get h
  fresh : ∀ h ∈ s.handles, ∀ t, base.get h ≠ .ok t

theorem Over.empty (base : Arena α) : Over .empty base base :=
  ⟨rfl, fun _ _ => rfl, fun _ hh => absurd hh List.not_mem_nil⟩

/-- Tensors of the arena before the staging are still there. -/
theorem Over.get (o : Over s base a) (hget : base.get h = .ok t) : a.get h = .ok t := by
  rw [o.other h fun hh => o.fresh h hh t hget, hget]

/-- A staged tensor was allocated, and its handle comes last. -/
theorem stage_eq_ok (e : s.stage a t = .ok (h, s', b)) :
    a.allocate t = .ok (h, b) ∧ s' = ⟨s.handles ++ [h]⟩ := by
  unfold stage at e
  split at e
  · rename_i heq
    cases e
    exact ⟨heq, rfl⟩
  · cases e

theorem get_stage (e : s.stage a t = .ok (h, s', b)) (k : Handle) :
    b.get k = if k = h then .ok t else a.get k :=
  Arena.get_allocate (stage_eq_ok e).1 k

/-- Staging keeps what the handles in use name. -/
theorem get_stage_of_get (e : s.stage a t = .ok (h, s', b)) {k : Handle} {u : Tensor α}
    (hk : a.get k = .ok u) : b.get k = .ok u :=
  Arena.get_allocate_of_get (stage_eq_ok e).1 hk

/-- Staging one more tensor. -/
theorem Over.stage (o : Over s base a) (e : s.stage a t = .ok (h, s', b)) : Over s' base b := by
  have hget := get_stage e
  obtain ⟨heq, rfl⟩ := stage_eq_ok e
  refine ⟨(Arena.number_allocate heq).trans o.number, fun k hk => ?_, fun k hk u => ?_⟩
  · obtain ⟨hks, hkh⟩ : k ∉ s.handles ∧ k ≠ h := by simpa using hk
    rw [hget, if_neg hkh, o.other k hks]
  · by_cases hks : k ∈ s.handles
    · exact o.fresh k hks u
    · obtain rfl : k = h := by simpa [hks] using hk
      rw [← o.other k hks]
      exact Arena.get_before_allocate heq u

/-- A tensor of a fitting shape can be staged. -/
theorem Over.exists_stage (o : Over s base a) (ht : t.hasGateShape = true) :
    ∃ h s' b, s.stage a t = .ok (h, s', b) ∧ b.get h = .ok t ∧ Over s' base b ∧
      ∀ k u, a.get k = .ok u → b.get k = .ok u := by
  obtain ⟨h, b, heq⟩ := a.exists_allocate ht
  have e : s.stage a t = .ok (h, ⟨s.handles ++ [h]⟩, b) := by rw [Staging.stage, heq]
  have hnew := get_stage e h
  rw [if_pos rfl] at hnew
  exact ⟨h, _, b, e, hnew, o.stage e, fun k u hk => get_stage_of_get e hk⟩

/-! ## Closing -/

theorem number_close (s : Staging) (a : Arena α) : (s.close a).number = a.number := by
  unfold close
  induction s.handles generalizing a with
  | nil => rfl
  | cons h hs ih => rw [List.foldl_cons, ih, Arena.number_release]

theorem get_close_other (s : Staging) (a : Arena α) (hh : h ∉ s.handles) :
    (s.close a).get h = a.get h := by
  unfold close
  induction hs : s.handles generalizing s a with
  | nil => rfl
  | cons k ks ih =>
    obtain ⟨hk, hks⟩ : h ≠ k ∧ h ∉ ks := by simpa [hs] using hh
    rw [List.foldl_cons, ih ⟨ks⟩ _ hks rfl, Arena.get_release_other a hk]

/-- A handle that names nothing does not come to name something by releasing handles. -/
theorem get_close_of_dead (s : Staging) (a : Arena α) (hdead : ∀ t, a.get h ≠ .ok t)
    (t : Tensor α) : (s.close a).get h ≠ .ok t := by
  unfold close
  induction s.handles generalizing a with
  | nil => exact hdead t
  | cons k ks ih =>
    rw [List.foldl_cons]
    refine ih (a.release k) fun u => ?_
    by_cases hk : h = k
    · subst hk
      exact Arena.get_release_same a h u
    · rw [Arena.get_release_other a hk]
      exact hdead u

theorem get_close_same (s : Staging) (a : Arena α) (hh : h ∈ s.handles) (t : Tensor α) :
    (s.close a).get h ≠ .ok t := by
  obtain ⟨before, after, hs⟩ := List.append_of_mem hh
  have hsplit : s.close a = close ⟨after⟩ ((close ⟨before⟩ a).release h) := by
    simp [close, hs]
  rw [hsplit]
  exact get_close_of_dead ⟨after⟩ _ (Arena.get_release_same _ h) t

/-- Once the staging is closed, every handle names what it named before. -/
theorem Over.get_close (o : Over s base a) (h : Handle) : (s.close a).get h = base.get h := by
  by_cases hh : h ∈ s.handles
  · exact Arena.get_error_congr ((number_close s a).trans o.number) (o.fresh h hh)
      (get_close_same s a hh)
  · rw [get_close_other s a hh, o.other h hh]

end Staging

/-! ## Stores -/

namespace Store

variable {s s' : Store α} {t : Tensor α} {h : Handle} {k : Nat}

/-- What a store has at a number after an arena was put there. -/
theorem arena_put (s : Store α) {j k : Nat} {a : Arena α} (ha : a.number = k) :
    (s.put k a).arena j = if j = k then a else s.arena j := by
  split
  · rename_i hj
    rw [hj, arena_put_same s k a ha]
  · rename_i hj
    exact arena_put_other s a hj

theorem exists_allocate (s : Store α) (k : Nat) (ht : t.hasGateShape = true) :
    ∃ h s', s.allocate k t = .ok (h, s') := by
  obtain ⟨h, a, heq⟩ := (s.arena k).exists_allocate ht
  rw [allocate, heq]
  exact ⟨_, _, rfl⟩

theorem allocate_eq_ok (e : s.allocate k t = .ok (h, s')) :
    ∃ a, (s.arena k).allocate t = .ok (h, a) ∧ s' = s.put k a := by
  unfold allocate at e
  split at e
  · rename_i a heq
    cases e
    exact ⟨a, heq, rfl⟩
  · cases e

/-- What was allocated is found under its handle. -/
theorem get_allocated (e : s.allocate k t = .ok (h, s')) : (s'.arena k).get h = .ok t := by
  obtain ⟨a, heq, rfl⟩ := allocate_eq_ok e
  rw [arena_put_same s k a (Arena.number_allocate heq), Arena.get_allocate heq, if_pos rfl]

/-- Allocating in a store keeps what the handles in use name. -/
theorem get_allocate (e : s.allocate k t = .ok (h, s')) {j : Nat} {i : Handle} {u : Tensor α}
    (hi : (s.arena j).get i = .ok u) : (s'.arena j).get i = .ok u := by
  obtain ⟨a, heq, rfl⟩ := allocate_eq_ok e
  have hnumber : a.number = k := Arena.number_allocate heq
  rw [arena_put s hnumber]
  split
  · rename_i hj
    subst hj
    exact Arena.get_allocate_of_get heq hi
  · exact hi

/-- Releasing in a store keeps what the other handles name. -/
theorem get_release (s : Store α) (k : Nat) {i h : Handle} (hne : i ≠ h) (j : Nat) :
    ((s.release k h).arena j).get i = (s.arena j).get i := by
  unfold release
  have hnumber : ((s.arena k).release h).number = k := Arena.number_release _ h
  rw [arena_put s hnumber]
  split
  · rename_i hj
    rw [hj, Arena.get_release_other _ hne]
  · rfl

end Store

end GateNetwork
