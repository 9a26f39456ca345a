import GateNetwork.Proofs.ArenaHistory
import GateNetwork.Proofs.Staging

/-!
# Scopes that share an arena

Any number of scopes can be open on one arena, each with a staging of its own, while tensors are
allocated and released beside them. A scope that closes may release handles whose tensors are gone
and whose slots were given to others meanwhile. It is the handles that keep the scopes apart: what a
scope holds is what the log says it staged, and a release changes the answer for its handle only.
-/

namespace GateNetwork

/-- An arena with the scopes opened on it, numbered in that order. A closed one has no staging. -/
structure Scopes (α : Type) where
  arena : Arena α
  stagings : Array (Option Staging)

namespace Scopes

variable {α : Type}

inductive Call (α : Type) where
  | enter
  | stage (i : Nat) (t : Tensor α)
  | close (i : Nat)
  | plain (c : Arena.Call α)

/-- What became of a call. -/
inductive Entry (α : Type) where
  | entered (i : Nat)
  /-- The scope `i` staged a tensor under a handle. -/
  | staged (i : Nat) (h : Handle)
  | rejected (i : Nat) (e : Error)
  | closed (i : Nat)
  /-- No scope `i` is open. -/
  | absent (i : Nat)
  | plain (e : Arena.Entry α)

/-- The arena before any scope was opened. -/
def on (a : Arena α) : Scopes α := ⟨a, #[]⟩

/-- The staging of an open scope. -/
def staging? (s : Scopes α) (i : Nat) : Option Staging := s.stagings[i]?.join

def call (s : Scopes α) : Call α → Entry α × Scopes α
  | .enter => (.entered s.stagings.size, { s with stagings := s.stagings.push (some .empty) })
  | .stage i t =>
    match s.staging? i with
    | none => (.absent i, s)
    | some staging =>
      match staging.stage s.arena t with
      | .ok (h, longer, a) => (.staged i h, ⟨a, s.stagings.setIfInBounds i (some longer)⟩)
      | .error e => (.rejected i e, s)
  | .close i =>
    match s.staging? i with
    | none => (.absent i, s)
    | some staging => (.closed i, ⟨staging.close s.arena, s.stagings.setIfInBounds i none⟩)
  | .plain c => (.plain (s.arena.call c).1, { s with arena := (s.arena.call c).2 })

def run (s : Scopes α) : List (Call α) → Scopes α
  | [] => s
  | c :: cs => (s.call c).2.run cs

/-- What became of calls, in order. -/
def log (s : Scopes α) : List (Call α) → List (Entry α)
  | [] => []
  | c :: cs => (s.call c).1 :: (s.call c).2.log cs

section

variable {s : Scopes α} {i : Nat} {staging : Staging} {t : Tensor α}

theorem staging?_lt (hopen : s.staging? i = some staging) : i < s.stagings.size := by
  by_contra hge
  rw [staging?, Array.getElem?_eq_none (Nat.not_lt.1 hge)] at hopen
  cases hopen

theorem staging?_set (a : Arena α) (hopen : s.staging? i = some staging) (o : Option Staging)
    (j : Nat) : (⟨a, s.stagings.setIfInBounds i o⟩ : Scopes α).staging? j =
      if j = i then o else s.staging? j := by
  have hlt := staging?_lt hopen
  unfold staging?
  rw [Array.getElem?_setIfInBounds]
  by_cases hj : j = i
  · subst hj
    rw [if_pos rfl, if_pos rfl, if_pos hlt]
    rfl
  · rw [if_neg (Ne.symm hj), if_neg hj]

theorem staging?_push (a : Arena α) (o : Option Staging) (j : Nat) :
    (⟨a, s.stagings.push o⟩ : Scopes α).staging? j =
      if j = s.stagings.size then o else s.staging? j := by
  unfold staging?
  rw [Array.getElem?_push]
  split <;> rfl

/-! ## What a call does to a scope -/

theorem call_stage_ok (hopen : s.staging? i = some staging) {h : Handle} {longer : Staging}
    {a : Arena α} (e : staging.stage s.arena t = .ok (h, longer, a)) :
    s.call (.stage i t) = (.staged i h, ⟨a, s.stagings.setIfInBounds i (some longer)⟩) := by
  simp only [call, hopen, e]

theorem call_stage_error (hopen : s.staging? i = some staging) {e : Error}
    (he : staging.stage s.arena t = .error e) : s.call (.stage i t) = (.rejected i e, s) := by
  simp only [call, hopen, he]

theorem call_close (hopen : s.staging? i = some staging) : s.call (.close i) =
    (.closed i, ⟨staging.close s.arena, s.stagings.setIfInBounds i none⟩) := by
  simp only [call, hopen]

end

/-- The log has, for every open scope, the handles that its staging holds. -/
structure Tracks (number : Nat) (entries : List (Entry α)) (s : Scopes α) : Prop where
  number_eq : s.arena.number = number
  handles : ∀ i staging, s.staging? i = some staging →
    ∀ h, h ∈ staging.handles ↔ .staged i h ∈ entries
  lt : ∀ i h, .staged i h ∈ entries → i < s.stagings.size
  owned : ∀ i h, .staged i h ∈ entries → h.arena = number

namespace Tracks

variable {number : Nat} {entries : List (Entry α)} {s : Scopes α} {i : Nat} {staging : Staging}

theorem on (a : Arena α) : Tracks a.number [] (on a) where
  number_eq := rfl
  handles i staging hopen := by simp [staging?, Scopes.on] at hopen
  lt i h hmem := absurd hmem List.not_mem_nil
  owned i h hmem := absurd hmem List.not_mem_nil

/-- Calls that stage nothing leave the log of stagings alone. -/
theorem concat (r : Tracks number entries s) {e : Entry α} {s' : Scopes α}
    (he : ∀ j h, e ≠ .staged j h) (hnumber : s'.arena.number = s.arena.number)
    (hsize : s.stagings.size ≤ s'.stagings.size)
    (hopen : ∀ j staging, s'.staging? j = some staging → s.staging? j = some staging ∨
      j = s.stagings.size ∧ staging = .empty) : Tracks number (entries ++ [e]) s' := by
  have hmem {j : Nat} {h : Handle} : .staged j h ∈ entries ++ [e] ↔ .staged j h ∈ entries := by
    rw [List.mem_append, List.mem_singleton, or_iff_left (he j h).symm]
  refine ⟨hnumber.trans r.number_eq, fun j staging hj h => ?_, fun j h hj => ?_, fun j h hj => ?_⟩
  · rw [hmem]
    rcases hopen j staging hj with hold | ⟨rfl, rfl⟩
    · exact r.handles j staging hold h
    · refine iff_of_false List.not_mem_nil fun hstaged => ?_
      exact lt_irrefl _ (r.lt _ h hstaged)
  · exact (r.lt j h (hmem.1 hj)).trans_le hsize
  · exact r.owned j h (hmem.1 hj)

theorem stage (r : Tracks number entries s) (hopen : s.staging? i = some staging) {t : Tensor α}
    {h : Handle} {longer : Staging} {a : Arena α}
    (e : staging.stage s.arena t = .ok (h, longer, a)) :
    Tracks number (entries ++ [.staged i h]) ⟨a, s.stagings.setIfInBounds i (some longer)⟩ := by
  have hadded : longer.handles = staging.handles ++ [h] := by rw [(Staging.stage_eq_ok e).2]
  have heq := (Staging.stage_eq_ok e).1
  have howned : h.arena = number := by
    rw [(Arena.allocate_eq_store heq).1, Arena.arena_store, r.number_eq]
  have hmem {j : Nat} {k : Handle} : .staged j k ∈ entries ++ [.staged i h] ↔
      .staged j k ∈ entries ∨ j = i ∧ k = h := by
    rw [List.mem_append, List.mem_singleton, Entry.staged.injEq]
  refine ⟨(Arena.number_allocate heq).trans r.number_eq, fun j other hj k => ?_,
    fun j k hj => ?_, fun j k hj => ?_⟩
  · rw [staging?_set a hopen] at hj
    rw [hmem]
    split at hj
    · rename_i hji
      cases hj
      rw [hadded, List.mem_append, List.mem_singleton, hji, r.handles i staging hopen,
        and_iff_right rfl]
    · rename_i hne
      rw [r.handles j other hj, or_iff_left fun hboth => hne hboth.1]
  · rw [Array.size_setIfInBounds]
    rcases hmem.1 hj with hold | ⟨rfl, -⟩
    · exact r.lt j k hold
    · exact staging?_lt hopen
  · rcases hmem.1 hj with hold | ⟨-, rfl⟩
    · exact r.owned j k hold
    · exact howned

theorem call (r : Tracks number entries s) (c : Call α) :
    Tracks number (entries ++ [(s.call c).1]) (s.call c).2 := by
  cases c with
  | enter =>
    refine r.concat (fun j h => nofun) rfl (by simp [Scopes.call]) fun j staging hj => ?_
    rw [Scopes.call, staging?_push] at hj
    split at hj
    · rename_i heq
      exact .inr ⟨heq, (Option.some.inj hj).symm⟩
    · exact .inl hj
  | stage i t =>
    cases hopen : s.staging? i with
    | none =>
      simp only [Scopes.call, hopen]
      exact r.concat (fun j h => nofun) rfl le_rfl fun j staging hj => .inl hj
    | some staging =>
      cases e : staging.stage s.arena t with
      | error err =>
        rw [call_stage_error hopen e]
        exact r.concat (fun j h => nofun) rfl le_rfl fun j staging hj => .inl hj
      | ok result =>
        obtain ⟨h, longer, a⟩ := result
        rw [call_stage_ok hopen e]
        exact r.stage hopen e
  | close i =>
    cases hopen : s.staging? i with
    | none =>
      simp only [Scopes.call, hopen]
      exact r.concat (fun j h => nofun) rfl le_rfl fun j staging hj => .inl hj
    | some staging =>
      rw [call_close hopen]
      refine r.concat (fun j h => nofun) (Staging.number_close staging s.arena)
        (Array.size_setIfInBounds ..).ge fun j other hj => .inl ?_
      rw [staging?_set _ hopen] at hj
      split at hj
      · cases hj
      · exact hj
  | plain c =>
    have hnumber := Arena.number_call s.arena c
    exact r.concat (fun j h => nofun) hnumber le_rfl fun j staging hj => .inl hj

theorem run (r : Tracks number entries s) (cs : List (Call α)) :
    Tracks number (entries ++ s.log cs) (s.run cs) := by
  induction cs generalizing entries s with
  | nil => rwa [log, List.append_nil]
  | cons c cs ih =>
    rw [log, List.append_cons]
    exact ih (r.call c)

/-- What a scope staged is not found any more once the scope is closed. -/
theorem get_close_staged (r : Tracks number entries s) (hopen : s.staging? i = some staging)
    {h : Handle} (hstaged : .staged i h ∈ entries) :
    (staging.close s.arena).get h = .error (.invalid (.releasedHandle h)) := by
  have hdead := Staging.get_close_same staging s.arena ((r.handles i staging hopen h).2 hstaged)
  have hown : (staging.close s.arena).owns h = true := by
    rw [Arena.owns, Staging.number_close, r.number_eq, r.owned i h hstaged, beq_self_eq_true]
  refine Arena.get_released hown (Option.eq_none_iff_forall_ne_some.2 fun t ht => ?_)
  exact hdead t (Arena.get_found hown ht)

theorem get_close_other (r : Tracks number entries s) (hopen : s.staging? i = some staging)
    {h : Handle} (hnot : .staged i h ∉ entries) :
    (staging.close s.arena).get h = s.arena.get h :=
  Staging.get_close_other staging s.arena (mt (r.handles i staging hopen h).1 hnot)

end Tracks

/-- Whatever was opened, staged, closed, allocated and released before, a scope that closes ends
what the handles name that it staged, and leaves all other handles and scopes alone, also where a
staged tensor was released by hand and its slot has another one by now. A tensor that it refuses to
stage changes nothing. Handles are equal as values here: one that comes round again, after its slot
was released `2 ^ 32` times, is still one that the scope staged. -/
theorem close_frees_staged (a : Arena α) (calls : List (Call α)) :
    let s := (on a).run calls
    let entries := (on a).log calls
    ∀ i staging, s.staging? i = some staging →
      let closed := (s.call (.close i)).2
      -- The handles that it staged name nothing any more, and all others what they named.
      (∀ h, .staged i h ∈ entries →
        closed.arena.get h = .error (.invalid (.releasedHandle h))) ∧
      (∀ h, .staged i h ∉ entries → closed.arena.get h = s.arena.get h) ∧
      closed.arena.liveHandles = s.arena.liveHandles \ {h | .staged i h ∈ entries} ∧
      (∀ j, closed.staging? j = if j = i then none else s.staging? j) ∧
      -- What it stages is a gate tensor, under a handle that named nothing.
      (∀ t, t.hasGateShape = true → ∃ h s', s.call (.stage i t) = (.staged i h, s') ∧
        h ∉ s.arena.liveHandles ∧ s'.arena.get h = .ok t) ∧
      ∀ t, t.hasGateShape = false →
        s.call (.stage i t) = (.rejected i (.invalid (.storedShape t.rows t.cols)), s) := by
  intro s entries i staging hopen closed
  have htracks : Tracks a.number entries s := (Tracks.on a).run calls
  have hclosed : closed = ⟨staging.close s.arena, s.stagings.setIfInBounds i none⟩ := by
    rw [show closed = (s.call (.close i)).2 from rfl, call_close hopen]
  have hstaged : ∀ h, .staged i h ∈ entries →
      closed.arena.get h = .error (.invalid (.releasedHandle h)) := by
    rw [hclosed]
    exact fun h => htracks.get_close_staged hopen
  have hother : ∀ h, .staged i h ∉ entries → closed.arena.get h = s.arena.get h := by
    rw [hclosed]
    exact fun h => htracks.get_close_other hopen
  refine ⟨hstaged, hother, ?_, ?_, fun t ht => ?_, fun t ht => ?_⟩
  · ext h
    by_cases hmem : .staged i h ∈ entries
    · have hdead : ∀ t, closed.arena.get h ≠ .ok t := by simp [hstaged h hmem]
      exact iff_of_false (fun ⟨t, hget⟩ => hdead t hget) fun hboth => hboth.2 hmem
    · simp only [Set.mem_sdiff, Arena.liveHandles, Set.mem_ofPred_eq, hother h hmem, hmem,
        not_false_eq_true, and_true]
  · rw [hclosed]
    exact staging?_set _ hopen none
  · obtain ⟨h, b, heq⟩ := s.arena.exists_allocate ht
    have e : staging.stage s.arena t = .ok (h, ⟨staging.handles ++ [h]⟩, b) := by
      rw [Staging.stage, heq]
    refine ⟨h, _, call_stage_ok hopen e, ?_, ?_⟩
    · rintro ⟨u, hu⟩
      exact Arena.get_before_allocate heq u hu
    · rw [Staging.get_stage e, if_pos rfl]
  · refine call_stage_error hopen ?_
    rw [Staging.stage, Arena.allocate, ht]
    rfl

/-- The first of two tensors that scope `0` staged was released by hand, and a tensor of the arena's
own fills its slot now. That one stays when the scope closes, and so does what scope `1` staged. -/
theorem close_frees_staged_reissued :
    let t : Tensor Nat := ⟨1, 1, #[5], rfl⟩
    let flat : Tensor Nat := ⟨1, 2, #[5, 6], rfl⟩
    let calls : List (Call Nat) := [.enter, .enter, .stage 0 t, .stage 1 t,
      .plain (.release ⟨0, 0, 0⟩), .plain (.allocate t), .stage 0 flat, .stage 0 t]
    let s := (on (.empty 0)).run calls
    let closed := (s.call (.close 0)).2
    s.staging? 0 = some ⟨[⟨0, 0, 0⟩, ⟨0, 2, 0⟩]⟩ ∧
      closed.arena.get ⟨0, 0, 0⟩ = .error (.invalid (.releasedHandle ⟨0, 0, 0⟩)) ∧
      closed.arena.get ⟨0, 2, 0⟩ = .error (.invalid (.releasedHandle ⟨0, 2, 0⟩)) ∧
      closed.arena.get ⟨0, 0, 1⟩ = .ok t ∧ closed.arena.get ⟨0, 1, 0⟩ = .ok t ∧
      flat.hasGateShape = false ∧
      s.call (.stage 0 flat) = (.rejected 0 (.invalid (.storedShape 1 2)), s) := by
  intro t flat calls
  dsimp only
  have hopen : ((on (.empty 0)).run calls).staging? 0 = some ⟨[⟨0, 0, 0⟩, ⟨0, 2, 0⟩]⟩ := by cbv
  have hlog : (on (.empty 0)).log calls = [.entered 0, .entered 1, .staged 0 ⟨0, 0, 0⟩,
      .staged 1 ⟨0, 1, 0⟩, .plain (.released ⟨0, 0, 0⟩), .plain (.stored ⟨0, 0, 1⟩ t),
      .rejected 0 (.invalid (.storedShape 1 2)), .staged 0 ⟨0, 2, 0⟩] := by cbv
  have hpermanent : ((on (.empty 0)).run calls).arena.get ⟨0, 0, 1⟩ = .ok t := by cbv
  have hshared : ((on (.empty 0)).run calls).arena.get ⟨0, 1, 0⟩ = .ok t := by cbv
  obtain ⟨hstaged, hother, -, -, -, hrejected⟩ := close_frees_staged (.empty 0) calls 0 _ hopen
  rw [hlog] at hstaged hother
  refine ⟨hopen, hstaged _ (by simp), hstaged _ (by simp), ?_, ?_, rfl, hrejected flat rfl⟩
  · exact (hother _ (by simp)).trans hpermanent
  · exact (hother _ (by simp)).trans hshared

end Scopes

end GateNetwork
