import GateNetwork.NetworkState.Dump
import GateNetwork.NetworkState.Overlap
import GateNetwork.NetworkState.Sampling
import GateNetwork.Proofs.Serving

/-!
# Watched backends

What a network state asks its backend for does not show in its answers. A watched backend notes the
outcome of every contraction into a state vector beside its own state, so the contractions that one
use of a state makes can be read off the notes. Watching changes nothing else: every computation
with a watched backend mirrors the one without.

The backends here are arbitrary: they may answer the same question differently every time, or fail.
-/

namespace GateNetwork

variable {α ρ σ τ υ : Type}

/-! ## Notes -/

/-- The outcomes of contractions, in order. -/
abbrev Notes (α : Type) : Type := List (Except Error (Array α))

namespace Bench

/-- The bench with nothing noted yet. -/
def watched (bench : Bench α σ) : Bench α (σ × Notes α) := ⟨bench.scratch, (bench.engine, [])⟩

/-- The bench without the notes. -/
def unwatched (bench : Bench α (σ × Notes α)) : Bench α σ := ⟨bench.scratch, bench.engine.1⟩

def notes (bench : Bench α (σ × Notes α)) : Notes α := bench.engine.2

end Bench

/-- Runs a computation of the bench, and adds notes about its outcome. -/
def Attempt.watched {β : Type} (act : Attempt Error (Bench α σ) β)
    (note : Except Error β → Notes α) : Attempt Error (Bench α (σ × Notes α)) β := fun bench =>
  match act bench.unwatched with
  | .ok v last => .ok v ⟨last.scratch, (last.engine, bench.notes ++ note (.ok v))⟩
  | .error e last => .error e ⟨last.scratch, (last.engine, bench.notes ++ note (.error e))⟩

/-- The backend that notes what its contractions come to. -/
def Backend.watched (b : Backend α ρ σ) : Backend α ρ (σ × Notes α) where
  workspace := b.workspace
  materialize a net := (b.materialize a net).watched fun r => [r]
  access a net q := (b.access a net q).watched fun _ => []

/-! ## Uses of a state -/

/-- A state with the store and the bench that it is used with. -/
structure Station (α σ : Type) where
  state : NetworkState α
  store : Store α
  bench : Bench α σ

namespace Station

/-- A use of a state. -/
inductive Use (α ρ τ υ : Type) where
  | append (op : Operator)
  | amplitude (digits : List Nat)
  | sample (next : υ → ρ × υ) (shots : Nat) (source : υ)
  | copyTo (buffer : Array α)
  | dump (line : α → String) (sink : Sink τ) (start : τ)
  /-- The overlap with another state, this one being the ket. -/
  | overlap (bra : NetworkState α)
  | norm

def desk (st : Station α σ) : Desk α σ := ⟨st.state, st.bench⟩

def watched (st : Station α σ) : Station α (σ × Notes α) := ⟨st.state, st.store, st.bench.watched⟩

end Station

/-- Appends an operator to the network of the state. -/
def NetworkState.append (s : NetworkState α) (store : Store α) (op : Operator) :
    Except Error (NetworkState α) := do
  let net ← s.getNetwork
  let (_, net) ← net.push store op
  return { s with network := some net }

section

variable [Magnitude α ρ] [Zero ρ] [Add ρ] [Mul ρ] [LE ρ] [DecidableLE ρ]

/-- The station after a use, whether it was answered or refused. -/
def Station.use (b : Backend α ρ σ) (st : Station α σ) : Use α ρ τ υ → Station α σ
  | .append op =>
    match st.state.append st.store op with
    | .ok s => { st with state := s }
    | .error _ => st
  | .amplitude digits =>
    let last := (NetworkState.amplitude b st.store digits).final st.desk
    ⟨last.state, st.store, last.bench⟩
  | .sample next shots source =>
    let last := ((NetworkState.sample b st.store next shots).final (st.desk, source)).1
    ⟨last.state, st.store, last.bench⟩
  | .copyTo buffer =>
    { st with bench := ((st.state.copyTo b st.store).final (st.bench, buffer)).1 }
  | .dump line sink start =>
    { st with bench := ((st.state.dump b st.store line sink).final (st.bench, start)).1 }
  | .overlap bra =>
    let last := (st.state.overlap b bra).final ⟨st.store, st.bench⟩
    { st with store := last.store, bench := last.bench }
  | .norm => { st with bench := (st.state.norm b st.store).final st.bench }

/-- The outcomes of the contractions that a use makes. -/
def Station.contractions (b : Backend α ρ σ) (st : Station α σ) (u : Use α ρ τ υ) : Notes α :=
  (st.watched.use b.watched u).bench.notes

end

/-! ## Watching changes nothing -/

namespace Attempt

variable {ε β γ δ : Type}

/-- Seen through `view`, the first computation runs like the second. -/
def Mirrors (view : δ → τ) (act' : Attempt ε δ β) (act : Attempt ε τ β) : Prop :=
  ∀ s, act (view s) = ofExcept (act'.outcome s) (view (act'.final s))

variable {view : δ → τ}

theorem Mirrors.final_eq {act' : Attempt ε δ β} {act : Attempt ε τ β} (h : Mirrors view act' act)
    (s : δ) : act.final (view s) = view (act'.final s) :=
  final_of_eq (h s)

theorem mirrors_ofExcept (r : Except ε β) : Mirrors view (ofExcept r) (ofExcept r) := by
  intro s
  cases r <;> rfl

theorem Mirrors.bind {act' : Attempt ε δ β} {act : Attempt ε τ β} {next' : β → Attempt ε δ γ}
    {next : β → Attempt ε τ γ} (hact : Mirrors view act' act)
    (hnext : ∀ v, Mirrors view (next' v) (next v)) :
    Mirrors view (act' >>= next') (act >>= next) := by
  intro s
  have hs := hact s
  cases h : act' s with
  | ok v t =>
    rw [outcome, final, h] at hs
    rw [bind_ok hs, hnext v t, outcome, outcome, final, final, bind_ok h]
  | error e t =>
    rw [outcome, final, h] at hs
    rw [bind_error hs, outcome, final, bind_error h]
    rfl

theorem mirrors_get_bind {next' : δ → Attempt ε δ γ} {next : τ → Attempt ε τ γ}
    (hnext : ∀ s, Mirrors view (next' s) (next (view s))) :
    Mirrors view (get >>= next') (get >>= next) := by
  intro s
  rw [bind_ok (get_apply (view s)), hnext s s, outcome, outcome, final, final,
    bind_ok (get_apply s)]

/-- Both take the same branch. -/
theorem mirrors_ite {p : Prop} {d d' : Decidable p} {a' b' : Attempt ε δ β} {a b : Attempt ε τ β}
    (ha : p → Mirrors view a' a) (hb : ¬ p → Mirrors view b' b) :
    Mirrors view (@ite _ p d' a' b') (@ite _ p d a b) := by
  by_cases hp : p
  · rw [if_pos hp, if_pos hp]
    exact ha hp
  · rw [if_neg hp, if_neg hp]
    exact hb hp

/-- Beside a second state that is seen as it is. -/
theorem mirrors_beside {act' : υ → Attempt ε δ β} {act : υ → Attempt ε τ β}
    {give' : β → δ → υ → Except ε γ × υ} {give : β → τ → υ → Except ε γ × υ}
    (hact : ∀ t, Mirrors view (act' t) (act t))
    (hgive : ∀ v s t, give' v s t = give v (view s) t) :
    Mirrors (fun p => (view p.1, p.2)) (beside act' give') (beside act give) := by
  rintro ⟨s, t⟩
  have h := beside_of_eq act' give' ((act' t).eq_ofExcept s)
  rw [outcome_of_eq h, final_of_eq h, beside_of_eq act give (hact t s)]
  cases (act' t).outcome s with
  | ok v => simp only [given, hgive]
  | error e => rfl

end Attempt

def Desk.unwatched (desk : Desk α (σ × Notes α)) : Desk α σ := ⟨desk.state, desk.bench.unwatched⟩

def Site.unwatched (site : Site α (σ × Notes α)) : Site α σ := ⟨site.store, site.bench.unwatched⟩

theorem Attempt.mirrors_watched {β : Type} (act : Attempt Error (Bench α σ) β)
    (note : Except Error β → Notes α) : Mirrors Bench.unwatched (act.watched note) act := by
  intro bench
  simp only [Attempt.watched, outcome, final]
  cases act bench.unwatched <;> rfl

theorem Backend.mirrors_materialize (b : Backend α ρ σ) (a : Arena α) (net : Network) :
    (b.watched.materialize a net).Mirrors Bench.unwatched (b.materialize a net) :=
  (b.materialize a net).mirrors_watched fun r => [r]

theorem Backend.mirrors_access (b : Backend α ρ σ) (a : Arena α) (net : Network) (q : Query) :
    (b.watched.access a net q).Mirrors Bench.unwatched (b.access a net q) :=
  (b.access a net q).mirrors_watched fun _ => []

theorem Desk.mirrors_atBench {β : Type} {act' : Attempt Error (Bench α (σ × Notes α)) β}
    {act : Attempt Error (Bench α σ) β} (h : act'.Mirrors Bench.unwatched act) :
    (Desk.atBench act').Mirrors Desk.unwatched (Desk.atBench act) := by
  intro desk
  have hbench := Desk.atBench_eq (act'.eq_ofExcept desk.bench)
  rw [Attempt.outcome_of_eq hbench, Attempt.final_of_eq hbench]
  exact Desk.atBench_eq (h desk.bench)

namespace NetworkState

theorem mirrors_currentVector (b : Backend α ρ σ) (store : Store α) :
    (currentVector b.watched store).Mirrors Desk.unwatched (currentVector b store) := by
  refine Attempt.mirrors_get_bind fun desk => (Attempt.mirrors_ofExcept _).bind fun net => ?_
  dsimp only [Desk.unwatched]
  cases desk.state.vectorAt? net.version with
  | some v => exact fun _ => rfl
  | none => exact (Desk.mirrors_atBench (b.mirrors_materialize _ _)).bind fun v _ => rfl

theorem mirrors_amplitude (b : Backend α ρ σ) (store : Store α) (digits : List Nat) :
    (amplitude b.watched store digits).Mirrors Desk.unwatched (amplitude b store digits) := by
  refine Attempt.mirrors_get_bind fun desk => (Attempt.mirrors_ofExcept _).bind fun index =>
    Attempt.mirrors_ite (fun _ => ?_) fun _ => ?_
  · refine (mirrors_currentVector b store).bind fun v => ?_
    cases v[index]? <;> exact fun _ => rfl
  · refine (Attempt.mirrors_ofExcept _).bind fun net =>
      (Desk.mirrors_atBench (b.mirrors_access _ _ _)).bind fun slice => ?_
    cases slice.amplitudes[0]? <;> exact fun _ => rfl

theorem mirrors_sample [Magnitude α ρ] [Zero ρ] [Add ρ] [Mul ρ] [LE ρ] [DecidableLE ρ]
    (b : Backend α ρ σ) (store : Store α) (next : υ → ρ × υ) (shots : Nat) :
    (sample b.watched store next shots).Mirrors (fun p => (p.1.unwatched, p.2))
      (sample b store next shots) := by
  refine Attempt.mirrors_beside (fun _ => Attempt.mirrors_ite (fun _ _ => rfl) fun _ =>
    (mirrors_currentVector b store).bind fun v => ?_) fun _ _ _ => rfl
  exact Attempt.mirrors_ite (fun _ _ => rfl) fun _ _ => rfl

theorem mirrors_norm (b : Backend α ρ σ) (store : Store α) (s : NetworkState α) :
    (norm b.watched store s).Mirrors Bench.unwatched (norm b store s) :=
  (Attempt.mirrors_ofExcept _).bind fun _ => (b.mirrors_access _ _ _).bind fun _ _ => rfl

theorem mirrors_vectorToCopy (b : Backend α ρ σ) (store : Store α) (s : NetworkState α)
    (length : Nat) : (vectorToCopy b.watched store s length).Mirrors Bench.unwatched
      (vectorToCopy b store s length) := by
  refine (Attempt.mirrors_ofExcept _).bind fun net => ?_
  cases dimension? s.qubits with
  | none => exact fun _ => rfl
  | some dim =>
    exact Attempt.mirrors_ite (fun _ _ => rfl) fun _ => b.mirrors_materialize _ _

theorem mirrors_copyTo (b : Backend α ρ σ) (store : Store α) (s : NetworkState α) :
    (copyTo b.watched store s).Mirrors (fun p => (p.1.unwatched, p.2)) (copyTo b store s) :=
  Attempt.mirrors_beside (fun buffer => mirrors_vectorToCopy b store s buffer.size)
    fun _ _ _ => rfl

theorem mirrors_vectorToDump (b : Backend α ρ σ) (store : Store α) (s : NetworkState α) :
    (vectorToDump b.watched store s).Mirrors Bench.unwatched (vectorToDump b store s) := by
  unfold vectorToDump
  cases s.readyVector? with
  | some v => exact fun _ => rfl
  | none => exact (Attempt.mirrors_ofExcept _).bind fun _ => b.mirrors_materialize _ _

theorem mirrors_dump (b : Backend α ρ σ) (store : Store α) (s : NetworkState α)
    (line : α → String) (sink : Sink τ) :
    (dump b.watched store s line sink).Mirrors (fun p => (p.1.unwatched, p.2))
      (dump b store s line sink) :=
  Attempt.mirrors_beside (fun _ => mirrors_vectorToDump b store s) fun _ _ _ => rfl

theorem mirrors_withStaging {β : Type} {arena : Nat} {act : Attempt Error (Joining α) Network}
    {use' : Network → Arena α → Attempt Error (Bench α (σ × Notes α)) β}
    {use : Network → Arena α → Attempt Error (Bench α σ) β}
    (huse : ∀ net a, (use' net a).Mirrors Bench.unwatched (use net a)) :
    (Network.withStaging arena act use').Mirrors Site.unwatched
      (Network.withStaging arena act use) := by
  intro site
  simp only [Network.withStaging, Attempt.outcome, Attempt.final, Site.unwatched]
  cases act ⟨site.store, .empty⟩ with
  | error e j => rfl
  | ok net j =>
    dsimp only
    rw [huse net (j.store.arena arena) site.bench, Attempt.outcome, Attempt.final]
    cases use' net (j.store.arena arena) site.bench <;> rfl

theorem mirrors_overlap [Magnitude α ρ] (b : Backend α ρ σ) (ket bra : NetworkState α) :
    (overlap b.watched ket bra).Mirrors Site.unwatched (overlap b ket bra) := by
  refine Attempt.Mirrors.bind ((Attempt.mirrors_ofExcept _).bind fun k =>
    (Attempt.mirrors_ofExcept _).bind fun l => ?_) fun _ _ => rfl
  refine Attempt.mirrors_ite (fun _ _ => rfl) fun _ => mirrors_withStaging fun net a => ?_
  refine (b.mirrors_access _ _ _).bind fun slice => ?_
  cases slice.amplitudes[0]? <;> exact fun _ => rfl

end NetworkState

def Station.unwatched (st : Station α (σ × Notes α)) : Station α σ :=
  ⟨st.state, st.store, st.bench.unwatched⟩

section

variable [Magnitude α ρ] [Zero ρ] [Add ρ] [Mul ρ] [LE ρ] [DecidableLE ρ]

/-- Watching changes nothing of what a use does. -/
theorem Station.use_watched (b : Backend α ρ σ) (st : Station α σ) (u : Use α ρ τ υ) :
    (st.watched.use b.watched u).unwatched = st.use b u := by
  cases u with
  | append op =>
    simp only [use, watched]
    cases st.state.append st.store op <;> rfl
  | amplitude digits =>
    have h : _ = (NetworkState.amplitude b st.store digits).final st.desk :=
      ((NetworkState.mirrors_amplitude b st.store digits).final_eq st.watched.desk).symm
    simp only [use, ← h]
    rfl
  | sample next shots source =>
    have h : _ = (NetworkState.sample b st.store next shots).final (st.desk, source) :=
      ((NetworkState.mirrors_sample b st.store next shots).final_eq
        (st.watched.desk, source)).symm
    simp only [use, ← h]
    rfl
  | copyTo buffer =>
    have h : _ = (st.state.copyTo b st.store).final (st.bench, buffer) :=
      ((NetworkState.mirrors_copyTo b st.store st.state).final_eq
        (st.bench.watched, buffer)).symm
    simp only [use, ← h]
    rfl
  | dump line sink start =>
    have h : _ = (st.state.dump b st.store line sink).final (st.bench, start) :=
      ((NetworkState.mirrors_dump b st.store st.state line sink).final_eq
        (st.bench.watched, start)).symm
    simp only [use, ← h]
    rfl
  | overlap bra =>
    have h : _ = (st.state.overlap b bra).final ⟨st.store, st.bench⟩ :=
      ((NetworkState.mirrors_overlap b st.state bra).final_eq ⟨st.store, st.bench.watched⟩).symm
    simp only [use, ← h]
    rfl
  | norm =>
    have h : _ = (st.state.norm b st.store).final st.bench :=
      ((NetworkState.mirrors_norm b st.store st.state).final_eq st.bench.watched).symm
    simp only [use, ← h]
    rfl

end

end GateNetwork
