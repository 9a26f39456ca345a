import GateNetwork.Proofs.Watching

/-!
# Contractions of single uses

Each use of a state that has its network is settled by one question: whether a vector is ready. An
amplitude of a small register and samples are drawn from the ready vector, or else from a new one
that is kept; a dump writes the ready vector, or else a new one that is not kept; a copy is always
new, once its buffer is accepted; nothing else contracts the network into a vector.
-/

namespace GateNetwork

variable {α ρ σ τ υ : Type}

/-! ## What computations keep -/

namespace Attempt

variable {ε β γ δ : Type}

/-- A part of the state is the same afterwards, however the computation ends. -/
def Keeps (part : τ → δ) (act : Attempt ε τ β) : Prop := ∀ s, part (act.final s) = part s

variable {part : τ → δ}

theorem keeps_ofExcept (r : Except ε β) : Keeps part (ofExcept r) := by
  intro s
  cases r <;> rfl

theorem Keeps.bind {act : Attempt ε τ β} {next : β → Attempt ε τ γ} (hact : Keeps part act)
    (hnext : ∀ v, Keeps part (next v)) : Keeps part (act >>= next) := by
  intro s
  have hs := hact s
  cases h : act s with
  | ok v t =>
    rw [final, h] at hs
    rw [final_bind_ok h, hnext v t]
    exact hs
  | error e t =>
    rw [final, h] at hs
    rw [final, bind_error h]
    exact hs

end Attempt

namespace NetworkState

variable {b : Backend α ρ σ} {store : Store α} {desk : Desk α σ} {net : Network}
  {s : NetworkState α}

theorem readyVector?_eq (hnet : s.network = some net) :
    s.readyVector? = s.vectorAt? net.version := by
  rw [readyVector?, hnet]

theorem getNetwork_eq (hnet : s.network = some net) : s.getNetwork = .ok net := by
  rw [getNetwork, hnet]

/-- The state after a contraction for the given version. -/
def keeping (s : NetworkState α) (version : UInt64) : Except Error (Array α) → NetworkState α
  | .ok v => { s with cache := some ⟨version, v⟩ }
  | .error _ => s

theorem network_keeping (s : NetworkState α) (version : UInt64) (r : Except Error (Array α)) :
    (s.keeping version r).network = s.network := by
  cases r <;> rfl

theorem qubits_keeping (s : NetworkState α) (version : UInt64) (r : Except Error (Array α)) :
    (s.keeping version r).qubits = s.qubits := by
  cases r <;> rfl

/-! ## The current vector -/

/-- A vector that is ready is not contracted again. -/
theorem currentVector_of_ready (b : Backend α ρ σ) (store : Store α)
    (hnet : desk.state.network = some net) {v : Array α}
    (hready : desk.state.readyVector? = some v) :
    currentVector b store desk = Attempt.ofExcept (.ok v) desk := by
  rw [readyVector?_eq hnet] at hready
  rw [currentVector, Attempt.bind_ok (Attempt.get_apply desk), getNetwork_eq hnet,
    Attempt.bind_ok (Attempt.ofExcept_ok net desk), hready]
  rfl

/-- Otherwise the network is contracted once, and a vector that comes of it is kept. -/
theorem currentVector_of_absent (b : Backend α ρ σ) (store : Store α)
    (hnet : desk.state.network = some net) (hready : desk.state.readyVector? = none) :
    let contract := b.materialize (store.arena net.arena) net
    let r := contract.outcome desk.bench
    currentVector b store desk =
      Attempt.ofExcept r ⟨desk.state.keeping net.version r, contract.final desk.bench⟩ := by
  intro contract r
  rw [readyVector?_eq hnet] at hready
  rw [currentVector, Attempt.bind_ok (Attempt.get_apply desk), getNetwork_eq hnet,
    Attempt.bind_ok (Attempt.ofExcept_ok net desk), hready]
  dsimp only
  have hdesk : Desk.atBench contract desk =
      Attempt.ofExcept r { desk with bench := contract.final desk.bench } :=
    Desk.atBench_eq (contract.eq_ofExcept desk.bench)
  cases hr : r with
  | ok v =>
    rw [hr] at hdesk
    exact Attempt.bind_ok hdesk _
  | error e =>
    rw [hr] at hdesk
    exact Attempt.bind_error hdesk _

/-! ## Answers from the current vector -/

/-- The entry of a vector at an index. -/
def entryAt (index : Nat) (v : Array α) : Except Error α :=
  match v[index]? with
  | some a => .ok a
  | none => .error .outOfBounds

theorem amplitude_of_current {digits : List Nat} {index : Nat}
    (hindex : basisIndex digits desk.state.qubits = .ok index)
    (hsmall : desk.state.qubits ≤ desk.state.settings.vectorQubits)
    {r : Except Error (Array α)} {last : Desk α σ}
    (hcurrent : currentVector b store desk = Attempt.ofExcept r last) :
    amplitude b store digits desk = Attempt.ofExcept (r.bind (entryAt index)) last := by
  rw [amplitude, Attempt.bind_ok (Attempt.get_apply desk), hindex,
    Attempt.bind_ok (Attempt.ofExcept_ok index desk), if_pos hsmall]
  refine Attempt.bind_ofExcept hcurrent fun v => ?_
  unfold entryAt
  cases v[index]? <;> rfl

/-- What sampling makes of a vector, and the source afterwards. -/
def samplesOf [Magnitude α ρ] [Zero ρ] [Add ρ] [Mul ρ] [LE ρ] [DecidableLE ρ] (next : υ → ρ × υ)
    (qubits shots : Nat) (source : υ) : Except Error (Array α) → Except Error Histogram × υ
  | .error e => (.error e, source)
  | .ok v =>
    let weights : Array ρ := Sampling.cumulative v
    let total := weights.back?.getD 0
    if total ≤ 0 then (.error (.invalid .zeroNorm), source)
    else
      let (h, last) := Sampling.draw next qubits weights total shots .empty source
      (.ok h, last)

theorem sample_of_current [Magnitude α ρ] [Zero ρ] [Add ρ] [Mul ρ] [LE ρ] [DecidableLE ρ]
    (next : υ → ρ × υ) {shots : Nat} (hshots : 0 < shots) (source : υ)
    {r : Except Error (Array α)} {last : Desk α σ}
    (hcurrent : currentVector b store desk = Attempt.ofExcept r last) :
    let drawn := samplesOf next last.state.qubits shots source r
    sample b store next shots (desk, source) = Attempt.ofExcept drawn.1 (last, drawn.2) := by
  intro drawn
  let weightsOf (v : Array α) : Except Error (Array ρ) :=
    if (Sampling.cumulative v : Array ρ).back?.getD 0 ≤ 0 then .error (.invalid .zeroNorm)
    else .ok (Sampling.cumulative v)
  have hweights : weightsToDraw b store shots desk =
      Attempt.ofExcept (r.bind weightsOf) last := by
    rw [weightsToDraw, if_neg hshots.ne']
    refine Attempt.bind_ofExcept hcurrent fun v => ?_
    dsimp only [weightsOf]
    split <;> rfl
  refine (Attempt.beside_of_eq (fun _ : υ => weightsToDraw b store shots) _ hweights).trans ?_
  cases r with
  | error e => rfl
  | ok v =>
    dsimp only [drawn, samplesOf, Except.bind, weightsOf]
    split <;> rfl

/-! ## Answers from a contraction that is not kept -/

theorem vectorToCopy_of_fits (b : Backend α ρ σ) (store : Store α) (hnet : s.network = some net)
    {length : Nat} (hfit : s.qubits < 64 ∧ length = 2 ^ s.qubits) (bench : Bench α σ) :
    vectorToCopy b store s length bench = b.materialize (store.arena net.arena) net bench := by
  have hdim : dimension? s.qubits = some (2 ^ s.qubits) := dimension?_eq_some.2 ⟨hfit.1, rfl⟩
  rw [vectorToCopy, getNetwork_eq hnet, Attempt.bind_ok (Attempt.ofExcept_ok net bench), hdim]
  dsimp only
  rw [if_neg (not_not.2 hfit.2)]

theorem vectorToCopy_of_not_fits (b : Backend α ρ σ) (store : Store α)
    (hnet : s.network = some net) {length : Nat}
    (hfit : ¬ (s.qubits < 64 ∧ length = 2 ^ s.qubits)) (bench : Bench α σ) :
    ∃ e, vectorToCopy b store s length bench = .error e bench := by
  rw [vectorToCopy, getNetwork_eq hnet, Attempt.bind_ok (Attempt.ofExcept_ok net bench)]
  cases hdim : dimension? s.qubits with
  | none => exact ⟨.workspace maxWord bench.scratch.capacity, rfl⟩
  | some dim =>
    obtain ⟨hcount, hpow⟩ := dimension?_eq_some.1 hdim
    have hlength : length ≠ dim := fun hlength => hfit ⟨hcount, hlength.trans hpow⟩
    dsimp only
    rw [if_pos hlength]
    exact ⟨.lengthMismatch dim length, rfl⟩

/-- What becomes of a copy, and the buffer afterwards. -/
def copied (buffer : Array α) : Except Error (Array α) → Except Error Unit × Array α
  | .ok v => (.ok (), overwrite buffer v)
  | .error e => (.error e, buffer)

theorem copyTo_of_vector {bench last : Bench α σ} {buffer : Array α} {r : Except Error (Array α)}
    (hvector : vectorToCopy b store s buffer.size bench = Attempt.ofExcept r last) :
    copyTo b store s (bench, buffer) =
      Attempt.ofExcept (copied buffer r).1 (last, (copied buffer r).2) := by
  let act (buffer : Array α) := vectorToCopy b store s buffer.size
  refine (Attempt.beside_of_eq act _ hvector).trans ?_
  cases r <;> rfl

theorem copyTo_of_fits (b : Backend α ρ σ) (store : Store α) (hnet : s.network = some net)
    {buffer : Array α} (hfit : s.qubits < 64 ∧ buffer.size = 2 ^ s.qubits) (bench : Bench α σ) :
    let contract := b.materialize (store.arena net.arena) net
    let made := copied buffer (contract.outcome bench)
    copyTo b store s (bench, buffer) =
      Attempt.ofExcept made.1 (contract.final bench, made.2) := by
  refine copyTo_of_vector ?_
  rw [vectorToCopy_of_fits b store hnet hfit]
  exact Attempt.eq_ofExcept _ bench

theorem copyTo_of_not_fits (b : Backend α ρ σ) (store : Store α) (hnet : s.network = some net)
    {buffer : Array α} (hfit : ¬ (s.qubits < 64 ∧ buffer.size = 2 ^ s.qubits)) (bench : Bench α σ) :
    ∃ e, copyTo b store s (bench, buffer) = .error e (bench, buffer) := by
  obtain ⟨e, hvector⟩ := vectorToCopy_of_not_fits b store hnet hfit bench
  exact ⟨e, copyTo_of_vector (r := .error e) hvector⟩

/-- What is written of a vector, and the sink afterwards. -/
def written (line : α → String) (sink : Sink τ) (start : τ) :
    Except Error (Array α) → Except Error Unit × τ
  | .ok v => sink.writeAll (v.toList.map line) start
  | .error e => (.error e, start)

theorem dump_of_vector {bench last : Bench α σ} {r : Except Error (Array α)}
    (hvector : vectorToDump b store s bench = Attempt.ofExcept r last) (line : α → String)
    (sink : Sink τ) (start : τ) : dump b store s line sink (bench, start) =
      Attempt.ofExcept (written line sink start r).1 (last, (written line sink start r).2) := by
  refine (Attempt.beside_of_eq (fun _ : τ => vectorToDump b store s) _ hvector).trans ?_
  cases r <;> rfl

theorem vectorToDump_of_ready (b : Backend α ρ σ) (store : Store α) {v : Array α}
    (hready : s.readyVector? = some v) (bench : Bench α σ) :
    vectorToDump b store s bench = Attempt.ofExcept (.ok v) bench := by
  rw [vectorToDump, hready]
  rfl

theorem vectorToDump_of_absent (b : Backend α ρ σ) (store : Store α) (hnet : s.network = some net)
    (hready : s.readyVector? = none) (bench : Bench α σ) :
    let contract := b.materialize (store.arena net.arena) net
    vectorToDump b store s bench =
      Attempt.ofExcept (contract.outcome bench) (contract.final bench) := by
  intro contract
  rw [vectorToDump, hready]
  dsimp only
  rw [getNetwork_eq hnet, Attempt.bind_ok (Attempt.ofExcept_ok net bench)]
  exact contract.eq_ofExcept bench

/-! ## Answers without a contraction -/

section

variable {δ : Type} {part : Bench α σ → δ}

/-- An amplitude that is refused or accessed on its own. -/
theorem amplitude_of_not_small {part : Desk α σ → δ} (desk : Desk α σ)
    (haccess : ∀ a net q, (Desk.atBench (b.access a net q)).Keeps part) {digits : List Nat}
    (hsmall : ¬ ((∃ index, basisIndex digits desk.state.qubits = .ok index) ∧
      desk.state.qubits ≤ desk.state.settings.vectorQubits)) (store : Store α) :
    part ((amplitude b store digits).final desk) = part desk := by
  rw [amplitude, Attempt.final_bind_ok (Attempt.get_apply desk)]
  dsimp only
  rw [Attempt.final_ofExcept_bind]
  cases hindex : basisIndex digits desk.state.qubits with
  | error e => rfl
  | ok index =>
    dsimp only
    rw [if_neg fun hle => hsmall ⟨⟨index, hindex⟩, hle⟩]
    refine (Attempt.keeps_ofExcept _).bind (fun net => (haccess _ _ _).bind fun slice => ?_) desk
    cases slice.amplitudes[0]? <;> exact fun _ => rfl

theorem keeps_norm (haccess : ∀ a net q, (b.access a net q).Keeps part) (store : Store α)
    (s : NetworkState α) : (norm b store s).Keeps part :=
  (Attempt.keeps_ofExcept _).bind fun _ => (haccess _ _ _).bind fun _ _ => rfl

theorem keeps_withStaging {β : Type} {arena : Nat} {act : Attempt Error (Joining α) Network}
    {use : Network → Arena α → Attempt Error (Bench α σ) β}
    (huse : ∀ net a, (use net a).Keeps part) :
    (Network.withStaging arena act use).Keeps fun site => part site.bench := by
  intro site
  rw [Attempt.final, Network.withStaging]
  cases act ⟨site.store, .empty⟩ with
  | error e j => rfl
  | ok net j =>
    have hpart := huse net (j.store.arena arena) site.bench
    rw [Attempt.final] at hpart
    dsimp only
    cases h : use net (j.store.arena arena) site.bench with
    | ok v last =>
      rw [h] at hpart
      exact hpart
    | error e last =>
      rw [h] at hpart
      exact hpart

theorem keeps_overlap [Magnitude α ρ] (haccess : ∀ a net q, (b.access a net q).Keeps part)
    (ket bra : NetworkState α) : (overlap b ket bra).Keeps fun site => part site.bench := by
  refine .bind ((Attempt.keeps_ofExcept _).bind fun k =>
    (Attempt.keeps_ofExcept _).bind fun l => ?_) fun _ _ => rfl
  dsimp only
  split
  · exact fun _ => rfl
  · refine keeps_withStaging fun net a => (haccess _ _ _).bind fun slice => ?_
    cases slice.amplitudes[0]? <;> exact fun _ => rfl

end

end NetworkState

/-! ## Notes of single computations -/

section

variable {b : Backend α ρ σ} {β δ : Type}

theorem Backend.notes_materialize (b : Backend α ρ σ) (a : Arena α) (net : Network)
    (bench : Bench α σ) :
    ((b.watched.materialize a net).final bench.watched).notes =
      [(b.materialize a net).outcome bench] := by
  simp only [Backend.watched, Attempt.watched, Attempt.final, Attempt.outcome, Bench.unwatched,
    Bench.watched]
  cases b.materialize a net bench <;> rfl

theorem Backend.notes_access (b : Backend α ρ σ) (a : Arena α) (net : Network) (q : Query) :
    (b.watched.access a net q).Keeps Bench.notes := by
  intro bench
  simp only [Backend.watched, Attempt.watched, Attempt.final]
  cases b.access a net q bench.unwatched <;> exact List.append_nil _

theorem Desk.keeps_atBench {part : Bench α σ → δ} {act : Attempt Error (Bench α σ) β}
    (hact : act.Keeps part) : (Desk.atBench act).Keeps fun desk => part desk.bench := by
  intro desk
  rw [Attempt.final_of_eq (Desk.atBench_eq (act.eq_ofExcept desk.bench))]
  exact hact desk.bench

theorem Desk.keeps_state (act : Attempt Error (Bench α σ) β) :
    (Desk.atBench act).Keeps Desk.state := by
  intro desk
  rw [Attempt.final_of_eq (Desk.atBench_eq (act.eq_ofExcept desk.bench))]

end

/-! ## Single uses -/

namespace Station

/-- The use is answered from the current vector of the state. -/
def Use.Asks (s : NetworkState α) : Use α ρ τ υ → Prop
  | .amplitude digits =>
    (∃ index, basisIndex digits s.qubits = .ok index) ∧ s.qubits ≤ s.settings.vectorQubits
  | .sample _ shots _ => 0 < shots
  | _ => False

variable [Magnitude α ρ] [Zero ρ] [Add ρ] [Mul ρ] [LE ρ] [DecidableLE ρ] {b : Backend α ρ σ}
  {st : Station α σ} {net : Network} {u : Use α ρ τ υ}

theorem use_of_current (hasks : u.Asks st.state) {r : Except Error (Array α)} {last : Desk α σ}
    (hcurrent : NetworkState.currentVector b st.store st.desk = Attempt.ofExcept r last) :
    st.use b u = ⟨last.state, st.store, last.bench⟩ := by
  cases u with
  | amplitude digits =>
    obtain ⟨⟨index, hindex⟩, hsmall⟩ := hasks
    rw [use, Attempt.final_of_eq (NetworkState.amplitude_of_current hindex hsmall hcurrent)]
  | sample next shots source =>
    rw [use, Attempt.final_of_eq (NetworkState.sample_of_current next hasks source hcurrent)]
  | append op => cases hasks
  | copyTo buffer => cases hasks
  | dump line sink start => cases hasks
  | overlap bra => cases hasks
  | norm => cases hasks

/-- A vector that is ready is used as it is. -/
theorem use_of_ready (b : Backend α ρ σ) (st : Station α σ) (hasks : u.Asks st.state)
    (hnet : st.state.network = some net) {v : Array α} (hready : st.state.readyVector? = some v) :
    st.use b u = st :=
  use_of_current hasks (NetworkState.currentVector_of_ready b st.store hnet hready)

/-- Otherwise the network is contracted, and what comes of it is kept. -/
theorem use_of_absent (b : Backend α ρ σ) (st : Station α σ) (hasks : u.Asks st.state)
    (hnet : st.state.network = some net) (hready : st.state.readyVector? = none) :
    let contract := b.materialize (st.store.arena net.arena) net
    st.use b u = ⟨st.state.keeping net.version (contract.outcome st.bench), st.store,
      contract.final st.bench⟩ :=
  use_of_current hasks (NetworkState.currentVector_of_absent b st.store hnet hready)

theorem state_use_of_not_asks (b : Backend α ρ σ) (hasks : ¬ u.Asks st.state)
    (happend : ∀ op, u ≠ .append op) : (st.use b u).state = st.state := by
  cases u with
  | append op => exact absurd rfl (happend op)
  | amplitude digits =>
    exact NetworkState.amplitude_of_not_small st.desk (fun _ _ _ => Desk.keeps_state _) hasks
      st.store
  | sample next shots source =>
    obtain rfl : shots = 0 := Nat.eq_zero_of_not_pos hasks
    rfl
  | copyTo buffer => rfl
  | dump line sink start => rfl
  | overlap bra => rfl
  | norm => rfl

/-! ## Contractions of single uses -/

theorem contractions_of_ready (b : Backend α ρ σ) (hasks : u.Asks st.state)
    (hnet : st.state.network = some net) {v : Array α} (hready : st.state.readyVector? = some v) :
    st.contractions b u = [] := by
  rw [contractions, use_of_ready b.watched st.watched hasks hnet hready]
  rfl

theorem contractions_of_absent (b : Backend α ρ σ) (hasks : u.Asks st.state)
    (hnet : st.state.network = some net) (hready : st.state.readyVector? = none) :
    st.contractions b u = [(b.materialize (st.store.arena net.arena) net).outcome st.bench] := by
  rw [contractions, use_of_absent b.watched st.watched hasks hnet hready]
  exact b.notes_materialize (st.store.arena net.arena) net st.bench

theorem contractions_copyTo (b : Backend α ρ σ) (buffer : Array α) :
    st.contractions b (.copyTo buffer : Use α ρ τ υ) =
      ((st.state.copyTo b.watched st.store).final (st.bench.watched, buffer)).1.notes := rfl

theorem contractions_copyTo_of_fits (b : Backend α ρ σ) (hnet : st.state.network = some net)
    {buffer : Array α} (hfit : st.state.qubits < 64 ∧ buffer.size = 2 ^ st.state.qubits) :
    st.contractions b (.copyTo buffer : Use α ρ τ υ) =
      [(b.materialize (st.store.arena net.arena) net).outcome st.bench] := by
  have hcopy := NetworkState.copyTo_of_fits b.watched st.store hnet hfit st.bench.watched
  rw [contractions_copyTo, Attempt.final_of_eq hcopy]
  exact b.notes_materialize (st.store.arena net.arena) net st.bench

theorem contractions_copyTo_of_not_fits (b : Backend α ρ σ) (hnet : st.state.network = some net)
    {buffer : Array α} (hfit : ¬ (st.state.qubits < 64 ∧ buffer.size = 2 ^ st.state.qubits)) :
    st.contractions b (.copyTo buffer : Use α ρ τ υ) = [] := by
  obtain ⟨e, hcopy⟩ :=
    NetworkState.copyTo_of_not_fits b.watched st.store hnet hfit st.bench.watched
  rw [contractions_copyTo, Attempt.final, hcopy]
  rfl

theorem contractions_dump (b : Backend α ρ σ) (line : α → String) (sink : Sink τ) (start : τ) :
    st.contractions b (.dump line sink start : Use α ρ τ υ) =
      ((st.state.dump b.watched st.store line sink).final (st.bench.watched, start)).1.notes := rfl

theorem contractions_dump_of_ready (b : Backend α ρ σ) {v : Array α}
    (hready : st.state.readyVector? = some v) (line : α → String) (sink : Sink τ) (start : τ) :
    st.contractions b (.dump line sink start : Use α ρ τ υ) = [] := by
  have hvector := NetworkState.vectorToDump_of_ready b.watched st.store hready st.bench.watched
  rw [contractions_dump, Attempt.final_of_eq (NetworkState.dump_of_vector hvector line sink start)]
  rfl

theorem contractions_dump_of_absent (b : Backend α ρ σ) (hnet : st.state.network = some net)
    (hready : st.state.readyVector? = none) (line : α → String) (sink : Sink τ) (start : τ) :
    st.contractions b (.dump line sink start : Use α ρ τ υ) =
      [(b.materialize (st.store.arena net.arena) net).outcome st.bench] := by
  have hvector :=
    NetworkState.vectorToDump_of_absent b.watched st.store hnet hready st.bench.watched
  rw [contractions_dump, Attempt.final_of_eq (NetworkState.dump_of_vector hvector line sink start)]
  exact b.notes_materialize (st.store.arena net.arena) net st.bench

/-- The uses that contract nothing into a vector, whatever is kept. -/
theorem contractions_of_not_asks (b : Backend α ρ σ) (hasks : ¬ u.Asks st.state)
    (hcopy : ∀ buffer, u ≠ .copyTo buffer) (hdump : ∀ line sink start, u ≠ .dump line sink start) :
    st.contractions b u = [] := by
  rw [contractions]
  cases u with
  | append op =>
    rw [use]
    dsimp only [watched]
    cases st.state.append st.store op <;> rfl
  | amplitude digits =>
    exact NetworkState.amplitude_of_not_small st.watched.desk
      (fun a net q => Desk.keeps_atBench (b.notes_access a net q)) hasks st.store
  | sample next shots source =>
    obtain rfl : shots = 0 := Nat.eq_zero_of_not_pos hasks
    rfl
  | copyTo buffer => exact absurd rfl (hcopy buffer)
  | dump line sink start => exact absurd rfl (hdump line sink start)
  | overlap bra =>
    exact NetworkState.keeps_overlap b.notes_access st.state bra ⟨st.store, st.bench.watched⟩
  | norm => exact NetworkState.keeps_norm b.notes_access st.store st.state st.bench.watched

end Station

end GateNetwork
