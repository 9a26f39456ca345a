import GateNetwork.Amplitude
import GateNetwork.Proofs.Contractions

/-!
# Kept vectors and histories

A history of a state says which operators were accepted and which contractions were made, for whom
and with what outcome. The ready vector is read off it: it is the one vector that was contracted for
an amplitude or for samples since the last operator was accepted. So the network is contracted again
for these only when it has grown, or when every contraction since has failed.

The invariant compares versions. The version of the network counts its operators, and a kept vector
never has a version of the future, so after an append no kept vector is of the new version.
-/

namespace GateNetwork

variable {α ρ σ τ υ : Type}

/-! ## Histories -/

/-- What a history holds of one use. -/
inductive Mark (α : Type) where
  /-- An operator was accepted. -/
  | appended
  /-- A contraction for an amplitude or for samples. -/
  | asked (r : Except Error (Array α))
  /-- A contraction for anything else. -/
  | other (r : Except Error (Array α))

/-- The vectors contracted for amplitudes and samples since the last operator was accepted. -/
def vectorsSince (history : List (Mark α)) : List (Array α) :=
  history.foldl (fun vs m =>
    match m with
    | .appended => []
    | .asked (.ok v) => vs ++ [v]
    | _ => vs) []

/-- The vector contracted last for an amplitude or for samples, operators or not. -/
def lastVector? (history : List (Mark α)) : Option (Array α) :=
  history.foldl (fun last m =>
    match m with
    | .asked (.ok v) => some v
    | _ => last) none

/-- The mark says neither that an operator was accepted nor that a vector was made to be kept. -/
def Mark.Idle (m : Mark α) : Prop := m ≠ .appended ∧ ∀ v, m ≠ .asked (.ok v)

theorem vectorsSince_append (history marks : List (Mark α)) (hidle : ∀ m ∈ marks, m.Idle) :
    vectorsSince (history ++ marks) = vectorsSince history ∧
      lastVector? (history ++ marks) = lastVector? history := by
  unfold vectorsSince lastVector?
  rw [List.foldl_append, List.foldl_append]
  generalize List.foldl _ [] history = vs
  generalize List.foldl _ none history = last
  induction marks with
  | nil => exact ⟨rfl, rfl⟩
  | cons m marks ih =>
    have hrest := ih fun m hm => hidle m (List.mem_cons_of_mem _ hm)
    have hm := hidle m List.mem_cons_self
    cases m with
    | appended => exact absurd rfl hm.1
    | asked r =>
      cases r with
      | ok v => exact absurd rfl (hm.2 v)
      | error e => exact hrest
    | other r => exact hrest

theorem vectorsSince_appended (history : List (Mark α)) :
    vectorsSince (history ++ [.appended]) = [] := by
  rw [vectorsSince, List.foldl_append]
  rfl

theorem vectorsSince_asked (history : List (Mark α)) (v : Array α) :
    vectorsSince (history ++ [.asked (.ok v)]) = vectorsSince history ++ [v] := by
  rw [vectorsSince, List.foldl_append]
  rfl

theorem lastVector?_appended (history : List (Mark α)) :
    lastVector? (history ++ [.appended]) = lastVector? history := by
  rw [lastVector?, List.foldl_append]
  rfl

theorem lastVector?_asked (history : List (Mark α)) (v : Array α) :
    lastVector? (history ++ [.asked (.ok v)]) = some v := by
  rw [lastVector?, List.foldl_append]
  rfl

theorem NetworkState.append_eq {s : NetworkState α} {net : Network} (store : Store α)
    (op : Operator) (hnet : s.network = some net) : s.append store op =
      (net.push store op).map fun pushed => { s with network := some pushed.2 } := by
  rw [append, getNetwork_eq hnet]
  cases h : net.push store op with
  | ok pushed => simp only [bind, Except.bind, h]; rfl
  | error e => simp only [bind, Except.bind, h]; rfl

/-- Every contraction into a vector gives an amplitude for each basis state, or fails. -/
def Backend.Full (b : Backend α ρ σ) : Prop :=
  ∀ a net bench v last, b.materialize a net bench = .ok v last → v.size = 2 ^ net.qubits

namespace Station

variable [Magnitude α ρ] [Zero ρ] [Add ρ] [Mul ρ] [LE ρ] [DecidableLE ρ]

def Use.mark : Use α ρ τ υ → Except Error (Array α) → Mark α
  | .amplitude _ => .asked
  | .sample _ _ _ => .asked
  | _ => .other

/-- The marks of a use. -/
def marks (b : Backend α ρ σ) (st : Station α σ) (u : Use α ρ τ υ) : List (Mark α) :=
  match u with
  | .append op =>
    match st.state.append st.store op with
    | .ok _ => [.appended]
    | .error _ => []
  | u => (st.contractions b u).map u.mark

/-- An event at a station. -/
inductive Event (α ρ σ τ υ : Type) where
  | use (u : Use α ρ τ υ)
  /-- The store and the bench were used elsewhere. -/
  | elsewhere (store : Store α) (bench : Bench α σ)

/-- Lets events happen one after the other: their history, and the station afterwards. -/
def run (b : Backend α ρ σ) (st : Station α σ) :
    List (Event α ρ σ τ υ) → List (Mark α) × Station α σ
  | [] => ([], st)
  | .use u :: events =>
    let (history, last) := run b (st.use b u) events
    (st.marks b u ++ history, last)
  | .elsewhere store bench :: events => run b ⟨st.state, store, bench⟩ events

variable {b : Backend α ρ σ} {st : Station α σ} {net : Network} {u : Use α ρ τ υ}

/-! ## One use -/

theorem marks_of_asks (b : Backend α ρ σ) (hasks : u.Asks st.state) :
    st.marks b u = (st.contractions b u).map .asked := by
  cases u with
  | amplitude digits => rfl
  | sample next shots source => rfl
  | append op => cases hasks
  | copyTo buffer => cases hasks
  | dump line sink start => cases hasks
  | overlap bra => cases hasks
  | norm => cases hasks

/-- A use that asks for no vector, other than an append, leaves only marks of vectors that are not
kept. -/
theorem idle_of_not_asks (b : Backend α ρ σ) (hasks : ¬ u.Asks st.state)
    (happend : ∀ op, u ≠ .append op) : ∀ m ∈ st.marks b u, m.Idle := by
  have hother : ∀ notes : Notes α, ∀ m ∈ notes.map Mark.other, m.Idle := by
    intro notes m hm
    obtain ⟨r, -, rfl⟩ := List.mem_map.1 hm
    exact ⟨nofun, nofun⟩
  cases u with
  | append op => exact absurd rfl (happend op)
  | amplitude digits =>
    show ∀ m ∈ (st.contractions b _).map Mark.asked, m.Idle
    rw [contractions_of_not_asks b hasks nofun nofun]
    exact fun m hm => absurd hm List.not_mem_nil
  | sample next shots source =>
    show ∀ m ∈ (st.contractions b _).map Mark.asked, m.Idle
    rw [contractions_of_not_asks b hasks nofun nofun]
    exact fun m hm => absurd hm List.not_mem_nil
  | copyTo buffer => exact hother _
  | dump line sink start => exact hother _
  | overlap bra => exact hother _
  | norm => exact hother _

/-- What one use does to the state, and its marks: it appends an operator, it contracts the network
and keeps what comes of it, or it leaves the state alone. -/
theorem use_cases (b : Backend α ρ σ) (u : Use α ρ τ υ) (hnet : st.state.network = some net) :
    (∃ op position net', net.push st.store op = .ok (position, net') ∧
        st.marks b u = [.appended] ∧ (st.use b u).state = { st.state with network := some net' }) ∨
      (st.state.readyVector? = none ∧
        let r := (b.materialize (st.store.arena net.arena) net).outcome st.bench
        st.marks b u = [.asked r] ∧ (st.use b u).state = st.state.keeping net.version r) ∨
      (∀ m ∈ st.marks b u, m.Idle) ∧ (st.use b u).state = st.state := by
  by_cases happend : ∃ op, u = .append op
  · obtain ⟨op, rfl⟩ := happend
    have happend := NetworkState.append_eq st.store op hnet
    cases hpush : net.push st.store op with
    | error e =>
      rw [hpush] at happend
      refine .inr (.inr ⟨?_, ?_⟩)
      · rw [marks, happend]
        exact fun m hm => absurd hm List.not_mem_nil
      · rw [use, happend]
        rfl
    | ok pushed =>
      rw [hpush] at happend
      refine .inl ⟨op, pushed.1, pushed.2, hpush, ?_, ?_⟩
      · rw [marks, happend]
        rfl
      · rw [use, happend]
        rfl
  · have happend : ∀ op, u ≠ .append op := fun op hop => happend ⟨op, hop⟩
    by_cases hasks : u.Asks st.state
    · cases hready : st.state.readyVector? with
      | none =>
        refine .inr (.inl ⟨rfl, ?_, ?_⟩)
        · rw [marks_of_asks b hasks, contractions_of_absent b hasks hnet hready]
          rfl
        · rw [use_of_absent b st hasks hnet hready]
      | some v =>
        refine .inr (.inr ⟨?_, ?_⟩)
        · rw [marks_of_asks b hasks, contractions_of_ready b hasks hnet hready]
          exact fun m hm => absurd hm List.not_mem_nil
        · rw [use_of_ready b st hasks hnet hready]
    · exact .inr (.inr ⟨idle_of_not_asks b hasks happend, state_use_of_not_asks b hasks happend⟩)

/-! ## Runs -/

/-- The state has the network, and its vectors are the ones of the history. -/
structure Tracks (b : Backend α ρ σ) (history : List (Mark α)) (net : Network)
    (s : NetworkState α) : Prop where
  network : s.network = some net
  qubits : s.qubits = net.qubits
  version : net.version = UInt64.ofNat net.size
  past : ∀ c, s.cache = some c → c.version.toNat ≤ net.size
  ready : s.readyVector?.toList = vectorsSince history
  last : s.cache.map Contracted.amplitudes = lastVector? history
  full : b.Full → ∀ v ∈ vectorsSince history, v.size = 2 ^ net.qubits

section

omit [Magnitude α ρ] [Zero ρ] [Add ρ] [Mul ρ] [LE ρ] [DecidableLE ρ]

variable {history : List (Mark α)} {s : NetworkState α} {store : Store α}

theorem Tracks.fresh (b : Backend α ρ σ) (hnet : net.Built store) (settings : Settings) :
    Tracks b [] net (.ofNetwork net settings) :=
  ⟨rfl, rfl, hnet.version_eq, nofun, rfl, rfl, fun _ => nofun⟩

theorem Tracks.idle (h : Tracks b history net s) {marks : List (Mark α)}
    (hidle : ∀ m ∈ marks, m.Idle) : Tracks b (history ++ marks) net s := by
  obtain ⟨hsince, hlast⟩ := vectorsSince_append history marks hidle
  refine ⟨h.network, h.qubits, h.version, h.past, ?_, ?_, ?_⟩
  · rw [hsince, h.ready]
  · rw [hlast, h.last]
  · rw [hsince]
    exact h.full

/-- After an append the kept vector is not of the version of the network. -/
theorem Tracks.append (h : Tracks b history net s) {op : Operator} {position : Nat} {net' : Network}
    (hpush : net.push store op = .ok (position, net')) (hcount : net'.size < 2 ^ 64) :
    Tracks b (history ++ [.appended]) net' { s with network := some net' } := by
  obtain ⟨-, rfl⟩ := Network.push_eq_ok hpush
  set net' : Network := { net with ops := net.ops ++ [op], version := net.version + 1 }
  have hsize : net'.size = net.size + 1 := List.length_append
  have hversion : net'.version = UInt64.ofNat net'.size := by
    rw [hsize]
    show net.version + 1 = _
    rw [h.version]
    simp
  have hready : ({ s with network := some net' } : NetworkState α).readyVector? = none := by
    rw [NetworkState.readyVector?_eq rfl, NetworkState.vectorAt?]
    cases hc : s.cache with
    | none => rfl
    | some c =>
      -- The kept version counts at most the operators before the append, without wrapping.
      have hpast := h.past c hc
      have hne : c.version ≠ net'.version := by
        intro heq
        rw [heq, hversion, UInt64.toNat_ofNat_of_lt' hcount] at hpast
        omega
      exact if_neg hne
  refine ⟨rfl, h.qubits, hversion, fun c hc => ?_, ?_, ?_, ?_⟩
  · have hpast := h.past c hc
    omega
  · rw [hready, vectorsSince_appended]
    rfl
  · rw [lastVector?_appended]
    exact h.last
  · rw [vectorsSince_appended]
    exact fun _ v hv => absurd hv List.not_mem_nil

/-- A contraction where no vector was ready. -/
theorem Tracks.keeping (h : Tracks b history net s) (hready : s.readyVector? = none)
    {r : Except Error (Array α)} (hfull : b.Full → ∀ v, r = .ok v → v.size = 2 ^ net.qubits) :
    Tracks b (history ++ [.asked r]) net (s.keeping net.version r) := by
  cases r with
  | error e => exact h.idle (by simp [Mark.Idle])
  | ok v =>
    have hsince : vectorsSince history = [] := by rw [← h.ready, hready]; rfl
    have hnet : (s.keeping net.version (.ok v)).network = some net := h.network
    have hkept : (s.keeping net.version (.ok v)).readyVector? = some v := by
      rw [NetworkState.readyVector?_eq hnet]
      exact if_pos rfl
    refine ⟨h.network, h.qubits, h.version, fun c hc => ?_, ?_, ?_, fun hb w hw => ?_⟩
    · obtain rfl := Option.some.inj hc
      show net.version.toNat ≤ net.size
      rw [h.version]
      exact Nat.mod_le _ _
    · rw [hkept, vectorsSince_asked, hsince]
      rfl
    · rw [lastVector?_asked]
      rfl
    · rw [vectorsSince_asked, hsince] at hw
      rw [List.mem_singleton.1 hw]
      exact hfull hb v rfl

end

/-- A use adds at most one operator, and removes none. -/
theorem size_use (b : Backend α ρ σ) (u : Use α ρ τ υ) (hnet : st.state.network = some net) :
    ∃ net', (st.use b u).state.network = some net' ∧ net.size ≤ net'.size ∧
      net'.size ≤ net.size + 1 := by
  rcases use_cases b u hnet with
    ⟨op, position, net', hpush, -, hstate⟩ | ⟨-, -, hstate⟩ | ⟨-, hstate⟩
  · obtain ⟨-, rfl⟩ := Network.push_eq_ok hpush
    refine ⟨_, by rw [hstate], ?_, ?_⟩ <;> simp [Network.size]
  · refine ⟨net, ?_, le_rfl, Nat.le_succ _⟩
    rw [hstate, NetworkState.network_keeping, hnet]
  · exact ⟨net, by rw [hstate, hnet], le_rfl, Nat.le_succ _⟩

theorem size_run (b : Backend α ρ σ) (events : List (Event α ρ σ τ υ))
    (hnet : st.state.network = some net) :
    ∃ net', (st.run b events).2.state.network = some net' ∧ net.size ≤ net'.size ∧
      net'.size ≤ net.size + events.length := by
  induction events generalizing st net with
  | nil => exact ⟨net, hnet, le_rfl, le_rfl⟩
  | cons e events ih =>
    cases e with
    | use u =>
      obtain ⟨next, hnext, hle, hge⟩ := size_use b u hnet
      obtain ⟨net', hnet', hle', hge'⟩ := ih hnext
      refine ⟨net', hnet', hle.trans hle', ?_⟩
      rw [List.length_cons]
      omega
    | elsewhere store bench =>
      have hsame : (⟨st.state, store, bench⟩ : Station α σ).state.network = some net := hnet
      obtain ⟨net', hnet', hle, hge⟩ := ih hsame
      exact ⟨net', hnet', hle, hge.trans (Nat.le_succ _)⟩

/-- Few events append few operators. -/
theorem size_run_lt (b : Backend α ρ σ) (events : List (Event α ρ σ τ υ))
    (hnet : st.state.network = some net) (hfew : net.size + events.length < 2 ^ 64) :
    ∀ last, (st.run b events).2.state.network = some last → last.size < 2 ^ 64 := by
  intro last hlast
  obtain ⟨net', hnet', -, hle⟩ := size_run b events hnet
  obtain rfl := Option.some.inj (hnet'.symm.trans hlast)
  exact hle.trans_lt hfew

theorem Tracks.use {history : List (Mark α)} (h : Tracks b history net st.state) (u : Use α ρ τ υ)
    (hcount : ∀ net', (st.use b u).state.network = some net' → net'.size < 2 ^ 64) :
    ∃ net', Tracks b (history ++ st.marks b u) net' (st.use b u).state := by
  rcases use_cases b u h.network with
    ⟨op, position, net', hpush, hmarks, hstate⟩ | ⟨hready, hmarks, hstate⟩ | ⟨hidle, hstate⟩
  · rw [hmarks, hstate]
    exact ⟨net', h.append hpush (hcount net' (by rw [hstate]))⟩
  · rw [hmarks, hstate]
    refine ⟨net, h.keeping hready fun hb v hv => ?_⟩
    have hcontract := (b.materialize (st.store.arena net.arena) net).eq_ofExcept st.bench
    rw [hv] at hcontract
    exact hb _ _ _ _ _ hcontract
  · rw [hstate]
    exact ⟨net, h.idle hidle⟩

theorem Tracks.run {history : List (Mark α)} (h : Tracks b history net st.state)
    (events : List (Event α ρ σ τ υ))
    (hcount : ∀ net', (st.run b events).2.state.network = some net' → net'.size < 2 ^ 64) :
    ∃ net', Tracks b (history ++ (st.run b events).1) net' (st.run b events).2.state := by
  induction events generalizing st net history with
  | nil =>
    rw [Station.run, List.append_nil]
    exact ⟨net, h⟩
  | cons e events ih =>
    cases e with
    | use u =>
      -- Networks never shrink, so the bound at the end bounds every network on the way.
      have hstep : ∀ next, (st.use b u).state.network = some next → next.size < 2 ^ 64 := by
        intro next hnext
        obtain ⟨net', hnet', hle, -⟩ := size_run b events hnext
        exact hle.trans_lt (hcount net' hnet')
      obtain ⟨next, hnext⟩ := h.use u hstep
      obtain ⟨net', hlast⟩ := ih hnext hcount
      rw [List.append_assoc] at hlast
      exact ⟨net', hlast⟩
    | elsewhere store bench =>
      have hsame : Tracks b history net (⟨st.state, store, bench⟩ : Station α σ).state := h
      exact ih hsame hcount

/-! ## Coherence -/

/-- The vector that an answer is made from: the one contracted since the last append, and then
nothing is contracted, or else the outcome of the one contraction that is made. -/
def DrawnFrom (history : List (Mark α)) (notes : Notes α) (r : Except Error (Array α)) : Prop :=
  (∃ v, vectorsSince history = [v] ∧ notes = [] ∧ r = .ok v) ∨
    vectorsSince history = [] ∧ notes = [r]

/-- At a station with the given history, the uses of the state make the contractions that they need
and no others. -/
structure Coherent (b : Backend α ρ σ) (history : List (Mark α)) (st : Station α σ) : Prop where
  /-- The ready vector is the one contracted since the last append, if there is one. -/
  ready : st.state.readyVector?.toList = vectorsSince history
  amplitude : ∀ digits index, basisIndex digits st.state.qubits = .ok index →
    st.state.qubits ≤ st.state.settings.vectorQubits →
    ∃ r, DrawnFrom history (st.contractions b (.amplitude digits : Use α ρ Unit Unit)) r ∧
      (NetworkState.amplitude b st.store digits).outcome st.desk =
        r.bind (NetworkState.entryAt index) ∧ ∀ v, r = .ok v → index < v.size
  sample : ∀ {υ : Type} (next : υ → ρ × υ) shots source, 0 < shots →
    ∃ r, DrawnFrom history (st.contractions b (.sample next shots source : Use α ρ Unit υ)) r ∧
      (NetworkState.sample b st.store next shots).outcome (st.desk, source) =
        (NetworkState.samplesOf next st.state.qubits shots source r).1 ∧
      ((NetworkState.sample b st.store next shots).final (st.desk, source)).2 =
        (NetworkState.samplesOf next st.state.qubits shots source r).2
  /-- A copy is always new, once the buffer is accepted. -/
  copyTo : ∀ buffer, st.state.qubits < 64 ∧ buffer.size = 2 ^ st.state.qubits →
    ∃ r, st.contractions b (.copyTo buffer : Use α ρ Unit Unit) = [r] ∧
      (st.state.copyTo b st.store).outcome (st.bench, buffer) =
        (NetworkState.copied buffer r).1 ∧
      ((st.state.copyTo b st.store).final (st.bench, buffer)).2 =
        (NetworkState.copied buffer r).2
  copyTo_refused : ∀ buffer, ¬ (st.state.qubits < 64 ∧ buffer.size = 2 ^ st.state.qubits) →
    st.contractions b (.copyTo buffer : Use α ρ Unit Unit) = [] ∧
      ∃ e, st.state.copyTo b st.store (st.bench, buffer) = .error e (st.bench, buffer)
  dump : ∀ {τ : Type} line (sink : Sink τ) start,
    ∃ r, DrawnFrom history (st.contractions b (.dump line sink start : Use α ρ τ Unit)) r ∧
      (st.state.dump b st.store line sink).outcome (st.bench, start) =
        (NetworkState.written line sink start r).1 ∧
      ((st.state.dump b st.store line sink).final (st.bench, start)).2 =
        (NetworkState.written line sink start r).2
  overlap : ∀ bra, st.contractions b (.overlap bra : Use α ρ Unit Unit) = []
  norm : st.contractions b (.norm : Use α ρ Unit Unit) = []
  /-- What asks for no vector to be kept leaves the state alone, and so do a refused append and a
  failed contraction. -/
  aside : ∀ {τ υ : Type} (u : Use α ρ τ υ), ¬ u.Asks st.state → (∀ op, u ≠ .append op) →
    (st.use b u).state = st.state
  append_refused : ∀ op e, st.state.append st.store op = .error e →
    (st.use b (.append op : Use α ρ Unit Unit)).state = st.state
  failed : ∀ {τ υ : Type} (u : Use α ρ τ υ) e, u.Asks st.state →
    st.contractions b u = [.error e] → (st.use b u).state = st.state

/-- A use that asks for the current vector draws it as it should. -/
theorem Tracks.drawn {history : List (Mark α)} (h : Tracks b history net st.state)
    (hasks : u.Asks st.state) : ∃ r last,
      NetworkState.currentVector b st.store st.desk = Attempt.ofExcept r last ∧
      last.state.qubits = st.state.qubits ∧ DrawnFrom history (st.contractions b u) r ∧
      (b.Full → ∀ v, r = .ok v → v.size = 2 ^ net.qubits) := by
  cases hready : st.state.readyVector? with
  | some v =>
    have hsince : vectorsSince history = [v] := by rw [← h.ready, hready]; rfl
    refine ⟨.ok v, st.desk, NetworkState.currentVector_of_ready b st.store h.network hready, rfl,
      .inl ⟨v, hsince, contractions_of_ready b hasks h.network hready, rfl⟩, fun hb w hw => ?_⟩
    obtain rfl := Except.ok.inj hw
    exact h.full hb v (by rw [hsince]; exact List.mem_singleton_self v)
  | none =>
    have hsince : vectorsSince history = [] := by rw [← h.ready, hready]; rfl
    have hcontract := (b.materialize (st.store.arena net.arena) net).eq_ofExcept st.bench
    refine ⟨_, _, NetworkState.currentVector_of_absent b st.store h.network hready,
      NetworkState.qubits_keeping _ _ _,
      .inr ⟨hsince, contractions_of_absent b hasks h.network hready⟩, fun hb v hv => ?_⟩
    change Attempt.outcome _ st.bench = _ at hv
    rw [hv] at hcontract
    exact hb _ _ _ _ _ hcontract

theorem Tracks.dumped {history : List (Mark α)} (h : Tracks b history net st.state)
    (line : α → String) (sink : Sink τ) (start : τ) : ∃ r last,
      st.state.vectorToDump b st.store st.bench = Attempt.ofExcept r last ∧
      DrawnFrom history (st.contractions b (.dump line sink start : Use α ρ τ υ)) r := by
  cases hready : st.state.readyVector? with
  | some v =>
    have hsince : vectorsSince history = [v] := by rw [← h.ready, hready]; rfl
    exact ⟨.ok v, st.bench, NetworkState.vectorToDump_of_ready b st.store hready st.bench,
      .inl ⟨v, hsince, contractions_dump_of_ready b hready line sink start, rfl⟩⟩
  | none =>
    have hsince : vectorsSince history = [] := by rw [← h.ready, hready]; rfl
    exact ⟨_, _, NetworkState.vectorToDump_of_absent b st.store h.network hready st.bench,
      .inr ⟨hsince, contractions_dump_of_absent b h.network hready line sink start⟩⟩

theorem Tracks.coherent {history : List (Mark α)} (h : Tracks b history net st.state)
    (hb : b.Full) : Coherent b history st where
  ready := h.ready
  amplitude digits index hindex hsmall := by
    have hasks : (Use.amplitude digits : Use α ρ Unit Unit).Asks st.state :=
      ⟨⟨index, hindex⟩, hsmall⟩
    obtain ⟨r, last, hcurrent, -, hdrawn, hsize⟩ := h.drawn hasks
    refine ⟨r, hdrawn, ?_, fun v hv => ?_⟩
    · exact Attempt.outcome_of_eq (NetworkState.amplitude_of_current hindex hsmall hcurrent)
    · rw [hsize hb v hv, ← h.qubits]
      exact basisIndex_lt hindex
  sample {υ} next shots source hshots := by
    have hasks : (Use.sample next shots source : Use α ρ Unit υ).Asks st.state := hshots
    obtain ⟨r, last, hcurrent, hqubits, hdrawn, -⟩ := h.drawn hasks
    have hsample := NetworkState.sample_of_current next hshots source hcurrent
    rw [hqubits] at hsample
    refine ⟨r, hdrawn, Attempt.outcome_of_eq hsample, ?_⟩
    rw [Attempt.final_of_eq hsample]
  copyTo buffer hfit := by
    have hcopy := NetworkState.copyTo_of_fits b st.store h.network hfit st.bench
    refine ⟨_, contractions_copyTo_of_fits b h.network hfit, Attempt.outcome_of_eq hcopy, ?_⟩
    rw [Attempt.final_of_eq hcopy]
  copyTo_refused buffer hfit :=
    ⟨contractions_copyTo_of_not_fits b h.network hfit,
      NetworkState.copyTo_of_not_fits b st.store h.network hfit st.bench⟩
  dump line sink start := by
    obtain ⟨r, last, hvector, hdrawn⟩ := h.dumped line sink start
    have hdump := NetworkState.dump_of_vector hvector line sink start
    refine ⟨r, hdrawn, Attempt.outcome_of_eq hdump, ?_⟩
    rw [Attempt.final_of_eq hdump]
  overlap bra := contractions_of_not_asks b id nofun nofun
  norm := contractions_of_not_asks b id nofun nofun
  aside u hasks happend := state_use_of_not_asks b hasks happend
  append_refused op e happend := by
    rw [Station.use, happend]
  failed u e hasks hfailed := by
    cases hready : st.state.readyVector? with
    | some v => rw [use_of_ready b st hasks h.network hready]
    | none =>
      rw [contractions_of_absent b hasks h.network hready] at hfailed
      rw [use_of_absent b st hasks h.network hready, List.singleton_inj.1 hfailed]
      rfl

/-- Whatever a state is used for, with whatever backend: its history tells which contractions the
next use makes, and what is kept. -/
theorem run_coherent (hb : b.Full) {store : Store α} (hnet : net.Built store) (settings : Settings)
    (s : Store α) (bench : Bench α σ) (events : List (Event α ρ σ τ υ)) :
    let start : Station α σ := ⟨.ofNetwork net settings, s, bench⟩
    (∀ last, (start.run b events).2.state.network = some last → last.size < 2 ^ 64) →
      Coherent b (start.run b events).1 (start.run b events).2 := by
  intro start hcount
  have hstart : Tracks b [] net start.state := .fresh b hnet settings
  obtain ⟨last, hlast⟩ := hstart.run events hcount
  rw [List.nil_append] at hlast
  exact hlast.coherent hb

end Station

/-! ## A numbering backend -/

/-- A backend whose contractions carry their number in every amplitude. -/
def Backend.numbering : Backend Amplitude Float Nat where
  workspace _ := 0
  materialize _ net bench :=
    .ok ((List.range (2 ^ net.qubits)).map fun i => ⟨.ofNat bench.engine, .ofNat i⟩).toArray
      { bench with engine := bench.engine + 1 }
  access _ _ _ bench := .ok ⟨#[], 0⟩ bench

theorem Backend.numbering_full : Backend.numbering.Full := by
  intro a net bench v last h
  obtain ⟨rfl, -⟩ := EStateM.Result.ok.inj h
  simp

namespace Station

/-- Vectors are kept, outdated and contracted again, an operator is refused, and a buffer too. -/
theorem run_coherent_numbering :
    let start : Station Amplitude Nat := ⟨.ofNetwork (.empty 0 2) {}, .sample 1, ⟨.ofBytes 0, 1⟩⟩
    let events : List (Event Amplitude Float Nat Unit Unit) :=
      [.use (.amplitude [0, 0]), .use (.append ⟨[1], [0], ⟨0, 0, 0⟩, .unitary, false⟩),
        .use (.copyTo #[1]), .use (.sample (fun u => (0, u)) 3 ()),
        .use (.append ⟨[1], [0], ⟨0, 7, 0⟩, .unitary, false⟩), .use (.amplitude [1, 0])]
    Backend.numbering.Full ∧ (Network.empty 0 2).Built (Store.sample (1 : Amplitude)) ∧
      (∀ last, (start.run Backend.numbering events).2.state.network = some last →
        last.size < 2 ^ 64) ∧
      Coherent Backend.numbering (start.run Backend.numbering events).1
        (start.run Backend.numbering events).2 := by
  intro start events
  have hnet : (Network.empty 0 2).Built (Store.sample (1 : Amplitude)) := .empty _ 0 2
  have hfirst : start.state.network = some (.empty 0 2) := rfl
  have hcount := size_run_lt Backend.numbering events hfirst (by decide)
  exact ⟨Backend.numbering_full, hnet, hcount,
    run_coherent Backend.numbering_full hnet {} (.sample 1) ⟨.ofBytes 0, 1⟩ events hcount⟩

/-- A copy to a buffer of the wrong length contracts nothing. -/
theorem not_copyTo_always_contracts :
    let st : Station Amplitude Nat := ⟨.ofNetwork (.empty 0 1) {}, .empty, ⟨.ofBytes 0, 1⟩⟩
    ¬ ∀ buffer, ∃ r,
      st.contractions Backend.numbering (.copyTo buffer : Use Amplitude Float Unit Unit) = [r] := by
  intro st hall
  obtain ⟨r, hr⟩ := hall #[0, 0, 0]
  rw [contractions_copyTo_of_not_fits Backend.numbering rfl (by decide)] at hr
  cases hr

end Station

end GateNetwork
