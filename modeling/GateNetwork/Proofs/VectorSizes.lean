import GateNetwork.Proofs.Release

/-!
# Vectors of the wrong size

Nobody checks how many amplitudes a backend returns. What it returns is kept as it came, an
amplitude is looked up in it, and a copy writes as many entries as there are on both sides. So a
vector that is too short is kept, a lookup can fall outside of it, and a copy can succeed and leave
the end of the buffer as it was. Over backends that return as many amplitudes as the register has
basis states, none of this happens.

The accessed amplitude of a large register is the one answer whose size is checked.
-/

namespace GateNetwork

variable {α ρ σ τ υ : Type}

namespace NetworkState

variable {s : NetworkState α} {net : Network} {store : Store α} {desk : Desk α σ}

/-- The first amplitude of a slice. -/
def firstOf (slice : Slice α ρ) : Except Error α :=
  match slice.amplitudes[0]? with
  | some a => .ok a
  | none => .error (.backend "accessor returned no amplitude")

theorem outcome_currentVector_of_none (b : Backend α ρ σ) (store : Store α)
    (hnet : desk.state.network = none) :
    (currentVector b store).outcome desk = .error .released := by
  have hgot : desk.state.getNetwork = .error .released := by rw [getNetwork, hnet]
  rw [currentVector, Attempt.outcome, Attempt.bind_ok (Attempt.get_apply desk), hgot,
    Attempt.bind_error (Attempt.ofExcept_error _ desk)]

/-- A vector that is answered from was kept, or is new. -/
theorem outcome_currentVector_cases (b : Backend α ρ σ) (store : Store α) {v : Array α}
    (hv : (currentVector b store).outcome desk = .ok v) :
    desk.state.cache.map Contracted.amplitudes = some v ∨
      ∃ net, desk.state.network = some net ∧
        (b.materialize (store.arena net.arena) net).outcome desk.bench = .ok v := by
  cases hnet : desk.state.network with
  | none =>
    rw [outcome_currentVector_of_none b store hnet] at hv
    cases hv
  | some net =>
    cases hready : desk.state.readyVector? with
    | some w =>
      rw [Attempt.outcome_of_eq (currentVector_of_ready b store hnet hready)] at hv
      obtain rfl := Except.ok.inj hv
      exact .inl (kept_of_ready hnet hready)
    | none =>
      rw [Attempt.outcome_of_eq (currentVector_of_absent b store hnet hready)] at hv
      exact .inr ⟨net, rfl, hv⟩

theorem outcome_amplitude_of_small (b : Backend α ρ σ) (store : Store α) {digits : List Nat}
    {index : Nat} (hindex : basisIndex digits desk.state.qubits = .ok index)
    (hsmall : desk.state.qubits ≤ desk.state.settings.vectorQubits) :
    (amplitude b store digits).outcome desk =
      ((currentVector b store).outcome desk).bind (entryAt index) := by
  have hcurrent := (currentVector b store).eq_ofExcept desk
  exact Attempt.outcome_of_eq (amplitude_of_current hindex hsmall hcurrent)

theorem outcome_amplitude_of_large (b : Backend α ρ σ) (store : Store α) {digits : List Nat}
    {index : Nat} (hindex : basisIndex digits desk.state.qubits = .ok index)
    (hlarge : desk.state.settings.vectorQubits < desk.state.qubits) :
    (amplitude b store digits).outcome desk = desk.state.getNetwork.bind fun net =>
      ((b.access (store.arena net.arena) net
        (.pinAll digits desk.state.settings.hyperSamples)).outcome desk.bench).bind firstOf := by
  rw [Attempt.outcome, amplitude, Attempt.bind_ok (Attempt.get_apply desk), hindex,
    Attempt.bind_ok (Attempt.ofExcept_ok index desk), if_neg (Nat.not_le.2 hlarge)]
  cases hnet : desk.state.getNetwork with
  | error e =>
    rw [Attempt.bind_error (Attempt.ofExcept_error e desk)]
    rfl
  | ok net =>
    let query := Query.pinAll digits desk.state.settings.hyperSamples
    have hbench := Desk.atBench_eq
      ((b.access (store.arena net.arena) net query).eq_ofExcept desk.bench)
    have hfirst (slice : Slice α ρ) (last : Desk α σ) :
        (match slice.amplitudes[0]? with
          | some a => pure a
          | none => throw (.backend "accessor returned no amplitude") :
            Attempt Error (Desk α σ) α) last = Attempt.ofExcept (firstOf slice) last := by
      unfold firstOf
      cases slice.amplitudes[0]? <;> rfl
    rw [Attempt.bind_ok (Attempt.ofExcept_ok net desk)]
    exact Attempt.outcome_of_eq (Attempt.bind_ofExcept hbench fun slice => hfirst slice _)

/-- When a copy succeeds, and what the buffer holds then: what was returned, as far as it reaches.
-/
theorem copyTo_eq_ok_iff (b : Backend α ρ σ) (store : Store α) (s : NetworkState α)
    (bench : Bench α σ) {buffer out : Array α} :
    (∃ last, s.copyTo b store (bench, buffer) = .ok () (last, out)) ↔
      ∃ net v, s.network = some net ∧ s.qubits < 64 ∧ buffer.size = 2 ^ s.qubits ∧
        (b.materialize (store.arena net.arena) net).outcome bench = .ok v ∧
        out = overwrite buffer v := by
  cases hnet : s.network with
  | none =>
    have hgot : s.getNetwork = .error .released := by rw [getNetwork, hnet]
    have hvector : s.vectorToCopy b store buffer.size bench =
        Attempt.ofExcept (.error .released) bench := by
      rw [vectorToCopy, hgot, Attempt.bind_error (Attempt.ofExcept_error _ bench)]
      rfl
    rw [copyTo_of_vector hvector]
    simp [copied]
  | some net =>
    by_cases hfit : s.qubits < 64 ∧ buffer.size = 2 ^ s.qubits
    · rw [copyTo_of_fits b store hnet hfit bench]
      cases hr : (b.materialize (store.arena net.arena) net).outcome bench with
      | error e =>
        constructor
        · rintro ⟨last, h⟩
          cases h
        · rintro ⟨net', v, hnet', -, -, hv, -⟩
          obtain rfl := Option.some.inj hnet'
          rw [hr] at hv
          cases hv
      | ok v =>
        constructor
        · rintro ⟨last, h⟩
          cases h
          exact ⟨net, v, rfl, hfit.1, hfit.2, hr, rfl⟩
        · rintro ⟨net', v', hnet', -, -, hv', rfl⟩
          obtain rfl := Option.some.inj hnet'
          obtain rfl := Except.ok.inj (hr.symm.trans hv')
          exact ⟨_, rfl⟩
    · obtain ⟨e, hcopy⟩ := copyTo_of_not_fits b store hnet hfit bench
      rw [hcopy]
      constructor
      · rintro ⟨last, h⟩
        cases h
      · rintro ⟨_, _, -, hcount, hsize, -, -⟩
        exact absurd ⟨hcount, hsize⟩ hfit

/-- A copy that fails leaves the buffer alone. -/
theorem snd_of_copyTo_error {b : Backend α ρ σ} {store : Store α} {s : NetworkState α}
    {bench : Bench α σ} {buffer : Array α} {e : Error} {last : Bench α σ × Array α}
    (h : s.copyTo b store (bench, buffer) = .error e last) : last.2 = buffer :=
  Attempt.snd_of_beside_error (by simp) h

end NetworkState

namespace Station

variable [Magnitude α ρ] [Zero ρ] [Add ρ] [Mul ρ] [LE ρ] [DecidableLE ρ]

variable {b : Backend α ρ σ} {st : Station α σ} {n : Nat} {history : List (Mark α)}

/-! ## What is kept along a run -/

/-- The kept vector is the last one that the history tells of, whatever its size. -/
structure Carries (b : Backend α ρ σ) (n : Nat) (history : List (Mark α)) (s : NetworkState α) :
    Prop where
  network : ∃ net, s.network = some net ∧ net.qubits = n
  qubits : s.qubits = n
  last : s.cache.map Contracted.amplitudes = lastVector? history
  full : b.Full → ∀ v, lastVector? history = some v → v.size = 2 ^ n

theorem Carries.use (h : Carries b n history st.state) (u : Use α ρ τ υ) :
    Carries b n (history ++ st.marks b u) (st.use b u).state := by
  obtain ⟨net, hnet, hn⟩ := h.network
  rcases use_cases b u hnet with
    ⟨op, position, net', hpush, hmarks, hstate⟩ | ⟨-, hmarks, hstate⟩ | ⟨hidle, hstate⟩
  · obtain ⟨-, rfl⟩ := Network.push_eq_ok hpush
    rw [hmarks, hstate]
    refine ⟨⟨_, rfl, hn⟩, h.qubits, ?_, ?_⟩
    · rw [lastVector?_appended]
      exact h.last
    · rw [lastVector?_appended]
      exact h.full
  · rw [hmarks, hstate]
    have hcontract := (b.materialize (st.store.arena net.arena) net).eq_ofExcept st.bench
    cases hr : (b.materialize (st.store.arena net.arena) net).outcome st.bench with
    | error e =>
      have hidle : ∀ m ∈ [Mark.asked (.error e : Except Error (Array α))], m.Idle := by
        simp [Mark.Idle]
      obtain ⟨-, hlast⟩ := vectorsSince_append history _ hidle
      refine ⟨⟨net, hnet, hn⟩, h.qubits, ?_, ?_⟩
      · rw [hlast]
        exact h.last
      · rw [hlast]
        exact h.full
    | ok v =>
      rw [hr] at hcontract
      refine ⟨⟨net, hnet, hn⟩, h.qubits, ?_, fun hb w hw => ?_⟩
      · rw [lastVector?_asked]
        rfl
      · rw [lastVector?_asked] at hw
        obtain rfl := Option.some.inj hw
        rw [← hn]
        exact hb _ _ _ _ _ hcontract
  · obtain ⟨-, hlast⟩ := vectorsSince_append history _ hidle
    rw [hstate]
    refine ⟨⟨net, hnet, hn⟩, h.qubits, ?_, ?_⟩
    · rw [hlast]
      exact h.last
    · rw [hlast]
      exact h.full

theorem Carries.run (h : Carries b n history st.state) (events : List (Event α ρ σ τ υ)) :
    Carries b n (history ++ (st.run b events).1) (st.run b events).2.state := by
  induction events generalizing st history with
  | nil =>
    rw [Station.run, List.append_nil]
    exact h
  | cons e events ih =>
    cases e with
    | use u =>
      have hrest := ih (h.use u)
      rw [List.append_assoc] at hrest
      exact hrest
    | elsewhere store bench =>
      have hsame : Carries b n history (⟨st.state, store, bench⟩ : Station α σ).state := h
      exact ih hsame

/-! ## Answers -/

/-- How a state answers, after the given history, from vectors of any size. -/
structure Trusts (b : Backend α ρ σ) (history : List (Mark α)) (st : Station α σ) : Prop where
  kept : st.state.cache.map Contracted.amplitudes = lastVector? history
  current : ∀ v, (NetworkState.currentVector b st.store).outcome st.desk = .ok v →
    lastVector? history = some v ∨ ∃ net, st.state.network = some net ∧
      (b.materialize (st.store.arena net.arena) net).outcome st.bench = .ok v
  /-- An amplitude of a small register is looked up wherever its index points. -/
  amplitude : ∀ digits index, basisIndex digits st.state.qubits = .ok index →
    st.state.qubits ≤ st.state.settings.vectorQubits →
    (NetworkState.amplitude b st.store digits).outcome st.desk =
      ((NetworkState.currentVector b st.store).outcome st.desk).bind (NetworkState.entryAt index)
  /-- One of a large register is the first that the backend answers with, if it answers with any. -/
  accessed : ∀ digits index, basisIndex digits st.state.qubits = .ok index →
    st.state.settings.vectorQubits < st.state.qubits →
    (NetworkState.amplitude b st.store digits).outcome st.desk =
      st.state.getNetwork.bind fun net => ((b.access (st.store.arena net.arena) net
        (.pinAll digits st.state.settings.hyperSamples)).outcome st.bench).bind
          NetworkState.firstOf
  /-- A copy that succeeds has replaced the entries that there are amplitudes for. -/
  copied : ∀ buffer out,
    (∃ last, st.state.copyTo b st.store (st.bench, buffer) = .ok () (last, out)) ↔
      ∃ net v, st.state.network = some net ∧ st.state.qubits < 64 ∧
        buffer.size = 2 ^ st.state.qubits ∧
        (b.materialize (st.store.arena net.arena) net).outcome st.bench = .ok v ∧
        out.size = 2 ^ st.state.qubits ∧
        ∀ i < 2 ^ st.state.qubits, out[i]? = if i < v.size then v[i]? else buffer[i]?
  /-- One that fails has left the buffer alone. -/
  untouched : ∀ buffer e last,
    st.state.copyTo b st.store (st.bench, buffer) = .error e last → last.2 = buffer

/-- Every vector has as many entries as the register has basis states. -/
structure Sized (b : Backend α ρ σ) (st : Station α σ) : Prop where
  kept : ∀ c, st.state.cache = some c → c.amplitudes.size = 2 ^ st.state.qubits
  amplitude : ∀ digits index, basisIndex digits st.state.qubits = .ok index →
    st.state.qubits ≤ st.state.settings.vectorQubits →
    (∃ (v : Array α) (h : index < v.size),
      (NetworkState.currentVector b st.store).outcome st.desk = .ok v ∧
      (NetworkState.amplitude b st.store digits).outcome st.desk = .ok v[index]) ∨
    ∃ e, (NetworkState.currentVector b st.store).outcome st.desk = .error e ∧
      (NetworkState.amplitude b st.store digits).outcome st.desk = .error e
  copied : ∀ buffer last out, st.state.copyTo b st.store (st.bench, buffer) = .ok () (last, out) →
    ∃ net, st.state.network = some net ∧
      (b.materialize (st.store.arena net.arena) net).outcome st.bench = .ok out

omit [Magnitude α ρ] [Zero ρ] [Add ρ] [Mul ρ] [LE ρ] [DecidableLE ρ] in
theorem trusts_of_kept (b : Backend α ρ σ)
    (hkept : st.state.cache.map Contracted.amplitudes = lastVector? history) :
    Trusts b history st where
  kept := hkept
  current v hv := by
    rcases NetworkState.outcome_currentVector_cases b st.store hv with h | h
    · exact .inl (hkept.symm.trans h)
    · exact .inr h
  amplitude digits index hindex hsmall :=
    NetworkState.outcome_amplitude_of_small b st.store hindex hsmall
  accessed digits index hindex hlarge :=
    NetworkState.outcome_amplitude_of_large b st.store hindex hlarge
  copied buffer out := by
    rw [NetworkState.copyTo_eq_ok_iff]
    constructor
    · rintro ⟨net, v, hnet, hcount, hsize, hv, rfl⟩
      refine ⟨net, v, hnet, hcount, hsize, hv, by rw [size_overwrite, hsize], fun i hi => ?_⟩
      rw [getElem?_overwrite, if_pos (hsize ▸ hi)]
    · rintro ⟨net, v, hnet, hcount, hsize, hv, hout, hentries⟩
      refine ⟨net, v, hnet, hcount, hsize, hv, Array.ext_getElem? fun i => ?_⟩
      rw [getElem?_overwrite, hsize]
      by_cases hi : i < 2 ^ st.state.qubits
      · rw [if_pos hi, hentries i hi]
      · rw [if_neg hi, Array.getElem?_eq_none (by omega)]
  untouched buffer e last h := NetworkState.snd_of_copyTo_error h

omit [Magnitude α ρ] [Zero ρ] [Add ρ] [Mul ρ] [LE ρ] [DecidableLE ρ] in
/-- Over a backend that returns whole vectors all sizes are right. -/
theorem Trusts.sized (h : Trusts b history st) (hb : b.Full)
    (hqubits : ∀ net, st.state.network = some net → net.qubits = st.state.qubits)
    (hlast : ∀ v, lastVector? history = some v → v.size = 2 ^ st.state.qubits) :
    Sized b st := by
  have hnew : ∀ net v, st.state.network = some net →
      (b.materialize (st.store.arena net.arena) net).outcome st.bench = .ok v →
      v.size = 2 ^ st.state.qubits := by
    intro net v hnet hv
    have hcontract := (b.materialize (st.store.arena net.arena) net).eq_ofExcept st.bench
    rw [hv] at hcontract
    rw [← hqubits net hnet]
    exact hb _ _ _ _ _ hcontract
  refine ⟨fun c hc => ?_, fun digits index hindex hsmall => ?_, fun buffer last out hout => ?_⟩
  · have hkept := h.kept
    rw [hc] at hkept
    exact hlast _ hkept.symm
  · rw [h.amplitude digits index hindex hsmall]
    cases hv : (NetworkState.currentVector b st.store).outcome st.desk with
    | error e => exact .inr ⟨e, rfl, rfl⟩
    | ok v =>
      have hsize : v.size = 2 ^ st.state.qubits := by
        rcases h.current v hv with hkept | ⟨net, hnet, hcontract⟩
        · exact hlast v hkept
        · exact hnew net v hnet hcontract
      have hinside : index < v.size := hsize ▸ basisIndex_lt hindex
      refine .inl ⟨v, hinside, rfl, ?_⟩
      show NetworkState.entryAt index v = _
      rw [NetworkState.entryAt, Array.getElem?_eq_getElem hinside]
  · obtain ⟨net, v, hnet, -, -, hv, hsize, hentries⟩ := (h.copied buffer out).1 ⟨last, hout⟩
    have hfull := hnew net v hnet hv
    -- Every place of the buffer has an amplitude, and there are no more amplitudes than places.
    have hall : out = v := by
      refine Array.ext (hsize.trans hfull.symm) fun i hi hi' => ?_
      have hentry := hentries i (by omega)
      rw [if_pos hi', Array.getElem?_eq_getElem hi, Array.getElem?_eq_getElem hi'] at hentry
      exact Option.some.inj hentry
    exact ⟨net, hnet, hall ▸ hv⟩

/-- With whatever backend, and whatever a state was used for before, its network released or not:
vectors of any size are kept, looked up and copied as they come. Over backends that return whole
vectors all sizes are right. -/
theorem run_trusts (b : Backend α ρ σ) (net : Network) (settings : Settings) (store : Store α)
    (bench : Bench α σ) (events : List (Event α ρ σ τ υ)) :
    let start : Station α σ := ⟨.ofNetwork net settings, store, bench⟩
    let history := (start.run b events).1
    let st := (start.run b events).2
    let released : Station α σ := { st with state := st.state.release }
    Trusts b history st ∧ Trusts b history released ∧ (b.Full → Sized b st ∧ Sized b released) := by
  intro start history st released
  have hstart : Carries b net.qubits [] start.state := ⟨⟨net, rfl, rfl⟩, rfl, rfl, fun _ => nofun⟩
  have hrun : Carries b net.qubits history st.state := hstart.run events
  have htrusts : Trusts b history st := trusts_of_kept b hrun.last
  have hreleased : Trusts b history released := trusts_of_kept b hrun.last
  refine ⟨htrusts, hreleased, fun hb => ⟨htrusts.sized hb ?_ ?_, hreleased.sized hb ?_ ?_⟩⟩
  · intro now hnow
    obtain ⟨known, hknown, hqubits⟩ := hrun.network
    obtain rfl := Option.some.inj (hknown.symm.trans hnow)
    exact hqubits.trans hrun.qubits.symm
  · intro v hv
    rw [hrun.qubits]
    exact hrun.full hb v hv
  · intro now hnow
    cases hnow
  · intro v hv
    show v.size = 2 ^ st.state.qubits
    rw [hrun.qubits]
    exact hrun.full hb v hv

/-- Over the numbering backend, which returns whole vectors. -/
theorem run_trusts_numbering :
    let start : Station Amplitude Nat := ⟨.ofNetwork (.empty 0 1) {}, .sample 1, ⟨.ofBytes 0, 1⟩⟩
    let events : List (Event Amplitude Float Nat Unit Unit) :=
      [.use (.amplitude [0]), .use (.append ⟨[0], [], ⟨0, 0, 0⟩, .unitary, false⟩)]
    Backend.numbering.Full ∧
      Sized Backend.numbering (start.run Backend.numbering events).2 := by
  intro start events
  have htrusts := run_trusts Backend.numbering (.empty 0 1) {} (.sample 1) ⟨.ofBytes 0, 1⟩ events
  exact ⟨Backend.numbering_full, (htrusts.2.2 Backend.numbering_full).1⟩

end Station

/-- A backend that returns no amplitudes. -/
def Backend.hollow : Backend Amplitude Float Unit where
  workspace _ := 0
  materialize _ _ bench := .ok #[] bench
  access _ _ _ bench := .ok ⟨#[], 0⟩ bench

/-- One qubit over the hollow backend: a copy succeeds and replaces nothing, an amplitude is looked
up outside of the vector, and a vector without entries is kept. -/
theorem Station.hollow_vector_trusted :
    let st : Station Amplitude Unit := ⟨.ofNetwork (.empty 0 1) {}, .empty, ⟨.ofBytes 0, ()⟩⟩
    let ask : Use Amplitude Float Unit Unit := .amplitude [0]
    st.state.copyTo Backend.hollow st.store (st.bench, #[⟨7, -7⟩, ⟨7, -7⟩]) =
        .ok () (st.bench, #[⟨7, -7⟩, ⟨7, -7⟩]) ∧
      (NetworkState.amplitude Backend.hollow st.store [0]).outcome st.desk =
        .error .outOfBounds ∧
      (st.use Backend.hollow ask).state.cache.map (fun c => c.amplitudes.size) = some 0 := by
  exact ⟨rfl, rfl, rfl⟩

end GateNetwork
