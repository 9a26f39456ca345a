import GateNetwork.Proofs.Coherence

/-!
# Kept vectors after the release

A release takes away the network and with it the version that a kept vector is compared with. So the
vector that can be read afterwards is the one contracted last, whether or not the network has grown
since then: a vector that was ready stays ready, and one that was outdated can be read again.
-/

namespace GateNetwork

variable {α ρ σ τ υ : Type}

namespace NetworkState

variable {s : NetworkState α} {net : Network}

/-- A vector that is ready is the kept one. -/
theorem kept_of_ready (hnet : s.network = some net) {v : Array α}
    (hready : s.readyVector? = some v) : s.cache.map Contracted.amplitudes = some v := by
  rw [readyVector?_eq hnet, vectorAt?] at hready
  cases hc : s.cache with
  | none =>
    rw [hc] at hready
    cases hready
  | some c =>
    rw [hc] at hready
    dsimp only at hready
    split at hready
    · exact hready
    · cases hready

/-- Once the network is gone, the kept vector is ready whatever its version. -/
theorem readyVector?_release (s : NetworkState α) :
    s.release.readyVector? = s.cache.map Contracted.amplitudes := rfl

/-- A dump after the release contracts nothing: without a kept vector it fails. -/
theorem vectorToDump_release (b : Backend α ρ σ) (store : Store α) (s : NetworkState α)
    (bench : Bench α σ) : s.release.vectorToDump b store bench =
      Attempt.ofExcept (s.release.readyVector?.elim (.error .released) .ok) bench := by
  cases hready : s.release.readyVector? with
  | some v => exact vectorToDump_of_ready b store hready bench
  | none =>
    rw [vectorToDump, hready]
    rfl

end NetworkState

namespace Station

variable [Magnitude α ρ] [Zero ρ] [Add ρ] [Mul ρ] [LE ρ] [DecidableLE ρ]

/-- After the release the vector contracted last for an amplitude or for samples can be read and
dumped. Nothing has changed for readers if there is none, or if it was contracted since the last
append. -/
theorem run_release (b : Backend α ρ σ) {net : Network} {store : Store α} (hnet : net.Built store)
    (settings : Settings) (s : Store α) (bench : Bench α σ) (events : List (Event α ρ σ τ υ)) :
    let start : Station α σ := ⟨.ofNetwork net settings, s, bench⟩
    let history := (start.run b events).1
    let st := (start.run b events).2
    (∀ last, st.state.network = some last → last.size < 2 ^ 64) →
      st.state.release.readyVector? = lastVector? history ∧
      (st.state.release.readyVector? = st.state.readyVector? ↔
        lastVector? history = none ∨ vectorsSince history ≠ []) ∧
      ∀ {τ : Type} line (sink : Sink τ) (t : τ),
        let r := (lastVector? history).elim (.error .released) .ok
        st.state.release.dump b st.store line sink (st.bench, t) =
          Attempt.ofExcept (NetworkState.written line sink t r).1
            (st.bench, (NetworkState.written line sink t r).2) := by
  intro start history st hcount
  have hstart : Tracks b [] net start.state := .fresh b hnet settings
  obtain ⟨last, htracks⟩ := hstart.run events hcount
  rw [List.nil_append] at htracks
  change Tracks b history last st.state at htracks
  have hrelease : st.state.release.readyVector? = lastVector? history :=
    (NetworkState.readyVector?_release st.state).trans htracks.last
  refine ⟨hrelease, ?_, fun line sink t => ?_⟩
  · rw [hrelease]
    cases hready : st.state.readyVector? with
    | none =>
      have hsince : vectorsSince history = [] := by rw [← htracks.ready, hready]; rfl
      simp [hsince]
    | some v =>
      have hsince : vectorsSince history = [v] := by rw [← htracks.ready, hready]; rfl
      have hlast : lastVector? history = some v :=
        htracks.last.symm.trans (NetworkState.kept_of_ready htracks.network hready)
      simp [hsince, hlast]
  · have hvector := NetworkState.vectorToDump_release b st.store st.state st.bench
    rw [hrelease] at hvector
    exact NetworkState.dump_of_vector hvector line sink t

/-- A register of one qubit is contracted and then negated: no vector is ready before the release,
and the outdated one is afterwards. -/
theorem release_revives_outdated :
    let arena : Arena Amplitude := ((Arena.empty 0).store Gate.x.matrix).2
    let start : Station Amplitude Nat := ⟨.ofNetwork (.empty 0 1) {}, ⟨#[arena]⟩, ⟨.ofBytes 0, 1⟩⟩
    let events : List (Event Amplitude Float Nat Unit Unit) :=
      [.use (.amplitude [0]), .use (.append ⟨[0], [], ⟨0, 0, 0⟩, .unitary, false⟩)]
    let s := (start.run Backend.numbering events).2.state
    s.isReleased = false ∧ s.readyVector? = none ∧ s.release.readyVector?.isSome := by
  exact ⟨rfl, rfl, rfl⟩

/-- The vector of a register of one qubit, read after an operator was refused and another one was
accepted. -/
theorem run_release_numbering :
    let arena : Arena Amplitude := ((Arena.empty 0).store Gate.x.matrix).2
    let start : Station Amplitude Nat := ⟨.ofNetwork (.empty 0 1) {}, ⟨#[arena]⟩, ⟨.ofBytes 0, 1⟩⟩
    let events : List (Event Amplitude Float Nat Unit Unit) :=
      [.use (.amplitude [0]), .use (.append ⟨[0], [], ⟨0, 1, 0⟩, .unitary, false⟩),
        .use (.append ⟨[0], [], ⟨0, 0, 0⟩, .unitary, false⟩)]
    let history := (start.run Backend.numbering events).1
    let st := (start.run Backend.numbering events).2
    (Network.empty 0 1).Built start.store ∧
      (∀ last, st.state.network = some last → last.size < 2 ^ 64) ∧
      st.state.release.readyVector? = lastVector? history := by
  intro arena start events history st
  have hnet : (Network.empty 0 1).Built start.store := .empty _ 0 1
  have hfirst : start.state.network = some (.empty 0 1) := rfl
  have hcount := size_run_lt Backend.numbering events hfirst (by decide)
  obtain ⟨hready, -, -⟩ :=
    run_release Backend.numbering hnet {} start.store start.bench events hcount
  exact ⟨hnet, hcount, hready⟩

end Station

end GateNetwork
