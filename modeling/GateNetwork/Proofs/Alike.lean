import GateNetwork.Proofs.FromVector

/-!
# Networks that prepare one vector

Two networks over registers of one size that prepare the same vector cannot be told apart by what
states over them answer: neither by contractions, nor by amplitudes, whatever was asked before, nor
by norms, nor by overlaps with a third network on either side.
-/

namespace GateNetwork

variable {α ρ σ : Type}

namespace Network

section

variable [Semiring α] [StarRing α] {k l other : Network} {store : Store α} {capacity : Nat}

/-- The networks have registers of one size and prepare one vector over the store. -/
structure Alike (k l : Network) (store : Store α) : Prop where
  left : k.Built store
  right : l.Built store
  qubits : k.qubits = l.qubits
  vector : k.vector (store.arena k.arena) = l.vector (store.arena l.arena)

namespace Alike

theorem contracted_eq (h : k.Alike l store) (capacity : Nat) :
    k.contracted (store.arena k.arena) capacity = l.contracted (store.arena l.arena) capacity := by
  rw [contracted, contracted, h.qubits, h.vector]

theorem amplitudeAnswer_eq (h : k.Alike l store) (capacity : Nat) (digits : List Nat) :
    k.amplitudeAnswer (store.arena k.arena) capacity digits =
      l.amplitudeAnswer (store.arena l.arena) capacity digits := by
  rw [amplitudeAnswer, amplitudeAnswer, h.qubits, h.contracted_eq]

theorem overlapAnswer_ket (h : k.Alike l store) (hother : other.Built store) (capacity : Nat) :
    k.overlapAnswer other store capacity = l.overlapAnswer other store capacity := by
  rw [overlapAnswer, overlapAnswer, joinedVector_zero h.left.fits hother.fits,
    joinedVector_zero h.right.fits hother.fits, h.qubits, h.vector]

theorem overlapAnswer_bra (h : k.Alike l store) (hother : other.Built store) (capacity : Nat) :
    other.overlapAnswer k store capacity = other.overlapAnswer l store capacity := by
  rw [overlapAnswer, overlapAnswer, joinedVector_zero hother.fits h.left.fits,
    joinedVector_zero hother.fits h.right.fits, h.qubits, h.vector]

end Alike

end

open NetworkState

variable [Zero α] [One α] [Add α] [Mul α] [Conj α] [Magnitude α ρ] [Zero ρ] [Add ρ]

/-- Questions about the two networks have the same answers, over pools of any capacity. -/
structure AnswersAlike (σ : Type) (k l : Network) (store : Store α) : Prop where
  materialize : ∀ bench : Bench α σ,
    ((Dense.backend : Backend α ρ σ).materialize (store.arena k.arena) k).outcome bench =
      ((Dense.backend : Backend α ρ σ).materialize (store.arena l.arena) l).outcome bench
  amplitude : ∀ (s t : NetworkState α) (bench : Bench α σ) (digits : List Nat),
    s.network = some k → t.network = some l →
    s.Reached bench.scratch.capacity store → t.Reached bench.scratch.capacity store →
    (amplitude (Dense.backend : Backend α ρ σ) store digits).outcome ⟨s, bench⟩ =
      (amplitude (Dense.backend : Backend α ρ σ) store digits).outcome ⟨t, bench⟩
  norm : ∀ (s t : NetworkState α) (bench : Bench α σ),
    s.network = some k → t.network = some l →
    (norm (Dense.backend : Backend α ρ σ) store s).outcome bench =
      (norm (Dense.backend : Backend α ρ σ) store t).outcome bench
  ket : ∀ (s t bra : NetworkState α) (other : Network) (bench : Bench α σ),
    s.network = some k → t.network = some l → bra.network = some other → other.Built store →
    (overlap (Dense.backend : Backend α ρ σ) s bra).outcome ⟨store, bench⟩ =
      (overlap (Dense.backend : Backend α ρ σ) t bra).outcome ⟨store, bench⟩
  bra : ∀ (s t ket : NetworkState α) (other : Network) (bench : Bench α σ),
    s.network = some k → t.network = some l → ket.network = some other → other.Built store →
    (overlap (Dense.backend : Backend α ρ σ) ket s).outcome ⟨store, bench⟩ =
      (overlap (Dense.backend : Backend α ρ σ) ket t).outcome ⟨store, bench⟩

end Network

/-- Networks that prepare one vector answer alike. -/
theorem Network.Alike.answersAlike [Semiring α] [StarRing α] [Magnitude α ρ] [Zero ρ] [Add ρ]
    {k l : Network} {store : Store α} (h : k.Alike l store) :
    k.AnswersAlike (ρ := ρ) σ l store where
  materialize bench := by
    obtain ⟨_, hk⟩ := Dense.contract_eq h.left.fits bench
    obtain ⟨_, hl⟩ := Dense.contract_eq h.right.fits bench
    refine (Attempt.outcome_of_eq hk).trans ?_
    rw [h.contracted_eq]
    exact (Attempt.outcome_of_eq hl).symm
  amplitude s t bench digits hs ht hreached hreached' := by
    obtain ⟨_, hserves⟩ := hreached.serves
    obtain ⟨_, hserves'⟩ := hreached'.serves
    obtain rfl := Option.some.inj (hs.symm.trans hserves.network)
    obtain rfl := Option.some.inj (ht.symm.trans hserves'.network)
    obtain ⟨_, _, heq, -⟩ := NetworkState.amplitude_eq (ρ := ρ) ⟨s, bench⟩ hserves digits
    obtain ⟨_, _, heq', -⟩ := NetworkState.amplitude_eq (ρ := ρ) ⟨t, bench⟩ hserves' digits
    rw [Attempt.outcome_of_eq heq, Attempt.outcome_of_eq heq', h.amplitudeAnswer_eq]
  norm s t bench hs ht := by
    obtain ⟨_, heq⟩ := NetworkState.norm_of_fits (ρ := ρ) hs h.left.fits bench
    obtain ⟨_, heq'⟩ := NetworkState.norm_of_fits (ρ := ρ) ht h.right.fits bench
    rw [Attempt.outcome_of_eq heq, Attempt.outcome_of_eq heq', normAnswer, normAnswer,
      h.contracted_eq]
  ket s t bra other bench hs ht hbra hother := by
    rw [NetworkState.outcome_overlap hs hbra h.left.fits hother.fits,
      NetworkState.outcome_overlap ht hbra h.right.fits hother.fits, h.overlapAnswer_ket hother]
  bra s t ket other bench hs ht hket hother := by
    rw [NetworkState.outcome_overlap hket hs hother.fits h.left.fits,
      NetworkState.outcome_overlap hket ht hother.fits h.right.fits, h.overlapAnswer_bra hother]

end GateNetwork
