import GateNetwork.Proofs.Isometry
import GateNetwork.Proofs.Replacing

/-!
# Independent operators

Two operators are independent if neither changes a wire that the other looks at; controls may be
shared. A product of their matrices leads from one index to another through a single index between
them, which has the new bits at the targets of the one and the old bits at those of the other. Its
entries are then products of one entry of each matrix, whichever of the two comes first, so that the
matrices commute and neighbours of a network can be exchanged.
-/

open Matrix

namespace GateNetwork

variable {α ρ σ : Type}

/-! ## The index between two others -/

theorem localIndex_congr {targets : List Nat} {i j : Nat}
    (h : ∀ q ∈ targets, i.testBit q = j.testBit q) :
    localIndex targets i = localIndex targets j := by
  refine Fin.ext ?_
  rw [val_localIndex, val_localIndex]
  refine Nat.eq_of_testBit_eq fun b => ?_
  rw [testBit_collect, testBit_collect]
  cases hb : targets[b]? with
  | none => rfl
  | some q => exact h q (List.mem_of_getElem? hb)

section

variable {T S : List Nat} {i j m : Nat} (hT : T.Nodup)

include hT

theorem clear_between (i j : Nat) : clear T i = clear T (between T i j) :=
  clear_eq_clear_iff.2 fun p hp => by rw [testBit_between hT, if_neg hp]

theorem localIndex_between (i j : Nat) : localIndex T (between T i j) = localIndex T j :=
  localIndex_congr fun q hq => by rw [testBit_between hT, if_pos hq]

theorem clear_between_append_iff :
    clear S (between T i j) = clear S j ↔ clear (T ++ S) i = clear (T ++ S) j := by
  rw [clear_eq_clear_iff, clear_eq_clear_iff]
  simp only [List.mem_append, not_or]
  constructor
  · rintro h p ⟨hpT, hpS⟩
    rw [← h p hpS, testBit_between hT, if_neg hpT]
  · intro h p hpS
    rw [testBit_between hT]
    split
    · rfl
    · rename_i hpT
      exact h p ⟨hpT, hpS⟩

variable (hapart : ∀ q ∈ T, q ∉ S)

include hapart

theorem localIndex_between_apart (i j : Nat) : localIndex S (between T i j) = localIndex S i :=
  localIndex_congr fun q hq => by rw [testBit_between hT, if_neg fun hmem => hapart q hmem hq]

/-- No other index agrees with the one off the first targets and with the other off the second. -/
theorem eq_between_of_clear_eq (hi : clear T i = clear T m) (hj : clear S m = clear S j) :
    m = between T i j := by
  refine Nat.eq_of_testBit_eq fun p => ?_
  rw [testBit_between hT]
  split
  · rename_i hp
    exact clear_eq_clear_iff.1 hj p (hapart p hp)
  · rename_i hp
    exact (clear_eq_clear_iff.1 hi p hp).symm

end

/-! ## Entries of products -/

section

variable {n : Nat} {T C S D : List Nat} (hT : T.Nodup) (hS : S.Nodup) (hTn : ∀ q ∈ T, q < n)

/-- Indices that agree off the targets are coupled by the matrix where the controls are one, and by
the identity elsewhere. -/
theorem controlled_apply_block [Semiring α] (hT : T.Nodup)
    (E : Matrix (Fin (2 ^ T.length)) (Fin (2 ^ T.length)) α) (i j : Fin (2 ^ n)) :
    controlled n T C E i j =
      if clear T i = clear T j then
        (if allSet C i then E else 1) (localIndex T i) (localIndex T j)
      else 0 := by
  rw [controlled_apply]
  by_cases hset : allSet C i = true
  · rw [if_pos hset, if_pos hset]
  · have hone : controlled n T [] (1 : Matrix (Fin (2 ^ T.length)) (Fin (2 ^ T.length)) α) = 1 :=
      controlled_one hT
    rw [if_neg hset, if_neg hset, ← hone, controlled_apply]
    exact if_pos rfl

include hT hS hTn

/-- A product of two matrices, the left one off the wires of the right one. -/
theorem controlled_mul_controlled_apply [Semiring α] (hTS : ∀ q ∈ T, q ∉ S ++ D)
    (E : Matrix (Fin (2 ^ T.length)) (Fin (2 ^ T.length)) α)
    (F : Matrix (Fin (2 ^ S.length)) (Fin (2 ^ S.length)) α) (i j : Fin (2 ^ n)) :
    (controlled n T C E * controlled n S D F) i j =
      if clear (T ++ S) i = clear (T ++ S) j then
        (if allSet C i then E else 1) (localIndex T i) (localIndex T j) *
          (if allSet D i then F else 1) (localIndex S i) (localIndex S j)
      else 0 := by
  have hapart : ∀ q ∈ T, q ∉ S := fun q hq hmem => hTS q hq (List.mem_append_left D hmem)
  have hcontrols : ∀ c ∈ D, c ∉ T := fun c hc hmem => hTS c hmem (List.mem_append_right S hc)
  let k : Fin (2 ^ n) := ⟨between T i j, clear_or_spread_lt hTn i.isLt _⟩
  have hclear : clear T i = clear T k := clear_between hT i j
  have hleft : localIndex T k = localIndex T j := localIndex_between hT i j
  have hright : localIndex S k = localIndex S i := localIndex_between_apart hT hapart i j
  have hagree : clear S k = clear S j ↔ clear (T ++ S) i = clear (T ++ S) j :=
    clear_between_append_iff hT
  rw [Matrix.mul_apply, Finset.sum_eq_single k]
  · rw [controlled_apply_block hT, if_pos hclear, hleft, controlled_apply_block hS, hright,
      ← allSet_eq_of_clear_eq hcontrols hclear]
    simp only [hagree, mul_ite, mul_zero]
  · intro m _ hm
    rw [controlled_apply_block hT, controlled_apply_block hS]
    by_cases hfirst : clear T i = clear T m
    · have hsecond : ¬ clear S m = clear S j := fun hsecond =>
        hm (Fin.ext (eq_between_of_clear_eq hT hapart hfirst hsecond))
      rw [if_neg hsecond, mul_zero]
    · rw [if_neg hfirst, zero_mul]
  · exact fun hk => absurd (Finset.mem_univ k) hk

/-- Matrices commute if neither has a target among the wires of the other. -/
theorem controlled_mul_comm [CommSemiring α] (hSn : ∀ q ∈ S, q < n) (hTS : ∀ q ∈ T, q ∉ S ++ D)
    (hST : ∀ q ∈ S, q ∉ T ++ C) (E : Matrix (Fin (2 ^ T.length)) (Fin (2 ^ T.length)) α)
    (F : Matrix (Fin (2 ^ S.length)) (Fin (2 ^ S.length)) α) :
    controlled n T C E * controlled n S D F = controlled n S D F * controlled n T C E := by
  have hclear (i j : Nat) :
      clear (T ++ S) i = clear (T ++ S) j ↔ clear (S ++ T) i = clear (S ++ T) j := by
    rw [clear_eq_clear_iff, clear_eq_clear_iff]
    simp only [List.mem_append, or_comm]
  ext i j
  rw [controlled_mul_controlled_apply hT hS hTn hTS, controlled_mul_controlled_apply hS hT hSn hST]
  simp only [hclear, mul_comm]

end

/-! ## Exchanging neighbours -/

/-- No target of either operator is a wire of the other. -/
def Operator.Independent (r s : Operator) : Prop :=
  (∀ q ∈ r.targets, q ∉ s.targets ++ s.controls) ∧ ∀ q ∈ s.targets, q ∉ r.targets ++ r.controls

section

variable {net : Network} {store : Store α} {r s : Operator} {before after : List Operator}

/-- The network with other operators, as many as it has. -/
def Network.withOps (net : Network) (ops : List Operator) : Network := { net with ops := ops }

theorem Network.Built.exchange (h : net.Built store) (hops : net.ops = before ++ r :: s :: after) :
    (net.withOps (before ++ s :: r :: after)).Built store := by
  obtain ⟨hfits, hversion⟩ := Network.built_iff.1 h
  have hperm : (before ++ s :: r :: after).Perm net.ops := by
    rw [hops]
    exact (List.Perm.swap r s after).append_left before
  refine Network.built_iff.2 ⟨fun op hop => hfits op (hperm.mem_iff.1 hop), hversion.trans ?_⟩
  rw [← hperm.length_eq]
  rfl

variable [CommSemiring α] [StarRing α]

theorem Operator.Fits.matrix_mul_comm {a : Arena α} {n : Nat} (hr : r.Fits a n)
    (hs : s.Fits a n) (h : r.Independent s) :
    a.matrix n r * a.matrix n s = a.matrix n s * a.matrix n r :=
  controlled_mul_comm hr.action.targets_nodup hs.action.targets_nodup hr.action.target_lt
    hs.action.target_lt h.1 h.2 _ _

namespace Network

theorem Built.vector_exchange (h : net.Built store) (hops : net.ops = before ++ r :: s :: after)
    (hindependent : r.Independent s) :
    (net.withOps (before ++ s :: r :: after)).vector (store.arena net.arena) =
      net.vector (store.arena net.arena) := by
  have hr := h.fits r (by simp [hops])
  have hs := h.fits s (by simp [hops])
  refine h.fits.vector_replace [r, s] [s, r] (h.exchange hops).fits rfl hops rfl ?_
  simpa using hr.matrix_mul_comm hs hindependent

/-- Exchanging two neighbours that are independent changes neither the vector of a network nor what
is answered from it. -/
theorem Built.exchange_independent [Magnitude α ρ] [Zero ρ] [Add ρ] (h : net.Built store)
    (hops : net.ops = before ++ r :: s :: after) (hindependent : r.Independent s) :
    let exchanged := net.withOps (before ++ s :: r :: after)
    exchanged.Built store ∧
      exchanged.vector (store.arena net.arena) = net.vector (store.arena net.arena) ∧
      net.AnswersAlike (ρ := ρ) σ exchanged store := by
  intro exchanged
  have hvector : exchanged.vector (store.arena net.arena) = net.vector (store.arena net.arena) :=
    h.vector_exchange hops hindependent
  have halike : net.Alike exchanged store := ⟨h, h.exchange hops, rfl, hvector.symm⟩
  exact ⟨h.exchange hops, hvector, halike.answersAlike⟩

end Network

end

/-- A negation and two more that it controls. -/
def Network.fanOut : Network :=
  ⟨0, 3, [⟨[0], [], ⟨0, 0, 0⟩, .unitary, false⟩, ⟨[1], [0], ⟨0, 0, 0⟩, .unitary, false⟩,
    ⟨[2], [0], ⟨0, 0, 0⟩, .unitary, true⟩], 3⟩

/-- The two controlled negations, which share their control. -/
theorem Network.exchange_independent_fanOut :
    let store : Store ℂ := .sample Complex.I
    let first : Operator := ⟨[0], [], ⟨0, 0, 0⟩, .unitary, false⟩
    let r : Operator := ⟨[1], [0], ⟨0, 0, 0⟩, .unitary, false⟩
    let s : Operator := ⟨[2], [0], ⟨0, 0, 0⟩, .unitary, true⟩
    let exchanged := fanOut.withOps [first, s, r]
    fanOut.Built store ∧ fanOut.ops = [first] ++ r :: s :: [] ∧ r.Independent s ∧
      exchanged.Built store ∧
      exchanged.vector (store.arena 0) = fanOut.vector (store.arena 0) ∧
      fanOut.AnswersAlike (ρ := ℝ) Unit exchanged store := by
  intro store first r s exchanged
  have hbuilt : fanOut.Built store := by
    refine built_iff.2 ⟨fun op hop => ?_, rfl⟩
    have hget : (store.arena 0).get ⟨0, 0, 0⟩ = .ok Gate.x.matrix :=
      Store.get_sample_negation Complex.I
    have hcases : op = first ∨ op = r ∨ op = s := by simpa [fanOut] using hop
    rcases hcases with rfl | rfl | rfl <;>
      exact ⟨by decide, by decide, by decide, by decide, _, hget, rfl, rfl⟩
  have hindependent : r.Independent s := ⟨by decide, by decide⟩
  have hops : fanOut.ops = [first] ++ r :: s :: [] := rfl
  exact ⟨hbuilt, hops, hindependent, hbuilt.exchange_independent hops hindependent⟩

end GateNetwork
