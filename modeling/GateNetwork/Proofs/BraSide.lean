import GateNetwork.Amplitude
import GateNetwork.Proofs.JoinTrace

/-!
# The bra side of one operator

With its flag flipped and, unless it is unitary, its tensor transposed, an operator applies the
conjugate transpose of what it applied before, entry by entry. That asks only that conjugating twice
changes nothing, so it holds of doubles to the last bit. Of the arenas, only the one that copies go
to changes, by at most one new tensor; and as the bra-side form has the shape that an append asks
for, it can be taken to the bra side again, which leads back to the matrix of the beginning.
-/

namespace GateNetwork

/-! ## Conjugation in double precision -/

section Doubles

open Float.Model (Format UnpackedFloat)
open Float.Model.UnpackedFloat

/-- The bits of a double with the sign bit turned. -/
def turnSign (b : BitVec Format.binary64.numBits) : BitVec Format.binary64.numBits :=
  packComponents .binary64 (-Sign.ofBitVec (unpackSign b)) (unpackExponent b) (unpackMantissa b)

theorem unpack_turnSign (b : BitVec Format.binary64.numBits) :
    unpack .binary64 (turnSign b) = (unpack .binary64 b).neg := by
  simp only [UnpackedFloat.unpack, turnSign, unpackSign_packComponents,
    unpackExponent_packComponents, unpackMantissa_packComponents, Sign.ofBitVec_toBitVec]
  split_ifs <;> rfl

/-- Packing loses nothing of what was unpacked: at most it makes one and the same bits of everything
that is not a number. -/
theorem unpack_pack_unpack (b : BitVec Format.binary64.numBits) :
    unpack .binary64 (pack .binary64 (unpack .binary64 b)) = unpack .binary64 b := by
  rw [pack_unpack b (by decide)]
  split
  · rename_i hnan
    obtain ⟨hexponent, hmantissa⟩ := of_decide_eq_true hnan
    rw [unpack_packedNaN, UnpackedFloat.unpack]
    simp only [hexponent, hmantissa, if_true, if_false]
  · rfl

theorem unpackedFloat_neg_neg (u : UnpackedFloat) : u.neg.neg = u := by
  cases u with
  | notANumber => rfl
  | infinity s => cases s <;> rfl
  | zero s => cases s <;> rfl
  | finite s m e h => cases s <;> rfl

theorem float_neg_neg (x : Float) : - -x = x := by
  obtain ⟨⟨bits, valid⟩⟩ := x
  -- What is negated a second time is the unpacked double, since the first result was packed from it.
  have hneg : unpack .binary64 (pack .binary64 (unpack .binary64 bits.toBitVec).neg) =
      (unpack .binary64 bits.toBitVec).neg := by
    rw [← unpack_turnSign, unpack_pack_unpack]
  refine congrArg Float.ofModel ?_
  show Float.Model.pack (unpack .binary64
    (pack .binary64 (unpack .binary64 bits.toBitVec).neg)).neg = _
  rw [hneg, unpackedFloat_neg_neg]
  simp only [Float.Model.pack, pack_unpack_of_valid valid]

theorem Amplitude.conj_involutive : Function.Involutive (conj : Amplitude → Amplitude) := by
  intro a
  exact congrArg (Amplitude.mk a.re) (float_neg_neg a.im)

end Doubles

variable {α : Type}

/-! ## The matrix of the bra side -/

namespace Tensor

theorem get?_adjoint [Conj α] (t : Tensor α) (i j : Nat) :
    t.adjoint.get? i j = (t.get? j i).map conj := by
  rw [adjoint, get?_map, get?_transpose]

theorem transpose_transpose (t : Tensor α) : t.transpose.transpose = t := by
  refine eq_of_entry rfl rfl rfl rfl fun i j _ _ => ?_
  rw [get?_transpose, get?_transpose]

end Tensor

/-- The matrix that a contraction applies for an operator, found by the operator's handle. -/
def Arena.applied [Conj α] (a : Arena α) (op : Operator) : Except Error (Tensor α) :=
  match a.get op.tensor with
  | .ok t => .ok (op.applied t)
  | .error e => .error (.backend e.message)

theorem Arena.applied_of_get [Conj α] {a : Arena α} {op : Operator} {t : Tensor α}
    (hget : a.get op.tensor = .ok t) : a.applied op = .ok (op.applied t) := by
  rw [applied, hget]

/-- A run applies the matrix of each operator to its wires, and stops where there is none. -/
theorem Dense.Buffers.run_cons [Zero α] [Add α] [Mul α] [Conj α] (a : Arena α) (op : Operator)
    (ops : List Operator) (b : Dense.Buffers α) : run a (op :: ops) b =
      match a.applied op with
      | .error e => (.error e, b)
      | .ok E =>
        match (⟨op.targets, op.controls, E⟩ : Action α).on? b.current with
        | none => (.error .outOfBounds, b)
        | some v => run a ops (b.advance v) := by
  rw [run, Arena.applied]
  cases a.get op.tensor <;> rfl

namespace Operator

variable {op : Operator} {t : Tensor α}

theorem braTensor_braTensor (op : Operator) (t : Tensor α) : op.braTensor (op.braTensor t) = t := by
  unfold braTensor
  cases op.kind with
  | unitary => rfl
  | nonUnitary => exact t.transpose_transpose

variable [Conj α]

/-- The conjugate transpose, for either kind and either flag. -/
theorem get?_applied_braTensor (hconj : Function.Involutive (conj : α → α)) (op : Operator)
    (t : Tensor α) (i j : Nat) :
    (({ op with adjoint := !op.adjoint } : Operator).applied (op.braTensor t)).get? i j =
      ((op.applied t).get? j i).map conj := by
  -- What was conjugated already is conjugated back.
  have hback (x : Option α) : x = (x.map conj).map conj := by
    rw [Option.map_map, hconj.comp_self, Option.map_id]
    rfl
  unfold applied braTensor
  cases op.kind with
  | unitary =>
    cases op.adjoint with
    | false => exact t.get?_adjoint i j
    | true =>
      show t.get? i j = (t.adjoint.get? j i).map conj
      rw [t.get?_adjoint, ← hback]
  | nonUnitary =>
    cases op.adjoint with
    | false =>
      show (t.transpose.map conj).get? i j = (t.get? j i).map conj
      rw [Tensor.get?_map, Tensor.get?_transpose]
    | true =>
      show t.transpose.get? i j = ((t.map conj).get? j i).map conj
      rw [Tensor.get?_map, Tensor.get?_transpose, ← hback]

/-! ## Making the bra side -/

/-- The bra-side form `bra` of the operator `op` was made. The tensor of `op` lies in the arena `k`
of the store `s`; what had to be copied was staged in the arena `l`, which led to `staging'` and to
the store `s'`. -/
structure BraSide (s : Store α) (k l : Nat) (staging : Staging) (op bra : Operator)
    (staging' : Staging) (s' : Store α) : Prop where
  made : ∃ a, op.toBra (s.arena k) (s.arena l) staging = .ok (bra, staging', a) ∧ s' = s.put l a
  targets : bra.targets = op.targets
  controls : bra.controls = op.controls
  kind : bra.kind = op.kind
  adjoint : bra.adjoint = !op.adjoint
  /-- The matrix of `bra` is the conjugate transpose of the matrix of `op`. -/
  applied : ∃ E F, (s.arena k).applied op = .ok E ∧ (s'.arena l).applied bra = .ok F ∧
    ∀ i j, F.get? i j = (E.get? j i).map conj
  /-- What is stored in any arena stays there. -/
  kept : ∀ i h t, (s.arena i).get h = .ok t → (s'.arena i).get h = .ok t
  others : ∀ i, i ≠ l → s'.arena i = s.arena i
  /-- A tensor is staged if the operator is not unitary or its tensor lies elsewhere, and otherwise
  none is. -/
  staged : if op.kind = .nonUnitary ∨ (s.arena l).owns op.tensor = false
    then staging'.handles = staging.handles ++ [bra.tensor]
    else staging' = staging ∧ bra.tensor = op.tensor ∧ s'.arena l = s.arena l

variable {s : Store α} {k l : Nat}

theorem exists_applied (hconj : Function.Involutive (conj : α → α)) {a b : Arena α} {h : Handle}
    (hget : a.get op.tensor = .ok t) (hbra : b.get h = .ok (op.braTensor t)) :
    ∃ E F, a.applied op = .ok E ∧
      b.applied { op with adjoint := !op.adjoint, tensor := h } = .ok F ∧
      ∀ i j, F.get? i j = (E.get? j i).map conj :=
  ⟨_, _, Arena.applied_of_get hget, Arena.applied_of_get hbra,
    get?_applied_braTensor hconj op t⟩

/-- A unitary operator of the arena itself names its tensor as before. -/
theorem braSide_of_inPlace (hconj : Function.Involutive (conj : α → α)) (staging : Staging)
    (hget : (s.arena k).get op.tensor = .ok t) (hplace : op.inPlace (s.arena l) = true) :
    ∃ s', BraSide s k l staging op { op with adjoint := !op.adjoint } staging s' ∧
      (s'.arena l).get op.tensor = .ok (op.braTensor t) := by
  obtain rfl : l = k := number_eq_of_inPlace hplace hget
  have hput (i : Nat) : (s.put l (s.arena l)).arena i = s.arena i := by
    rw [Store.arena_put s (s.number_arena l)]
    split
    · rename_i hi
      rw [hi]
    · rfl
  have hget' : ((s.put l (s.arena l)).arena l).get op.tensor = .ok (op.braTensor t) := by
    rw [hput, braTensor_of_inPlace hplace, hget]
  refine ⟨_, ⟨⟨_, toBra_of_inPlace hplace, rfl⟩, rfl, rfl, rfl, rfl,
    exists_applied hconj hget hget', fun i h u hu => ?_, fun i _ => hput i, ?_⟩, hget'⟩
  · rwa [hput]
  · have hstay : ¬ (op.kind = .nonUnitary ∨ (s.arena l).owns op.tensor = false) := by
      rw [← inPlace_eq_false_iff, hplace]
      decide
    rw [if_neg hstay]
    exact ⟨rfl, rfl, hput l⟩

/-- Every other operator names a tensor that is staged for it. -/
theorem braSide_of_copied (hconj : Function.Involutive (conj : α → α)) (staging : Staging)
    (hget : (s.arena k).get op.tensor = .ok t) (hshape : t.hasGateShape = true)
    (hplace : op.inPlace (s.arena l) = false) :
    ∃ h staging' s',
      BraSide s k l staging op { op with adjoint := !op.adjoint, tensor := h } staging' s' ∧
      (s'.arena l).get h = .ok (op.braTensor t) := by
  obtain ⟨h, staging', b, hstage⟩ := staging.stage_of_shape (s.arena l)
    ((hasGateShape_braTensor op t).trans hshape)
  obtain ⟨hallocate, rfl⟩ := Staging.stage_eq_ok hstage
  have hnumber : b.number = l := Arena.number_allocate hallocate
  have hsame : (s.put l b).arena l = b := Store.arena_put_same s l b hnumber
  have hget' : ((s.put l b).arena l).get h = .ok (op.braTensor t) := by
    rw [hsame, Staging.get_stage hstage, if_pos rfl]
  have hmade := toBra_of_stage hplace hget hstage
  refine ⟨h, _, _, ⟨⟨b, hmade, rfl⟩, rfl, rfl, rfl, rfl, exists_applied hconj hget hget',
    fun i g u hu => ?_, fun i hi => Store.arena_put_other s b hi, ?_⟩, hget'⟩
  · rw [Store.arena_put s hnumber]
    split
    · rename_i hi
      rw [hi] at hu
      exact Staging.get_stage_of_get hstage hu
    · exact hu
  · rw [if_pos (inPlace_eq_false_iff.1 hplace)]

theorem exists_braSide (hconj : Function.Involutive (conj : α → α)) (op : Operator) (l : Nat)
    (staging : Staging) (hget : (s.arena k).get op.tensor = .ok t)
    (hshape : t.hasGateShape = true) :
    ∃ h staging' s',
      BraSide s k l staging op { op with adjoint := !op.adjoint, tensor := h } staging' s' ∧
      (s'.arena l).get h = .ok (op.braTensor t) := by
  cases hplace : op.inPlace (s.arena l) with
  | true =>
    obtain ⟨s', hbra, hget'⟩ := braSide_of_inPlace hconj staging hget hplace
    exact ⟨op.tensor, staging, s', hbra, hget'⟩
  | false => exact braSide_of_copied hconj staging hget hshape hplace

end Operator

/-- An operator that a network has accepted, and whose tensor is still there, can be taken to the
bra side in every arena and over every staging. Its matrix becomes the conjugate transpose; taking
the result to the bra side again, over any staging of any arena, gives back the first matrix. -/
theorem Network.accepted_braSide_adjoint [Conj α] (hconj : Function.Involutive (conj : α → α))
    {net net' : Network} {s₀ s : Store α} {op : Operator} {position : Nat}
    (hpush : net.push s₀ op = .ok (position, net'))
    (hlive : (s.arena net.arena).get op.tensor = (s₀.arena net.arena).get op.tensor)
    (l : Nat) (staging : Staging) :
    ∃ bra staging' s', op.BraSide s net.arena l staging bra staging' s' ∧
      ∀ m staging₂, ∃ again staging₃ s'', bra.BraSide s' l m staging₂ again staging₃ s'' ∧
        (s''.arena m).applied again = (s.arena net.arena).applied op := by
  obtain ⟨hfits, -⟩ := push_eq_ok hpush
  obtain ⟨t, hget₀, hrows, hcols⟩ := hfits.stored
  have hget : (s.arena net.arena).get op.tensor = .ok t := hlive.trans hget₀
  have hshape := Tensor.hasGateShape_of_eq hrows hcols
  obtain ⟨h, staging', s', hbra, hbraGet⟩ := op.exists_braSide hconj l staging hget hshape
  refine ⟨_, staging', s', hbra, fun m staging₂ => ?_⟩
  -- The bra side of the bra side has the tensor of the beginning.
  have hback : op.braTensor (op.braTensor t) = t := op.braTensor_braTensor t
  obtain ⟨i, staging₃, s'', hagain, hagainGet⟩ := Operator.exists_braSide hconj
    { op with adjoint := !op.adjoint, tensor := h } m staging₂ hbraGet
    ((op.hasGateShape_braTensor t).trans hshape)
  refine ⟨_, staging₃, s'', hagain, ?_⟩
  rw [Arena.applied_of_get hget, Arena.applied_of_get hagainGet]
  refine congrArg Except.ok ?_
  show ({ op with adjoint := !!op.adjoint } : Operator).applied (op.braTensor (op.braTensor t)) =
    op.applied t
  rw [hback, Bool.not_not]

/-- The raising operator of the second arena, an adjoint that is not unitary, on the bra side in
the first arena and back. -/
theorem Network.accepted_braSide_raising :
    let s : Store Amplitude := .sample ⟨0, 1⟩
    let op : Operator := ⟨[2], [], ⟨1, 0, 0⟩, .nonUnitary, true⟩
    Function.Involutive (conj : Amplitude → Amplitude) ∧
      (∃ net, (Network.empty 1 3).push s op = .ok (0, net)) ∧
      ∃ bra staging s' F, op.BraSide s 1 0 .empty bra staging s' ∧
        staging.handles = [bra.tensor] ∧
        (s'.arena 0).applied bra = .ok F ∧ F.get? 0 1 = some ⟨0, 1⟩ ∧
        ∃ again staging₂ s'', bra.BraSide s' 0 1 .empty again staging₂ s'' ∧
          (s''.arena 1).applied again = (s.arena 1).applied op := by
  intro s op
  have hnet : Network.raising.Fits (s.arena 1) := (raising_built _).fits
  have hfits : op.Fits (s.arena 1) 3 := hnet op List.mem_cons_self
  have hpush : (Network.empty 1 3).push s op = .ok (0, ⟨1, 3, [op], 1⟩) := push_of_fits hfits
  obtain ⟨bra, staging, s', hbra, hagain⟩ :=
    accepted_braSide_adjoint Amplitude.conj_involutive hpush rfl 0 .empty
  obtain ⟨E, F, hE, hF, hentries⟩ := hbra.applied
  have happlied : (s.arena 1).applied op = .ok ((Tensor.raising ⟨0, 1⟩).map conj) :=
    Arena.applied_of_get (Store.get_sample_raising _)
  refine ⟨Amplitude.conj_involutive, ⟨_, hpush⟩, bra, staging, s', F, hbra, ?_, hF, ?_,
    hagain 1 .empty⟩
  · exact hbra.staged
  · obtain rfl : (Tensor.raising ⟨0, 1⟩).map conj = E := Except.ok.inj (happlied.symm.trans hE)
    have hentry : (Tensor.raising (⟨0, 1⟩ : Amplitude)).get? 1 0 = some ⟨0, 1⟩ := rfl
    rw [hentries, Tensor.get?_map, hentry]
    exact congrArg some (Amplitude.conj_involutive _)

end GateNetwork
