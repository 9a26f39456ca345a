import GateNetwork.Proofs.Alike

/-!
# Replacing a stretch of operators

The vector of a network is settled by the product of the matrices of its operators. Any operators
that fit can therefore take the place of a stretch of operators with the same product, wherever it
stands in the network. A network that is made anew with them answers like the one before.
-/

open Matrix

namespace GateNetwork

variable {α ρ σ : Type}

/-- The matrix of a stretch of operators, the first one applied first. -/
def Arena.product [Semiring α] [Conj α] (a : Arena α) (n : Nat) (ops : List Operator) :
    Matrix (Fin (2 ^ n)) (Fin (2 ^ n)) α :=
  (ops.map (a.matrix n)).reverse.prod

section

variable [Semiring α] [Conj α] {a : Arena α} {n : Nat}

@[simp] theorem Arena.product_nil : a.product n [] = 1 := rfl

@[simp] theorem Arena.product_cons (op : Operator) (ops : List Operator) :
    a.product n (op :: ops) = a.product n ops * a.matrix n op := by
  simp [product]

@[simp] theorem Arena.product_append (ops ops' : List Operator) :
    a.product n (ops ++ ops') = a.product n ops' * a.product n ops := by
  simp [product]

end

namespace Network

/-- A tensor with a side that is a power of two can be stored, and the operators of a network do
what they did before. -/
theorem Built.exists_stored [Conj α] {net : Network} {store : Store α} (h : net.Built store)
    {t : Tensor α} {m : Nat} (hrows : t.rows = 2 ^ m) (hcols : t.cols = 2 ^ m) : ∃ i store',
      store.allocate net.arena t = .ok (i, store') ∧ (store'.arena net.arena).get i = .ok t ∧
        net.Kept store store' ∧ ∀ op ∈ net.ops,
          (store'.arena net.arena).action op = (store.arena net.arena).action op := by
  obtain ⟨i, store', heq⟩ :=
    store.exists_allocate net.arena (Tensor.hasGateShape_of_eq hrows hcols)
  have hkept := h.fits.kept_allocate heq
  exact ⟨i, store', heq, Store.get_allocated heq, hkept,
    fun op hop => congrArg op.action (Arena.tensorD_congr (hkept op hop))⟩

variable [Semiring α] [StarRing α] {k l net : Network} {a : Arena α} {store : Store α}
  {before after : List Operator} (old new : List Operator)

/-- Stretches with the same product make the same vector inside the same operators. -/
theorem Fits.vector_replace (hk : k.Fits a) (hl : l.Fits a) (hqubits : k.qubits = l.qubits)
    (hkops : k.ops = before ++ (old ++ after)) (hlops : l.ops = before ++ (new ++ after))
    (hproduct : a.product k.qubits new = a.product k.qubits old) : l.vector a = k.vector a := by
  -- The products are matrices of one type only after the registers are the same.
  obtain ⟨_, n, _, _⟩ := k
  obtain ⟨_, _, _, _⟩ := l
  obtain rfl : n = _ := hqubits
  dsimp only at hkops hlops hproduct
  subst hkops hlops
  rw [hk.vector_eq, hl.vector_eq]
  show Array.ofFn (a.product n _ *ᵥ _) = Array.ofFn (a.product n _ *ᵥ _)
  rw [Arena.product_append, Arena.product_append, Arena.product_append, Arena.product_append,
    hproduct]

/-- The network is made anew with another stretch of operators that has the same product. -/
theorem Built.replace [Magnitude α ρ] [Zero ρ] [Add ρ] (h : net.Built store)
    (hops : net.ops = before ++ (old ++ after))
    (hnew : ∀ op ∈ new, op.Fits (store.arena net.arena) net.qubits)
    (hproduct : (store.arena net.arena).product net.qubits new =
      (store.arena net.arena).product net.qubits old) :
    let made := ofOps net.arena net.qubits (before ++ (new ++ after))
    pushAll store (.empty net.arena net.qubits) (before ++ (new ++ after)) = .ok made ∧
      made.vector (store.arena net.arena) = net.vector (store.arena net.arena) ∧
      net.AnswersAlike (ρ := ρ) σ made store := by
  intro made
  have hfits : made.Fits (store.arena net.arena) := by
    intro op hop
    rcases List.mem_append.1 hop with hbefore | hrest
    · exact h.fits op (by simp [hops, hbefore])
    · rcases List.mem_append.1 hrest with hmem | hafter
      · exact hnew op hmem
      · exact h.fits op (by simp [hops, hafter])
  have hvector := h.fits.vector_replace old new hfits rfl hops rfl hproduct
  have halike : net.Alike made store := ⟨h, built_ofOps hfits, rfl, hvector.symm⟩
  exact ⟨pushAll_empty hfits, hvector, halike.answersAlike⟩

end Network

end GateNetwork
