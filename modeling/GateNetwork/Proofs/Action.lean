import GateNetwork.Operator
import GateNetwork.Proofs.Network

/-!
# Actions on vectors of the right size

An action that fits a register finds every entry and every amplitude that it reads, so on a vector
of the register it has a result: the same gather, written with total reads. Nothing is assumed of
the operations on scalars.
-/

namespace GateNetwork

variable {α : Type}

/-! ## Loops that never stop early -/

theorem foldlM_eq_some_foldl {β γ : Type} {f : γ → β → Option γ} {g : γ → β → γ} {l : List β}
    (h : ∀ c, ∀ b ∈ l, f c b = some (g c b)) (c : γ) : l.foldlM f c = some (l.foldl g c) := by
  induction l generalizing c with
  | nil => rfl
  | cons b l ih =>
    rw [List.foldlM_cons, h c b List.mem_cons_self]
    exact ih (fun d e he => h d e (List.mem_cons_of_mem b he)) (g c b)

theorem mapM_eq_some_map {β γ : Type} {f : β → Option γ} {g : β → γ} {l : List β}
    (h : ∀ b ∈ l, f b = some (g b)) : l.mapM f = some (l.map g) := by
  induction l with
  | nil => rfl
  | cons b l ih =>
    rw [List.mapM_cons, h b List.mem_cons_self, ih fun c hc => h c (List.mem_cons_of_mem b hc)]
    rfl

theorem length_of_mapM_eq_some {β γ : Type} {f : β → Option γ} {l : List β} {r : List γ}
    (h : l.mapM f = some r) : r.length = l.length := by
  induction l generalizing r with
  | nil =>
    cases h
    rfl
  | cons b l ih =>
    rw [List.mapM_cons] at h
    obtain ⟨x, -, hrest⟩ := Option.bind_eq_some_iff.1 h
    obtain ⟨xs, hxs, hr⟩ := Option.bind_eq_some_iff.1 hrest
    cases hr
    rw [List.length_cons, List.length_cons, ih hxs]

theorem mapM_range_eq_some {β : Type} {n : Nat} {f : Nat → Option β} {g : Nat → β}
    (h : ∀ i, i < n → f i = some (g i)) :
    (Array.range n).mapM f = some (Array.ofFn fun i : Fin n => g i) := by
  have hlist : (List.range n).mapM f = some ((List.range n).map g) :=
    mapM_eq_some_map fun i hi => h i (List.mem_range.1 hi)
  rw [Array.mapM_eq_mapM_toList, Array.toList_range, hlist]
  refine congrArg some (Array.ext (by simp) fun i hi _ => ?_)
  simp

/-! ## Entries -/

/-- The entry in row `i` and column `j`, zero outside the table. -/
def Tensor.entryD [Zero α] (t : Tensor α) (i j : Nat) : α := (t.get? i j).getD 0

theorem Tensor.get?_eq_some [Zero α] (t : Tensor α) {i j : Nat} (hi : i < t.rows)
    (hj : j < t.cols) : t.get? i j = some (t.entryD i j) := by
  simp [entryD, get?, hi, hj]

theorem Tensor.entryD_eq [Zero α] (t : Tensor α) {i j : Nat} (hi : i < t.rows) (hj : j < t.cols) :
    t.entryD i j = t.entry ⟨i, hi⟩ ⟨j, hj⟩ := by
  simp [entryD, get?, hi, hj]

theorem Tensor.get?_transpose (t : Tensor α) (i j : Nat) : t.transpose.get? i j = t.get? j i := by
  by_cases h : j < t.rows ∧ i < t.cols
  · have hsome : t.transpose.get? i j = some (t.transpose.entry ⟨i, h.2⟩ ⟨j, h.1⟩) := dif_pos h.symm
    rw [hsome, get?, dif_pos h]
    exact congrArg some (entry_ofFn _ _ _)
  · have hnone : t.transpose.get? i j = none := dif_neg fun h' => h (And.symm h')
    rw [hnone, get?, dif_neg h]

theorem Tensor.get?_map {β : Type} (f : α → β) (t : Tensor α) (i j : Nat) :
    (t.map f).get? i j = (t.get? i j).map f := by
  by_cases h : i < t.rows ∧ j < t.cols
  · have hsome : (t.map f).get? i j = some ((t.map f).entry ⟨i, h.1⟩ ⟨j, h.2⟩) := dif_pos h
    rw [hsome, get?, dif_pos h]
    exact congrArg some (Array.getElem_map f _)
  · have hnone : (t.map f).get? i j = none := dif_neg h
    rw [hnone, get?, dif_neg h]
    rfl

theorem Tensor.entryD_transpose [Zero α] (t : Tensor α) (i j : Nat) :
    t.transpose.entryD i j = t.entryD j i := by
  rw [entryD, entryD, get?_transpose]

theorem Tensor.entryD_map [Zero α] (f : α → α) (t : Tensor α) {i j : Nat} (hi : i < t.rows)
    (hj : j < t.cols) : (t.map f).entryD i j = f (t.entryD i j) := by
  rw [entryD, get?_map, t.get?_eq_some hi hj]
  rfl

theorem getElem?_eq_some_getD [Zero α] {v : Array α} {i : Nat} (hi : i < v.size) :
    v[i]? = some (v.getD i 0) := by
  simp [hi]

namespace Action

/-- An action on a register of `n` qubits. -/
structure Fits (x : Action α) (n : Nat) : Prop where
  lt : ∀ q ∈ x.targets ++ x.controls, q < n
  nodup : (x.targets ++ x.controls).Nodup
  rows : x.matrix.rows = 2 ^ x.targets.length
  cols : x.matrix.cols = 2 ^ x.targets.length

variable {x : Action α} {n : Nat}

theorem Fits.target_lt (hx : x.Fits n) : ∀ q ∈ x.targets, q < n :=
  fun q hq => hx.lt q (List.mem_append_left _ hq)

theorem Fits.targets_nodup (hx : x.Fits n) : x.targets.Nodup :=
  (List.nodup_append.1 hx.nodup).1

theorem Fits.controls_nodup (hx : x.Fits n) : x.controls.Nodup :=
  (List.nodup_append.1 hx.nodup).2.1

theorem Fits.apart (hx : x.Fits n) : ∀ c ∈ x.controls, c ∉ x.targets :=
  fun c hc hmem => (List.nodup_append.1 hx.nodup).2.2 c hmem c hc rfl

theorem Fits.length_targets_le (hx : x.Fits n) : x.targets.length ≤ n := by
  have hsub : x.targets ⊆ List.range n := fun q hq => List.mem_range.2 (hx.target_lt q hq)
  have hle := (hx.targets_nodup.subperm hsub).length_le
  rwa [List.length_range] at hle

theorem Fits.mono {m : Nat} (hx : x.Fits n) (hnm : n ≤ m) : x.Fits m :=
  ⟨fun q hq => (hx.lt q hq).trans_le hnm, hx.nodup, hx.rows, hx.cols⟩

variable [Zero α] [Add α] [Mul α]

/-- The amplitude at index `i` after the action. -/
def amplitudeAt (x : Action α) (v : Array α) (i : Nat) : α :=
  if allSet x.controls i then
    (List.range (2 ^ x.targets.length)).foldl
      (fun total k => total + x.matrix.entryD (collect x.targets i) k *
        v.getD (clear x.targets i ||| spread x.targets k) 0) 0
  else v.getD i 0

def apply (x : Action α) (v : Array α) : Array α :=
  Array.ofFn fun i : Fin v.size => x.amplitudeAt v i

@[simp] theorem size_apply (x : Action α) (v : Array α) : (x.apply v).size = v.size :=
  Array.size_ofFn

theorem zipIdx_offsets (targets : List Nat) (m : Nat) :
    ((List.range m).map (spread targets)).zipIdx =
      (List.range m).map fun k => (spread targets k, k) := by
  refine List.ext_getElem (by simp) fun k hk _ => ?_
  simp

/-- Each read of the gather finds something. -/
theorem amplitudeAt?_eq (hx : x.Fits n) {v : Array α} (hv : v.size = 2 ^ n) {i : Nat}
    (hi : i < 2 ^ n) :
    x.amplitudeAt? ((List.range (2 ^ x.targets.length)).map (spread x.targets)) v i =
      some (x.amplitudeAt v i) := by
  unfold amplitudeAt? amplitudeAt
  split
  · unfold rowProduct?
    rw [zipIdx_offsets, List.foldlM_map]
    refine foldlM_eq_some_foldl (fun total k hk => ?_) 0
    have hrow : collect x.targets i < x.matrix.rows := hx.rows ▸ collect_lt x.targets i
    have hcol : k < x.matrix.cols := hx.cols ▸ List.mem_range.1 hk
    have hread : clear x.targets i ||| spread x.targets k < v.size :=
      hv ▸ clear_or_spread_lt hx.target_lt hi k
    show (x.matrix.get? (collect x.targets i) k).bind
      (fun entry => v[clear x.targets i ||| spread x.targets k]?.bind
        fun amplitude => some (total + entry * amplitude)) = _
    rw [Tensor.get?_eq_some _ hrow hcol, getElem?_eq_some_getD hread]
    rfl
  · exact getElem?_eq_some_getD (hv ▸ hi)

/-- An action that fits has a result on every vector of the register. -/
theorem size_of_on? {v w : Array α} (h : x.on? v = some w) : w.size = v.size := by
  rw [on?, Array.mapM_eq_mapM_toList] at h
  obtain ⟨l, hl, rfl⟩ := Option.map_eq_some_iff.1 h
  simpa using length_of_mapM_eq_some hl

theorem on?_eq (hx : x.Fits n) {v : Array α} (hv : v.size = 2 ^ n) :
    x.on? v = some (x.apply v) := by
  unfold on? apply
  refine mapM_range_eq_some fun i hi => ?_
  rw [twoPow_eq]
  exact amplitudeAt?_eq hx hv (hv ▸ hi)

/-- The vector after several actions, the first one first. -/
def applyAll (xs : List (Action α)) (v : Array α) : Array α := xs.foldl (fun v x => x.apply v) v

@[simp] theorem applyAll_nil (v : Array α) : applyAll [] v = v := rfl

@[simp] theorem applyAll_cons (x : Action α) (xs : List (Action α)) (v : Array α) :
    applyAll (x :: xs) v = applyAll xs (x.apply v) := rfl

theorem applyAll_append (xs ys : List (Action α)) (v : Array α) :
    applyAll (xs ++ ys) v = applyAll ys (applyAll xs v) := List.foldl_append

@[simp] theorem size_applyAll (xs : List (Action α)) (v : Array α) :
    (applyAll xs v).size = v.size := by
  induction xs generalizing v with
  | nil => rfl
  | cons x xs ih => rw [applyAll_cons, ih, size_apply]

end Action

/-! ## Operators over an arena -/

/-- The tensor that a handle names in the arena, and an empty one where it names none. -/
def Arena.tensorD (a : Arena α) (h : Handle) : Tensor α :=
  (a.get h).toOption.getD ⟨0, 0, #[], rfl⟩

theorem Arena.tensorD_of_get {a : Arena α} {h : Handle} {t : Tensor α} (hget : a.get h = .ok t) :
    a.tensorD h = t := by
  rw [tensorD, hget]
  rfl

theorem Arena.tensorD_congr {a b : Arena α} {h : Handle} (hget : b.get h = a.get h) :
    b.tensorD h = a.tensorD h := by
  rw [tensorD, tensorD, hget]

/-- What an operator does whose tensor lies in the arena. -/
def Arena.action [Conj α] (a : Arena α) (op : Operator) : Action α :=
  op.action (a.tensorD op.tensor)

theorem Arena.map_action_congr [Conj α] {a b : Arena α} {ops : List Operator}
    (hget : ∀ op ∈ ops, b.get op.tensor = a.get op.tensor) : ops.map b.action = ops.map a.action :=
  List.map_congr_left fun op hop => congrArg op.action (tensorD_congr (hget op hop))

@[simp] theorem Tensor.rows_transpose (t : Tensor α) : t.transpose.rows = t.cols := rfl

@[simp] theorem Tensor.cols_transpose (t : Tensor α) : t.transpose.cols = t.rows := rfl

/-- A square tensor is applied as a matrix of the same side. -/
theorem Operator.shape_applied [Conj α] (op : Operator) {t : Tensor α} {side : Nat}
    (hrows : t.rows = side) (hcols : t.cols = side) :
    (op.applied t).rows = side ∧ (op.applied t).cols = side := by
  unfold applied
  split
  · exact ⟨hrows, hcols⟩
  · exact ⟨hcols, hrows⟩
  · exact ⟨hrows, hcols⟩

theorem Operator.Fits.action [Conj α] {op : Operator} {a : Arena α} {n : Nat} (h : op.Fits a n) :
    (a.action op).Fits n := by
  obtain ⟨t, hget, hrows, hcols⟩ := h.stored
  rw [Arena.action, Arena.tensorD_of_get hget]
  obtain ⟨hrows, hcols⟩ := op.shape_applied hrows hcols
  exact ⟨h.lt, h.nodup, hrows, hcols⟩

/-- An operator that fits has a result on every vector of the register. -/
theorem Operator.Fits.on?_eq [Zero α] [Add α] [Mul α] [Conj α] {op : Operator} {a : Arena α}
    {n : Nat} (h : op.Fits a n) {t : Tensor α} (hget : a.get op.tensor = .ok t) {v : Array α}
    (hv : v.size = 2 ^ n) : (op.action t).on? v = some ((a.action op).apply v) := by
  rw [← Arena.tensorD_of_get hget]
  exact Action.on?_eq h.action hv

theorem Arena.actions_fit [Conj α] {a : Arena α} {n : Nat} {ops : List Operator}
    (h : ∀ op ∈ ops, op.Fits a n) : ∀ x ∈ ops.map a.action, x.Fits n := by
  intro x hx
  obtain ⟨op, hop, rfl⟩ := List.mem_map.1 hx
  exact (h op hop).action

end GateNetwork
