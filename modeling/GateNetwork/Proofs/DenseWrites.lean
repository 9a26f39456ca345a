import GateNetwork.Proofs.DenseErrors

/-!
# What a contraction writes

Two buffers of a register lie side by side in a row of cells, and a contraction writes them by
turns: the all-zero state to the first, and the vector after each operator to the one that the
operator did not read. As a list of writes this describes the cells afterwards whatever they held.
-/

namespace GateNetwork

variable {α : Type}

/-! ## Writes -/

/-- The memory `m` after writes, each of a value to a place. -/
def written (m : Nat → α) (ws : List (Nat × α)) : Nat → α :=
  ws.foldl (fun m w => Function.update m w.1 w.2) m

section

variable {m k : Nat → α} {ws vs : List (Nat × α)} {i : Nat} {v : α}

theorem written_cons (w : Nat × α) : written m (w :: ws) = written (Function.update m w.1 w.2) ws :=
  rfl

theorem written_append : written m (ws ++ vs) = written (written m ws) vs := List.foldl_append

theorem written_of_forall_ne (h : ∀ w ∈ ws, w.1 ≠ i) : written m ws i = m i := by
  induction ws generalizing m with
  | nil => rfl
  | cons w ws ih =>
    obtain ⟨hw, hws⟩ := List.forall_mem_cons.1 h
    rw [written_cons, ih hws, Function.update_of_ne hw.symm]

theorem written_congr (h : m i = k i) : written m ws i = written k ws i := by
  induction ws generalizing m k with
  | nil => exact h
  | cons w ws ih =>
    rw [written_cons, written_cons]
    refine ih ?_
    by_cases hw : i = w.1
    · rw [hw, Function.update_self, Function.update_self]
    · rw [Function.update_of_ne hw, Function.update_of_ne hw, h]

/-- A place holds what was written to it last. -/
theorem written_last {before after : List (Nat × α)} (h : ∀ w ∈ after, w.1 ≠ i) :
    written m (before ++ (i, v) :: after) i = v := by
  rw [written_append, written_cons, written_of_forall_ne h, Function.update_self]

end

/-! ## Rows of cells -/

section

variable [Zero α]

/-- What the cells of an array hold, zero beyond its end. -/
def contents (v : Array α) (i : Nat) : α := v.getD i 0

theorem getElem?_eq_contents {v : Array α} {i : Nat} (hi : i < v.size) :
    v[i]? = some (contents v i) := by
  simp [contents, hi]

theorem contents_of_le {v : Array α} {i : Nat} (hi : v.size ≤ i) : contents v i = 0 := by
  simp [contents, Nat.not_lt.2 hi]

theorem contents_append (u v : Array α) (i : Nat) :
    contents (u ++ v) i = if i < u.size then contents u i else contents v (i - u.size) := by
  simp only [contents, Array.getD_eq_getD_getElem?, Array.getElem?_append]
  split <;> rfl

theorem contents_overwrite {base values : Array α} (hsize : values.size ≤ base.size) (i : Nat) :
    contents (overwrite base values) i =
      if i < values.size then contents values i else contents base i := by
  simp only [contents, Array.getD_eq_getD_getElem?, getElem?_overwrite]
  by_cases hv : i < values.size
  · rw [if_pos (hv.trans_le hsize), if_pos hv, if_pos hv]
  · by_cases hb : i < base.size
    · rw [if_pos hb, if_neg hv, if_neg hv]
    · rw [if_neg hb, if_neg hv, Array.getElem?_eq_none (Nat.not_lt.1 hb)]

/-- Writes within an array, made one by one. -/
theorem contents_setAll (v : Array α) (ws : List (Nat × α)) :
    contents (ws.foldl (fun c w => c.setIfInBounds w.1 w.2) v) =
      written (contents v) (ws.filter fun w => w.1 < v.size) := by
  induction ws generalizing v with
  | nil => rfl
  | cons w ws ih =>
    rw [List.foldl_cons, ih, Array.size_setIfInBounds, List.filter_cons]
    by_cases hw : w.1 < v.size
    · rw [if_pos (decide_eq_true hw), written_cons]
      refine congrArg (written · _) (funext fun i => ?_)
      simp only [contents, Array.getD_eq_getD_getElem?, Array.getElem?_setIfInBounds]
      by_cases hi : w.1 = i
      · rw [← hi, if_pos rfl, if_pos hw, Function.update_self]
        rfl
      · rw [if_neg hi, Function.update_of_ne (Ne.symm hi), contents, Array.getD_eq_getD_getElem?]
    · rw [if_neg (by simpa using hw), Array.setIfInBounds_eq_of_size_le (Nat.not_lt.1 hw)]

omit [Zero α] in
theorem size_setAll (v : Array α) (ws : List (Nat × α)) :
    (ws.foldl (fun c w => c.setIfInBounds w.1 w.2) v).size = v.size := by
  induction ws generalizing v with
  | nil => rfl
  | cons w ws ih => rw [List.foldl_cons, ih, Array.size_setIfInBounds]

/-- The writes of an array to the places from `start` on. -/
def laid (start : Nat) (v : Array α) : List (Nat × α) := (v.toList.zipIdx start).map Prod.swap

omit [Zero α] in
theorem mem_laid {start : Nat} {v : Array α} {w : Nat × α} (hw : w ∈ laid start v) :
    start ≤ w.1 ∧ w.1 < start + v.size := by
  obtain ⟨x, hx, rfl⟩ := List.mem_map.1 hw
  exact ⟨List.le_snd_of_mem_zipIdx hx, List.snd_lt_add_of_mem_zipIdx hx⟩

theorem written_laid (m : Nat → α) (start : Nat) (v : Array α) (i : Nat) :
    written m (laid start v) i =
      if start ≤ i ∧ i < start + v.size then contents v (i - start) else m i := by
  have hlist : ∀ l : List α, written m ((l.zipIdx start).map Prod.swap) i =
      if start ≤ i ∧ i < start + l.length then l.getD (i - start) 0 else m i := by
    intro l
    induction l generalizing m start with
    | nil => simp [written]
    | cons x l ih =>
      rw [List.zipIdx_cons, List.map_cons, written_cons, ih, List.length_cons]
      by_cases hi : i = start
      · subst hi
        simp
      · have hiff : start + 1 ≤ i ∧ i < start + 1 + l.length ↔
            start ≤ i ∧ i < start + (l.length + 1) := by omega
        refine if_ctx_congr hiff (fun hin => ?_) fun _ => Function.update_of_ne hi _ _
        have hnext : i - start = i - (start + 1) + 1 := by omega
        rw [hnext, List.getD_cons_succ]
  simpa [laid, contents] using hlist v.toList

/-- Writing over the second part of a row. -/
theorem contents_append_right {u v w : Array α} (hsize : w.size = v.size) :
    contents (u ++ w) = written (contents (u ++ v)) (laid u.size w) := by
  funext i
  rw [written_laid, contents_append, contents_append]
  by_cases hi : i < u.size
  · rw [if_pos hi, if_neg (fun h => Nat.not_lt.2 h.1 hi), if_pos hi]
  · rw [if_neg hi, if_neg hi]
    split
    · rfl
    · rename_i hout
      rw [contents_of_le (v := w) (by omega), contents_of_le (v := v) (by omega)]

/-- Writing over the first part of a row. -/
theorem contents_append_left {u v w : Array α} (hsize : w.size = v.size) :
    contents (w ++ u) = written (contents (v ++ u)) (laid 0 w) := by
  funext i
  rw [written_laid, contents_append, contents_append, Nat.sub_zero, Nat.zero_add, hsize]
  by_cases hi : i < v.size
  · rw [if_pos hi, if_pos ⟨Nat.zero_le i, hi⟩]
  · rw [if_neg hi, if_neg (fun h => hi h.2), if_neg hi]

end

/-! ## What a contraction writes -/

/-- How many operators come before the first one whose tensor is gone. -/
def Arena.leading (a : Arena α) (ops : List Operator) : Nat :=
  (ops.takeWhile fun op => (a.get op.tensor).isOk).length

/-- The vectors of the first operators of a network: of none, of one, and so on, as far as their
tensors are stored. -/
def Network.stages [Zero α] [One α] [Add α] [Mul α] [Conj α] (net : Network) (a : Arena α) :
    List (Array α) :=
  (List.range (a.leading net.ops + 1)).map fun k =>
    Network.vector { net with ops := net.ops.take k } a

namespace Dense

section

variable [Zero α] [Add α] [Mul α] [Conj α] {a : Arena α} {ops : List Operator} {v : Array α}

/-- The vectors that operators write one after the other, up to the first one whose tensor is not
stored. -/
def vectors (a : Arena α) : List Operator → Array α → List (Array α)
  | [], _ => []
  | op :: ops, v =>
    match a.get op.tensor with
    | .error _ => []
    | .ok t =>
      match (op.action t).on? v with
      | none => []
      | some w => w :: vectors a ops w

theorem size_of_mem_vectors {w : Array α} (hw : w ∈ vectors a ops v) : w.size = v.size := by
  induction ops generalizing v with
  | nil => cases hw
  | cons op ops ih =>
    rw [vectors] at hw
    split at hw
    · cases hw
    · split at hw
      · cases hw
      · rename_i u hon
        have hu := Action.size_of_on? hon
        rcases List.mem_cons.1 hw with rfl | hw
        · exact hu
        · exact (ih hw).trans hu

/-- These are the vectors after one, two and more operators, up to the first one whose tensor is
gone. -/
theorem vectors_eq {n : Nat} (h : ∀ op ∈ ops, op.FitsOrDead a n) (hv : v.size = 2 ^ n) :
    vectors a ops v = (List.range (a.leading ops)).map
      fun k => Action.applyAll ((ops.take (k + 1)).map a.action) v := by
  induction ops generalizing v with
  | nil => rfl
  | cons op ops ih =>
    obtain ⟨hop, hops⟩ := List.forall_mem_cons.1 h
    rw [vectors]
    rcases hop with hfits | ⟨e, he⟩
    · obtain ⟨t, hget, -⟩ := hfits.stored
      have hleading : a.leading (op :: ops) = a.leading ops + 1 := by
        simp [Arena.leading, hget, Except.isOk, Except.toBool]
      -- The other operators start from the vector after this one.
      have hrest := ih hops ((Action.size_apply (a.action op) v).trans hv)
      rw [hleading, List.range_succ_eq_map]
      simp only [hget, hfits.on?_eq hget hv, hrest, List.map_cons, List.map_map]
      rfl
    · have hleading : a.leading (op :: ops) = 0 := by
        simp [Arena.leading, he, Except.isOk, Except.toBool]
      rw [hleading]
      simp only [he]
      rfl

/-- A run writes these vectors and nothing else. -/
theorem run_snd (b : Buffers α) :
    (b.run a ops).2 = (vectors a ops b.current).foldl Buffers.advance b := by
  induction ops generalizing b with
  | nil => rfl
  | cons op ops ih =>
    rw [Buffers.run, vectors]
    cases a.get op.tensor with
    | error e => rfl
    | ok t =>
      cases hon : (op.action t).on? b.current with
      | none =>
        simp only [hon]
        rfl
      | some w =>
        simp only [hon, List.foldl_cons]
        exact ih (b.advance w)

end

/-- The writes of vectors to the two halves by turns, the first half beginning unless `second`. -/
def halves (dim : Nat) : Bool → List (Array α) → List (Nat × α)
  | _, [] => []
  | second, v :: vs => laid (if second then dim else 0) v ++ halves dim (!second) vs

theorem lt_of_mem_halves {dim : Nat} {vs : List (Array α)} (hvs : ∀ v ∈ vs, v.size = dim)
    {second : Bool} {w : Nat × α} (hw : w ∈ halves dim second vs) : w.1 < dim + dim := by
  induction vs generalizing second with
  | nil => cases hw
  | cons v vs ih =>
    obtain ⟨hv, hrest⟩ := List.forall_mem_cons.1 hvs
    rcases List.mem_append.1 hw with hw | hw
    · have hlt := (mem_laid hw).2
      cases second
      · simp only [Bool.false_eq_true, if_false] at hlt
        omega
      · simp only [if_true] at hlt
        omega
    · exact ih hrest hw

/-- Both buffers have a place for each amplitude. -/
structure Buffers.Sized (b : Buffers α) (dim : Nat) : Prop where
  current : b.current.size = dim
  next : b.next.size = dim

section

variable [Zero α] {dim : Nat} {b : Buffers α}

omit [Zero α] in
theorem Buffers.Sized.cells (h : b.Sized dim) : b.cells.size = dim + dim := by
  rw [Buffers.cells]
  split <;> rw [Array.size_append, h.current, h.next]

omit [Zero α] in
theorem Buffers.Sized.advance (h : b.Sized dim) {v : Array α} (hv : v.size = dim) :
    (b.advance v).Sized dim := ⟨hv, h.current⟩

theorem contents_advance (h : b.Sized dim) {v : Array α} (hv : v.size = dim) :
    contents (b.advance v).cells =
      written (contents b.cells) (laid (if !b.swapped then dim else 0) v) := by
  have hsize : v.size = b.next.size := hv.trans h.next.symm
  cases hs : b.swapped with
  | false =>
    have hsecond := contents_append_right (u := b.current) hsize
    rw [h.current] at hsecond
    simpa [Buffers.cells, Buffers.advance, hs] using hsecond
  | true =>
    have hfirst := contents_append_left (u := b.current) hsize
    simpa [Buffers.cells, Buffers.advance, hs] using hfirst

omit [Zero α] in
theorem Buffers.Sized.foldl_advance {vs : List (Array α)} (hvs : ∀ v ∈ vs, v.size = dim)
    (h : b.Sized dim) : (vs.foldl Buffers.advance b).Sized dim := by
  induction vs generalizing b with
  | nil => exact h
  | cons v vs ih =>
    obtain ⟨hv, hrest⟩ := List.forall_mem_cons.1 hvs
    exact ih hrest (h.advance hv)

theorem contents_foldl_advance {vs : List (Array α)} (hvs : ∀ v ∈ vs, v.size = dim)
    (h : b.Sized dim) : contents (vs.foldl Buffers.advance b).cells =
      written (contents b.cells) (halves dim (!b.swapped) vs) := by
  induction vs generalizing b with
  | nil => rfl
  | cons v vs ih =>
    obtain ⟨hv, hrest⟩ := List.forall_mem_cons.1 hvs
    rw [List.foldl_cons, ih hrest (h.advance hv), halves, written_append, contents_advance h hv]
    rfl

variable [One α]

theorem Buffers.Sized.ofCells {cells : Array α} (hcells : cells.size = dim + dim) :
    (Buffers.ofCells cells).Sized dim := by
  have hdim : cells.size / 2 = dim := by omega
  rw [Buffers.ofCells, hdim]
  exact ⟨Array.size_ofFn, by simp [hcells]⟩

theorem contents_ofCells {cells : Array α} (hcells : cells.size = dim + dim) :
    contents (Buffers.ofCells cells).cells =
      written (contents cells) (laid 0 (Buffers.zeroState dim)) := by
  have hdim : cells.size / 2 = dim := by omega
  have hzero : (Buffers.zeroState dim : Array α).size = (cells.extract 0 dim).size := by
    rw [Buffers.zeroState, Array.size_ofFn, Array.size_extract, hcells]
    omega
  have hsplit : cells = cells.extract 0 dim ++ cells.extract dim (dim + dim) := by
    rw [Array.extract_append_extract, Nat.min_eq_left (Nat.zero_le dim),
      Nat.max_eq_right (Nat.le_add_left dim dim), ← hcells, Array.extract_size]
  have hfirst := contents_append_left (u := cells.extract dim (dim + dim)) hzero
  rw [← hsplit] at hfirst
  rw [Buffers.ofCells, hdim]
  exact hfirst

variable [Add α] [Mul α] [Conj α]

/-- All that a contraction writes: the all-zero state, and then the vector after each operator. -/
def writes (a : Arena α) (net : Network) : List (Nat × α) :=
  let start := Buffers.zeroState (2 ^ net.qubits)
  halves (2 ^ net.qubits) false (start :: vectors a net.ops start)

theorem writes_eq {a : Arena α} {net : Network} (h : ∀ op ∈ net.ops, op.FitsOrDead a net.qubits) :
    writes a net = halves (2 ^ net.qubits) false (net.stages a) := by
  have hzero : (Buffers.zeroState (2 ^ net.qubits) : Array α).size = 2 ^ net.qubits :=
    Array.size_ofFn
  rw [writes, vectors_eq h hzero, Network.stages, List.range_succ_eq_map, List.map_cons,
    List.map_map]
  rfl

section

variable {a : Arena α} {net : Network} {cells : Array α}

theorem size_of_mem_written {v : Array α}
    (hv : v ∈ vectors a net.ops (Buffers.zeroState (2 ^ net.qubits))) : v.size = 2 ^ net.qubits :=
  (size_of_mem_vectors hv).trans Array.size_ofFn

theorem lt_of_mem_writes {w : Nat × α} (hw : w ∈ writes a net) :
    w.1 < 2 ^ net.qubits + 2 ^ net.qubits :=
  lt_of_mem_halves (List.forall_mem_cons.2 ⟨Array.size_ofFn, fun _ => size_of_mem_written⟩) hw

theorem run_ofCells (hcells : cells.size = 2 ^ net.qubits + 2 ^ net.qubits) :
    ((Buffers.ofCells cells).run a net.ops).2 =
      (vectors a net.ops (Buffers.zeroState (2 ^ net.qubits))).foldl Buffers.advance
        (Buffers.ofCells cells) := by
  have hdim : cells.size / 2 = 2 ^ net.qubits := by omega
  have hstart : (Buffers.ofCells cells).current = Buffers.zeroState (2 ^ net.qubits) := by
    rw [Buffers.ofCells, hdim]
  rw [run_snd, hstart]

theorem size_cells_run (hcells : cells.size = 2 ^ net.qubits + 2 ^ net.qubits) :
    ((Buffers.ofCells cells).run a net.ops).2.cells.size = cells.size := by
  have hsized : ((Buffers.ofCells cells).run a net.ops).2.Sized (2 ^ net.qubits) := by
    rw [run_ofCells hcells]
    exact (Buffers.Sized.ofCells hcells).foldl_advance fun _ => size_of_mem_written
  rw [hsized.cells, hcells]

theorem contents_run (hcells : cells.size = 2 ^ net.qubits + 2 ^ net.qubits) :
    contents ((Buffers.ofCells cells).run a net.ops).2.cells =
      written (contents cells) (writes a net) := by
  rw [run_ofCells hcells, contents_foldl_advance (fun _ => size_of_mem_written) (.ofCells hcells),
    contents_ofCells hcells, writes, halves, written_append]
  rfl

end

end

end Dense

end GateNetwork
