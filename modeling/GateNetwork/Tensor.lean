import GateNetwork.Scalar
import GateNetwork.Size

/-!
# Gate tensors

A gate tensor is a rectangular table of scalars: rows are output indices, columns input indices.
The table carries a proof that it holds as many entries as its shape says, so reading inside the
shape never fails.
-/

namespace GateNetwork

/-- A table of scalars, stored row by row. -/
@[ext]
structure Tensor (α : Type) where
  /-- The number of rows. -/
  rows : Nat
  /-- The number of columns. -/
  cols : Nat
  /-- The entries, row by row. -/
  entries : Array α
  /-- There is one entry for each row and column. -/
  size_eq : entries.size = rows * cols

namespace Tensor

variable {α β : Type}

/-- The place of row `i` and column `j` lies within the entries. -/
theorem place_lt (t : Tensor α) (i : Fin t.rows) (j : Fin t.cols) :
    i.val * t.cols + j.val < t.entries.size := by
  rw [t.size_eq]
  calc i.val * t.cols + j.val < i.val * t.cols + t.cols := Nat.add_lt_add_left j.isLt _
    _ = (i.val + 1) * t.cols := by rw [Nat.add_mul, Nat.one_mul]
    _ ≤ t.rows * t.cols := Nat.mul_le_mul_right _ i.isLt

/-- The entry in row `i` and column `j`. -/
def entry (t : Tensor α) (i : Fin t.rows) (j : Fin t.cols) : α :=
  have := t.place_lt i j
  t.entries[i.val * t.cols + j.val]

/-- The entry in row `i` and column `j`, if the table has one. -/
def get? (t : Tensor α) (i j : Nat) : Option α :=
  if h : i < t.rows ∧ j < t.cols then some (t.entry ⟨i, h.1⟩ ⟨j, h.2⟩) else none

/-- The column count is positive where there is a place at all. -/
theorem cols_pos {rows cols : Nat} (k : Fin (rows * cols)) : 0 < cols := by
  rcases Nat.eq_zero_or_pos cols with h | h
  · exact absurd k.isLt (by simp [h])
  · exact h

/-- The row of a place. -/
def rowOf {rows cols : Nat} (k : Fin (rows * cols)) : Fin rows :=
  ⟨k.val / cols, Nat.div_lt_of_lt_mul (Nat.mul_comm rows cols ▸ k.isLt)⟩

/-- The column of a place. -/
def colOf {rows cols : Nat} (k : Fin (rows * cols)) : Fin cols :=
  ⟨k.val % cols, Nat.mod_lt _ (cols_pos k)⟩

/-- The table whose entry in row `i` and column `j` is `f i j`. -/
def ofFn {rows cols : Nat} (f : Fin rows → Fin cols → α) : Tensor α where
  rows := rows
  cols := cols
  entries := Array.ofFn fun k : Fin (rows * cols) => f (rowOf k) (colOf k)
  size_eq := by simp

@[simp] theorem rows_ofFn {rows cols : Nat} (f : Fin rows → Fin cols → α) :
    (ofFn f).rows = rows := rfl

@[simp] theorem cols_ofFn {rows cols : Nat} (f : Fin rows → Fin cols → α) :
    (ofFn f).cols = cols := rfl

/-- A table built from a function answers with that function. -/
@[simp] theorem entry_ofFn {rows cols : Nat} (f : Fin rows → Fin cols → α)
    (i : Fin rows) (j : Fin cols) : (ofFn f).entry i j = f i j := by
  have hj : (i.val * cols + j.val) % cols = j.val := by
    rw [Nat.mul_comm, Nat.mul_add_mod, Nat.mod_eq_of_lt j.isLt]
  have hi : (i.val * cols + j.val) / cols = i.val := by
    rw [Nat.mul_comm, Nat.mul_add_div (Nat.lt_of_le_of_lt (Nat.zero_le _) j.isLt),
      Nat.div_eq_of_lt j.isLt, Nat.add_zero]
  simp [entry, ofFn, rowOf, colOf, hi, hj]

/-- Two tables of one shape are equal when their entries agree. -/
theorem eq_of_entry {rows cols : Nat} {s t : Tensor α} (hs : s.rows = rows) (ht : t.rows = rows)
    (hs' : s.cols = cols) (ht' : t.cols = cols)
    (h : ∀ i j, i < rows → j < cols → s.get? i j = t.get? i j) : s = t := by
  obtain ⟨_, _, sentries, ssize⟩ := s
  obtain ⟨_, _, tentries, tsize⟩ := t
  simp only at hs ht hs' ht'
  subst hs ht hs' ht'
  suffices sentries = tentries by subst this; rfl
  apply Array.ext (by rw [ssize, tsize])
  intro k hk hk'
  rw [ssize] at hk
  have hcol := Nat.mod_lt k (cols_pos ⟨k, hk⟩)
  have hrow := Nat.div_lt_of_lt_mul (Nat.mul_comm _ _ ▸ hk)
  have hplace := Nat.div_add_mod' k
  have := h _ _ hrow hcol
  simpa [get?, entry, hrow, hcol, hplace] using this

/-- Applies a function to every entry. -/
def map (f : α → β) (t : Tensor α) : Tensor β where
  rows := t.rows
  cols := t.cols
  entries := t.entries.map f
  size_eq := by simp [t.size_eq]

/-- Exchanges rows and columns. -/
def transpose (t : Tensor α) : Tensor α := ofFn fun i j => t.entry j i

/-- The conjugate transpose. -/
def adjoint [Conj α] (t : Tensor α) : Tensor α := t.transpose.map conj

/-- The table of zeros. -/
def zeros [Zero α] (rows cols : Nat) : Tensor α := ofFn fun (_ : Fin rows) (_ : Fin cols) => 0

/-- The identity matrix of the given size. -/
def identity [Zero α] [One α] (size : Nat) : Tensor α :=
  ofFn fun (i : Fin size) (j : Fin size) => if i.val = j.val then 1 else 0

/-- The table whose first column is `v` and whose other columns are zero, as many as `v` is long:
applied to the first basis vector it gives `v`. The table is the square of `v` in size; that there
is memory for it is taken for granted. -/
def ofFirstColumn [Zero α] (v : Array α) : Tensor α :=
  ofFn fun (i : Fin v.size) (j : Fin v.size) => if j.val = 0 then v[i] else 0

/-- An entry of the matrix product, added up from zero along the shared index. -/
def mulEntry [Zero α] [MulAdd α] (s t : Tensor α) (h : s.cols = t.rows) (i : Fin s.rows)
    (j : Fin t.cols) : α :=
  (List.finRange s.cols).foldl
    (fun total k => mulAdd (s.entry i k) (t.entry (k.cast h) j) total) 0

/-- The matrix product. -/
def mul [Zero α] [MulAdd α] (s t : Tensor α) (h : s.cols = t.rows) : Tensor α :=
  ofFn (s.mulEntry t h)

/-- The rows of the table, as lists. -/
def toRows (t : Tensor α) : List (List α) :=
  (List.finRange t.rows).map fun i => (List.finRange t.cols).map fun j => t.entry i j

/-- The table with the given rows, if they are all of one length. No rows make an empty table. -/
def ofRows? (rows : List (List α)) : Option (Tensor α) :=
  let cols := (rows.head?.map List.length).getD 0
  let entries := rows.flatten.toArray
  if h : rows.all (fun r => r.length == cols) then
    some ⟨rows.length, cols, entries, by
      have hlen : ∀ r ∈ rows, r.length = cols := by simpa using h
      clear_value cols
      simp only [entries, List.size_toArray]
      clear h entries
      induction rows with
      | nil => simp
      | cons r rest ih =>
        rw [List.flatten_cons, List.length_append, hlen r (by simp),
          ih (fun s hs => hlen s (by simp [hs])), List.length_cons, Nat.add_mul, Nat.one_mul,
          Nat.add_comm]⟩
  else none

/-- Whether the table is square with a power-of-two side, as the tensor of a gate is. -/
def hasGateShape (t : Tensor α) : Bool := t.rows == t.cols && isPowerOfTwo t.rows

/-- Whether multiplying by the conjugate transpose from the left gives the identity, up to the
tolerance of the scalars. The table need not be square. -/
def isUnitary [Zero α] [One α] [MulAdd α] [Conj α] [Close α] (t : Tensor α) : Bool :=
  let adjoint := t.adjoint
  (List.finRange adjoint.rows).all fun i => (List.finRange t.cols).all fun j =>
    close (adjoint.mulEntry t rfl i j) (if i.val = j.val then 1 else 0)

end Tensor

end GateNetwork
