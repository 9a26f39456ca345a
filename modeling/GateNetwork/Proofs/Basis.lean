import GateNetwork.Backend
import GateNetwork.Basis
import GateNetwork.Proofs.Wires

/-!
# Basis states and pinned modes

The digits of a basis state make an index, and pinning every mode to its digit makes the same index.
On registers that a word can index, neither wraps around.
-/

namespace GateNetwork

/-- The index with the given digits, the first one being the lowest bit. -/
def indexOf (digits : List Nat) : Nat := digits.foldr (fun digit index => 2 * index + digit) 0

@[simp] theorem indexOf_nil : indexOf [] = 0 := rfl

@[simp] theorem indexOf_cons (digit : Nat) (digits : List Nat) :
    indexOf (digit :: digits) = 2 * indexOf digits + digit := rfl

theorem indexOf_lt {digits : List Nat} (h : ∀ d ∈ digits, d ≤ 1) :
    indexOf digits < 2 ^ digits.length := by
  induction digits with
  | nil => simp
  | cons d ds ih =>
    have hd := h d List.mem_cons_self
    have hds := ih fun e he => h e (List.mem_cons_of_mem d he)
    rw [indexOf_cons, List.length_cons, Nat.pow_succ]
    omega

/-- The bits of an index are the digits. -/
theorem testBit_indexOf {digits : List Nat} (h : ∀ d ∈ digits, d ≤ 1) (b : Nat) :
    (indexOf digits).testBit b = decide (digits[b]? = some 1) := by
  induction digits generalizing b with
  | nil => simp
  | cons d ds ih =>
    have hd := h d List.mem_cons_self
    cases b with
    | zero =>
      rw [indexOf_cons, Nat.testBit_zero]
      interval_cases d <;> simp
    | succ b =>
      have hhalf : (2 * indexOf ds + d) / 2 = indexOf ds := by omega
      rw [indexOf_cons, Nat.testBit_succ, hhalf, ih fun e he => h e (List.mem_cons_of_mem d he)]
      rfl

theorem indexOf_replicate_zero (n : Nat) : indexOf (List.replicate n 0) = 0 := by
  induction n with
  | zero => rfl
  | succ n ih => rw [List.replicate_succ, indexOf_cons, ih]

/-! ## Digits of an index -/

/-- The digits of an index, qubit 0 first. -/
def digitsAt (n i : Nat) : List Nat := (List.range n).map fun q => (i.testBit q).toNat

@[simp] theorem length_digitsAt (n i : Nat) : (digitsAt n i).length = n := by
  simp [digitsAt]

theorem digitsAt_le (n i : Nat) : ∀ d ∈ digitsAt n i, d ≤ 1 := by
  intro d hd
  obtain ⟨q, -, rfl⟩ := List.mem_map.1 hd
  exact Bool.toNat_le _

theorem indexOf_digitsAt {n i : Nat} (hi : i < 2 ^ n) : indexOf (digitsAt n i) = i := by
  have hlt : indexOf (digitsAt n i) < 2 ^ n := by simpa using indexOf_lt (digitsAt_le n i)
  refine eq_of_testBit_eq hlt hi fun q hq => ?_
  rw [testBit_indexOf (digitsAt_le n i), digitsAt, List.getElem?_map, List.getElem?_range hq,
    Option.map_some]
  cases i.testBit q <;> rfl

theorem digitsAt_indexOf {digits : List Nat} (h : ∀ d ∈ digits, d ≤ 1) :
    digitsAt digits.length (indexOf digits) = digits := by
  refine List.ext_getElem (by simp) fun q hq hq' => ?_
  have hd := h digits[q] (List.getElem_mem hq')
  simp only [digitsAt, List.getElem_map, List.getElem_range, testBit_indexOf h,
    List.getElem?_eq_getElem hq', Option.some.injEq]
  generalize digits[q] = d at hd
  interval_cases d <;> rfl

/-- Assignments of one length with one index are the same. -/
theorem indexOf_injective {ds es : List Nat} (hlen : ds.length = es.length)
    (hds : ∀ d ∈ ds, d ≤ 1) (hes : ∀ e ∈ es, e ≤ 1) (h : indexOf ds = indexOf es) : ds = es := by
  calc ds = digitsAt ds.length (indexOf ds) := (digitsAt_indexOf hds).symm
    _ = digitsAt es.length (indexOf es) := by rw [hlen, h]
    _ = es := digitsAt_indexOf hes

/-! ## Assignments -/

/-- Up to the width of a word no bit is lost. -/
theorem foldr_shiftIn {digits : List Nat} (h : ∀ d ∈ digits, d ≤ 1) (hlen : digits.length ≤ 64) :
    digits.foldr shiftIn 0 = indexOf digits := by
  induction digits with
  | nil => rfl
  | cons d ds ih =>
    have hlt := (indexOf_lt h).trans_le (Nat.pow_le_pow_right (by decide) hlen)
    rw [List.foldr_cons, ih (fun e he => h e (List.mem_cons_of_mem d he))
      ((Nat.le_succ _).trans hlen)]
    exact Nat.mod_eq_of_lt hlt

/-- The assignments that have an index: as many digits as qubits, at least one, all of them bits. -/
theorem basisIndex_eq_ok_iff {digits : List Nat} {n i : Nat} : basisIndex digits n = .ok i ↔
    digits.length = n ∧ (∀ d ∈ digits, d ≤ 1) ∧ digits ≠ [] ∧ digits.foldr shiftIn 0 = i := by
  unfold basisIndex
  split
  · rename_i hlen
    simp [hlen]
  · rename_i hlen
    split
    · rename_i hany
      obtain ⟨d, hd, hbig⟩ := List.any_eq_true.1 hany
      have hnot : ¬ ∀ d ∈ digits, d ≤ 1 := fun h => by
        have := h d hd
        simp at hbig
        omega
      simp [hnot]
    · rename_i hany
      have hbits : ∀ d ∈ digits, d ≤ 1 := by simpa using hany
      split
      · rename_i hempty
        simp [List.isEmpty_iff.1 hempty]
      · rename_i hempty
        have hne : digits ≠ [] := by simpa using hempty
        rw [Except.ok.injEq]
        exact ⟨fun hi => ⟨not_not.1 hlen, hbits, hne, hi⟩, fun hi => hi.2.2.2⟩

theorem foldr_shiftIn_le (digits : List Nat) : digits.foldr shiftIn 0 ≤ indexOf digits := by
  induction digits with
  | nil => exact le_rfl
  | cons d ds ih =>
    rw [List.foldr_cons, indexOf_cons, shiftIn]
    exact (Nat.mod_le _ _).trans (by omega)

/-- An index is one of the register, also where it does not fit a word. -/
theorem basisIndex_lt {digits : List Nat} {n i : Nat} (hi : basisIndex digits n = .ok i) :
    i < 2 ^ n := by
  obtain ⟨rfl, hbits, -, rfl⟩ := basisIndex_eq_ok_iff.1 hi
  exact (foldr_shiftIn_le digits).trans_lt (indexOf_lt hbits)

/-- An index that a word holds is the one that the digits make. -/
theorem eq_indexOf_of_basisIndex {digits : List Nat} {n i : Nat} (hn : n ≤ 64)
    (hi : basisIndex digits n = .ok i) : digits.length = n ∧ (∀ d ∈ digits, d ≤ 1) ∧
      i = indexOf digits ∧ i < 2 ^ n := by
  obtain ⟨hlen, hbits, -, rfl⟩ := basisIndex_eq_ok_iff.1 hi
  have hindex := foldr_shiftIn hbits (hlen ▸ hn)
  refine ⟨hlen, hbits, hindex, ?_⟩
  rw [hindex, ← hlen]
  exact indexOf_lt hbits

/-! ## Texts -/

/-- The text of an index is its digits as characters. -/
theorem basisText_eq (n i : Nat) :
    basisText n i = String.ofList ((digitsAt n i).map Nat.digitChar) := by
  rw [basisText, digitsAt, List.map_map]
  refine congrArg String.ofList (List.map_congr_left fun q _ => ?_)
  rw [Function.comp_apply]
  cases i.testBit q <;> rfl

theorem getElem?_basisText {n i q : Nat} (hq : q < n) :
    (basisText n i).toList[q]? = some (if i.testBit q then '1' else '0') := by
  rw [basisText, String.toList_ofList, List.getElem?_map, List.getElem?_range hq]
  rfl

/-- Different indices of a register have different texts. -/
theorem eq_of_basisText_eq {n i j : Nat} (hi : i < 2 ^ n) (hj : j < 2 ^ n)
    (h : basisText n i = basisText n j) : i = j := by
  refine eq_of_testBit_eq hi hj fun q hq => ?_
  have hchar := congrArg (fun s : String => s.toList[q]?) h
  simp only [getElem?_basisText hq, Option.some.injEq] at hchar
  revert hchar
  cases i.testBit q <;> cases j.testBit q <;> decide

/-! ## Pinning every mode -/

theorem two_pow_sub_one_or (m : Nat) : 2 ^ m - 1 ||| 1 <<< m = 2 ^ (m + 1) - 1 := by
  refine Nat.eq_of_testBit_eq fun p => ?_
  rw [Nat.testBit_or, Nat.testBit_two_pow_sub_one, Nat.testBit_two_pow_sub_one, Nat.one_shiftLeft,
    Nat.testBit_two_pow, ← Bool.decide_or]
  exact decide_eq_decide.2 (by omega)

/-- A digit below the bits of a number is one more bit. -/
theorem shiftLeft_or_shiftLeft_succ {d : Nat} (hd : d ≤ 1) (k m : Nat) :
    d <<< m ||| k <<< (m + 1) = (2 * k + d) <<< m := by
  have hlow : k <<< 1 ||| d = 2 * k + d := by
    rw [← Nat.shiftLeft_add_eq_or_of_lt (by omega : d < 2 ^ 1), Nat.shiftLeft_eq, Nat.mul_comm]
  rw [← hlow, Nat.shiftLeft_or_distrib, ← Nat.shiftLeft_add, Nat.or_comm, Nat.add_comm 1 m]

theorem digit_shiftLeft_lt {d m n : Nat} (hd : d ≤ 1) (hm : m < n) : d <<< m < 2 ^ n := by
  have hle : d <<< m ≤ 1 <<< m := by
    rw [Nat.shiftLeft_eq, Nat.shiftLeft_eq]
    exact Nat.mul_le_mul_right _ hd
  refine hle.trans_lt ?_
  rw [Nat.one_shiftLeft]
  exact Nat.pow_lt_pow_right (by decide) hm

/-- Reading the pins of the modes from `m` on, when those below are pinned already. -/
theorem readPins_range' {n m : Nat} (hn : n ≤ 64) {digits : List Nat}
    (hlen : m + digits.length = n) (h : ∀ d ∈ digits, d ≤ 1) (bits : Nat) :
    Query.readPins n ((List.range' m digits.length).zip digits) (2 ^ m - 1) bits =
      .ok (2 ^ n - 1, bits ||| indexOf digits <<< m) := by
  induction digits generalizing m bits with
  | nil =>
    obtain rfl : m = n := hlen
    simp [Query.readPins]
  | cons d ds ih =>
    have hd := h d List.mem_cons_self
    rw [List.length_cons] at hlen
    -- The modes pinned so far are those below `m`, so mode `m` is not pinned twice.
    have hrest := ih (m := m + 1) (by omega) (fun e he => h e (List.mem_cons_of_mem d he))
      (bits ||| d <<< m)
    rw [List.length_cons, List.range'_succ, List.zip_cons_cons, Query.readPins, if_neg (by omega),
      if_neg (by omega), Nat.testBit_two_pow_sub_one, if_neg (by simp), two_pow_sub_one_or, hrest,
      Nat.or_assoc, shiftLeft_or_shiftLeft_succ hd, ← indexOf_cons]

/-- Pinning every mode pins it to its digit. -/
theorem pattern_pinAll {n : Nat} (hn : n ≤ 64) {digits : List Nat} (hlen : digits.length = n)
    (h : ∀ d ∈ digits, d ≤ 1) (hyperSamples : Nat) :
    (Query.pinAll digits hyperSamples).pattern n = .ok (2 ^ n - 1, indexOf digits) := by
  have hread := readPins_range' hn (m := 0) (by omega) h 0
  rw [Nat.pow_zero, Nat.sub_self, Nat.zero_or, Nat.shiftLeft_zero] at hread
  rw [Query.pattern, Query.pinAll, List.length_range, if_neg (by simp), List.range_eq_range', hread]

theorem pattern_unpinned (n hyperSamples : Nat) :
    (Query.unpinned hyperSamples).pattern n = .ok (0, 0) := rfl

end GateNetwork
