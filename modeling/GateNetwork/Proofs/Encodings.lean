import GateNetwork.Proofs.Words

/-!
# One index from digits, pins and text

Three loops turn a basis state into bits: the index shifts the digits in, the last one first; pinning
every mode sets one bit after the other; and the text reads the bits off again. On every register
that a word can index they agree, and as the digits of an index are read back from it, each index of
the register belongs to exactly one assignment. In 64-bit words none of the three loops stops, up to
the largest index of all.
-/

namespace GateNetwork

/-! ## The loops in machine words -/

namespace Word

/-- The index of a basis state, the last digit shifted in first. -/
def index? (digits : List Nat) : Option Nat :=
  digits.reverse.foldlM (fun index digit => do add? (← shiftLeft? index 1) digit) 0

/-- The text of the basis state at an index. -/
def text? (qubits index : Nat) : Option String := do
  let chars ← (List.range qubits).mapM fun q => do
    let bit := (← shiftRight? index q) &&& 1
    return if bit = 1 then '1' else '0'
  return String.ofList chars

theorem add?_shiftLeft? {digit : Nat} (h : digit ≤ 1) (index : Nat) :
    (do add? (← shiftLeft? index 1) digit) = some (shiftIn digit index) := by
  have hshift : shiftLeft? index 1 = some (2 * index % 2 ^ 64) := by
    rw [shiftLeft?, if_pos (by decide), Nat.shiftLeft_eq, Nat.pow_one, Nat.mul_comm]
    rfl
  -- The shift makes room for the digit even where it loses a bit, so the sum never overflows.
  have hroom : 2 * index % 2 ^ 64 + digit < 2 ^ 64 := by omega
  have hsum : 2 * index % 2 ^ 64 + digit = shiftIn digit index := by
    show 2 * index % 2 ^ 64 + digit = (2 * index + digit) % 2 ^ 64
    omega
  simp only [hshift, Option.bind_eq_bind, Option.bind_some]
  rw [add?, ← hsum]
  exact if_pos hroom

theorem index?_eq {digits : List Nat} (h : ∀ d ∈ digits, d ≤ 1) :
    index? digits = some (digits.foldr shiftIn 0) := by
  have hstep : ∀ index, ∀ digit ∈ digits.reverse,
      (do add? (← shiftLeft? index 1) digit) = some (shiftIn digit index) := by
    intro index digit hdigit
    exact add?_shiftLeft? (h digit (List.mem_reverse.1 hdigit)) index
  rw [index?, foldlM_eq_some_foldl hstep, List.foldl_reverse]

theorem text?_eq {n : Nat} (hn : n ≤ 64) (i : Nat) : text? n i = some (basisText n i) := by
  have hchar : ∀ q ∈ List.range n,
      (do
        let bit := (← shiftRight? i q) &&& 1
        return if bit = 1 then '1' else '0') = some (if i.testBit q then '1' else '0') := by
    intro q hq
    have hlt : q < 64 := (List.mem_range.1 hq).trans_le hn
    rw [shiftRight?, if_pos hlt]
    simp only [Option.bind_eq_bind, Option.bind_some, Nat.and_one_is_mod,
      shiftRight_mod_two_eq_one_iff]
    rfl
  rw [text?, mapM_eq_some_map hchar]
  rfl

end Word

/-! ## Agreement -/

theorem basisIndex_eq_error_iff {digits : List Nat} {n : Nat} :
    (∃ e, basisIndex digits n = .error e) ↔
      digits.length ≠ n ∨ (∃ d ∈ digits, 1 < d) ∨ digits = [] := by
  cases hcase : basisIndex digits n with
  | ok i =>
    obtain ⟨hlen, hbits, hne, -⟩ := basisIndex_eq_ok_iff.1 hcase
    constructor
    · rintro ⟨e, he⟩
      cases he
    · rintro (hlen' | ⟨d, hd, hbig⟩ | hempty)
      · exact absurd hlen hlen'
      · exact absurd hbig (Nat.not_lt.2 (hbits d hd))
      · exact absurd hempty hne
  | error e =>
    refine ⟨fun _ => ?_, fun _ => ⟨e, rfl⟩⟩
    by_contra hgood
    push Not at hgood
    obtain ⟨hlen, hbits, hne⟩ := hgood
    have hok := basisIndex_eq_ok_iff.2 ⟨hlen, hbits, hne, rfl⟩
    rw [hcase] at hok
    cases hok

theorem basisIndex_eq_indexOf {digits : List Nat} {n : Nat} (hpos : 1 ≤ n) (hn : n ≤ 64)
    (hlen : digits.length = n) (hbits : ∀ d ∈ digits, d ≤ 1) :
    basisIndex digits n = .ok (indexOf digits) := by
  have hne : digits ≠ [] := by
    rintro rfl
    rw [List.length_nil] at hlen
    omega
  exact basisIndex_eq_ok_iff.2 ⟨hlen, hbits, hne, foldr_shiftIn hbits (hlen.trans_le hn)⟩

/-- The assignment of an index is its digits, and no other one has this index. -/
theorem existsUnique_digits {n index : Nat} (hpos : 1 ≤ n) (hn : n ≤ 64) (hindex : index < 2 ^ n) :
    ∃! digits : List Nat,
      digits.length = n ∧ (∀ d ∈ digits, d ≤ 1) ∧ basisIndex digits n = .ok index := by
  have hlen := length_digitsAt n index
  have hbits := digitsAt_le n index
  refine ⟨digitsAt n index, ⟨hlen, hbits, ?_⟩, ?_⟩
  · rw [basisIndex_eq_indexOf hpos hn hlen hbits, indexOf_digitsAt hindex]
  · rintro digits ⟨hlen', hbits', hdigits⟩
    rw [basisIndex_eq_indexOf hpos hn hlen' hbits', Except.ok.injEq] at hdigits
    exact indexOf_injective (hlen'.trans hlen.symm) hbits' hbits
      (hdigits.trans (indexOf_digitsAt hindex).symm)

/-- On a register of at most 64 qubits each assignment has an index of the register, pinning every
mode to its digit makes the same index, and the text of the index has the digits for characters;
none of this stops in machine words, and each index of the register belongs to one assignment only.
An assignment has no index, on a register of any size, if its length is another one, a digit is no
bit, or there is none. -/
theorem basis_encodings_agree :
    (∀ n, 1 ≤ n → n ≤ 64 →
      (∀ digits : List Nat, digits.length = n → (∀ d ∈ digits, d ≤ 1) →
        ∃ index, basisIndex digits n = .ok index ∧ index < 2 ^ n ∧
          (∀ hyperSamples,
            (Query.pinAll digits hyperSamples).pattern n = .ok (2 ^ n - 1, index)) ∧
          basisText n index = String.ofList (digits.map Nat.digitChar) ∧
          Word.index? digits = some index ∧
          (∀ hyperSamples, Word.pattern? (.pinAll digits hyperSamples) n =
            some (.ok (2 ^ n - 1, index))) ∧
          Word.text? n index = some (basisText n index)) ∧
      ∀ index < 2 ^ n, ∃! digits : List Nat,
        digits.length = n ∧ (∀ d ∈ digits, d ≤ 1) ∧ basisIndex digits n = .ok index) ∧
    ∀ (n : Nat) (digits : List Nat), (∃ e, basisIndex digits n = .error e) ↔
      digits.length ≠ n ∨ (∃ d ∈ digits, 1 < d) ∨ digits = [] := by
  refine ⟨fun n hpos hn => ⟨fun digits hlen hbits => ?_, fun index hindex => ?_⟩,
    fun n digits => basisIndex_eq_error_iff⟩
  · have hpins := pattern_pinAll hn hlen hbits
    refine ⟨indexOf digits, basisIndex_eq_indexOf hpos hn hlen hbits, ?_, hpins, ?_, ?_,
      fun hyperSamples => ?_, Word.text?_eq hn _⟩
    · rw [← hlen]
      exact indexOf_lt hbits
    · rw [basisText_eq, ← hlen, digitsAt_indexOf hbits]
    · rw [Word.index?_eq hbits, foldr_shiftIn hbits (hlen.trans_le hn)]
    · rw [Word.pattern?_eq, hpins]
  · exact existsUnique_digits hpos hn hindex

theorem indexOf_replicate_one (n : Nat) : indexOf (List.replicate n 1) = 2 ^ n - 1 := by
  induction n with
  | zero => rfl
  | succ n ih =>
    have hpos := Nat.two_pow_pos n
    rw [List.replicate_succ, indexOf_cons, ih, Nat.pow_succ]
    omega

/-- Sixty-four ones are the largest index that a word holds. -/
theorem basis_encodings_agree_full_word :
    let digits : List Nat := List.replicate 64 1
    1 ≤ 64 ∧ 64 ≤ 64 ∧ digits.length = 64 ∧ (∀ d ∈ digits, d ≤ 1) ∧
      2 ^ 64 - 1 < 2 ^ 64 ∧ basisIndex digits 64 = .ok (2 ^ 64 - 1) ∧
      (Query.pinAll digits 0).pattern 64 = .ok (2 ^ 64 - 1, 2 ^ 64 - 1) ∧
      basisText 64 (2 ^ 64 - 1) = String.ofList (List.replicate 64 '1') ∧
      Word.index? digits = some (2 ^ 64 - 1) ∧
      ∃! others : List Nat, others.length = 64 ∧ (∀ d ∈ others, d ≤ 1) ∧
        basisIndex others 64 = .ok (2 ^ 64 - 1) := by
  intro digits
  have hlen : digits.length = 64 := List.length_replicate
  have hbits : ∀ d ∈ digits, d ≤ 1 := fun d hd => (List.eq_of_mem_replicate hd).le
  obtain ⟨hagree, hunique⟩ := basis_encodings_agree.1 64 (by decide) le_rfl
  obtain ⟨index, hindex, hlt, hpins, htext, hword, -⟩ := hagree digits hlen hbits
  have hlargest : basisIndex digits 64 = .ok (2 ^ 64 - 1) := by
    rw [basisIndex_eq_indexOf (by decide) le_rfl hlen hbits, indexOf_replicate_one]
  obtain rfl : 2 ^ 64 - 1 = index := Except.ok.inj (hlargest.symm.trans hindex)
  refine ⟨by decide, le_rfl, hlen, hbits, hlt, hindex, hpins 0, htext, hword, hunique _ hlt⟩

end GateNetwork
