import Mathlib
import GateNetwork.Histogram

/-!
# Histograms of recorded strings

The entries of a histogram ascend strictly, and they are the recorded strings, each with the number
of its recordings. Recording one more string keeps this, so that it holds of every histogram that
recordings make, whatever their order.
-/

namespace GateNetwork

namespace Histogram

/-! ## Ascending entries -/

section

variable {entries : List (String × UInt64)} {key : String} {f : Option UInt64 → UInt64}

/-- The keys ascend strictly. -/
def Ascending (entries : List (String × UInt64)) : Prop :=
  entries.Pairwise fun e e' => e.1 < e'.1

theorem Ascending.lookup_eq_some_iff (h : Ascending entries) {n : UInt64} :
    entries.lookup key = some n ↔ (key, n) ∈ entries := by
  induction entries with
  | nil => simp
  | cons e rest ih =>
    obtain ⟨k, m⟩ := e
    obtain ⟨hfirst, hrest⟩ := List.pairwise_cons.1 h
    by_cases hkey : key = k
    · subst hkey
      have hnot : (key, n) ∉ rest := fun hmem => lt_irrefl key (hfirst _ hmem)
      simp [hnot, eq_comm]
    · have hne : (key == k) = false := beq_eq_false_iff_ne.2 hkey
      rw [List.lookup_cons, hne, ih hrest]
      simp [hkey]

theorem Ascending.lookup_eq_none_iff (h : Ascending entries) :
    entries.lookup key = none ↔ ∀ e ∈ entries, e.1 ≠ key := by
  rw [Option.eq_none_iff_forall_ne_some]
  constructor
  · intro hnone e he hkey
    refine hnone e.2 (h.lookup_eq_some_iff.2 ?_)
    rwa [← hkey]
  · intro hne n hn
    exact hne _ (h.lookup_eq_some_iff.1 hn) rfl

/-- The entry of the key is changed or made, and the others are left. -/
theorem Ascending.mem_alter (h : Ascending entries) {e : String × UInt64} :
    e ∈ alter key f entries ↔
      e = (key, f (entries.lookup key)) ∨ e.1 ≠ key ∧ e ∈ entries := by
  induction entries with
  | nil => simp [alter]
  | cons first rest ih =>
    obtain ⟨k, n⟩ := first
    obtain ⟨hfirst, hrest⟩ := List.pairwise_cons.1 h
    have hother : ∀ e ∈ rest, e.1 ≠ k := fun e he => (hfirst e he).ne'
    rw [alter]
    split
    · -- All keys are larger, so the entry is new.
      rename_i hlt
      have hnew : ∀ e ∈ (k, n) :: rest, e.1 ≠ key := by
        rintro e (_ | ⟨_, he⟩)
        · exact hlt.ne'
        · exact (hlt.trans (hfirst e he)).ne'
      rw [h.lookup_eq_none_iff.2 hnew, List.mem_cons]
      exact or_congr_right ⟨fun he => ⟨hnew e he, he⟩, And.right⟩
    · split
      · rename_i hsame
        subst hsame
        have hlookup : ((key, n) :: rest).lookup key = some n := by simp
        rw [hlookup, List.mem_cons, List.mem_cons]
        refine or_congr_right ⟨fun he => ⟨hother e he, .inr he⟩, ?_⟩
        rintro ⟨hne, rfl | he⟩
        · exact absurd rfl hne
        · exact he
      · rename_i hne
        have hskip : ((k, n) :: rest).lookup key = rest.lookup key := by
          rw [List.lookup_cons, beq_eq_false_iff_ne.2 hne]
        rw [hskip, List.mem_cons, List.mem_cons, ih hrest]
        constructor
        · rintro (rfl | he | ⟨hkey, he⟩)
          · exact .inr ⟨fun hk => hne hk.symm, .inl rfl⟩
          · exact .inl he
          · exact .inr ⟨hkey, .inr he⟩
        · rintro (he | ⟨hkey, rfl | he⟩)
          · exact .inr (.inl he)
          · exact .inl rfl
          · exact .inr (.inr ⟨hkey, he⟩)

theorem Ascending.alter (h : Ascending entries) (key : String) (f : Option UInt64 → UInt64) :
    Ascending (alter key f entries) := by
  induction entries with
  | nil => exact List.pairwise_singleton _ _
  | cons first rest ih =>
    obtain ⟨k, n⟩ := first
    obtain ⟨hfirst, hrest⟩ := List.pairwise_cons.1 h
    rw [Histogram.alter]
    split
    · rename_i hlt
      refine List.pairwise_cons.2 ⟨?_, h⟩
      rintro e (_ | ⟨_, he⟩)
      · exact hlt
      · exact hlt.trans (hfirst e he)
    · rename_i hle
      split
      · exact List.pairwise_cons.2 ⟨hfirst, hrest⟩
      · rename_i hne
        refine List.pairwise_cons.2 ⟨fun e he => ?_, ih hrest⟩
        rcases Ascending.mem_alter hrest |>.1 he with rfl | ⟨-, he⟩
        · exact lt_of_le_of_ne (not_lt.1 hle) (Ne.symm hne)
        · exact hfirst e he

end

/-! ## Recordings -/

/-- The histogram of a list of recordings. -/
def recordAll (xs : List String) : Histogram := xs.foldl record .empty

/-- The histogram holds the strings of the list, each with the number of its occurrences. -/
structure Tallies (h : Histogram) (xs : List String) : Prop where
  ascending : Ascending h.counts
  mem_iff : ∀ e, e ∈ h.counts ↔ e.1 ∈ xs ∧ e.2 = UInt64.ofNat (xs.count e.1)
  shots : h.shots = UInt64.ofNat xs.length

variable {h : Histogram} {xs : List String}

theorem tallies_empty : Histogram.empty.Tallies [] :=
  ⟨.nil, fun e => by simp [empty], rfl⟩

theorem Tallies.count_eq (hx : h.Tallies xs) (s : String) :
    h.count s = UInt64.ofNat (xs.count s) := by
  by_cases hs : s ∈ xs
  · have hmem : (s, UInt64.ofNat (xs.count s)) ∈ h.counts := (hx.mem_iff _).2 ⟨hs, rfl⟩
    rw [count, hx.ascending.lookup_eq_some_iff.2 hmem, Option.getD_some]
  · have hnone : h.counts.lookup s = none := by
      refine hx.ascending.lookup_eq_none_iff.2 fun e he hkey => hs ?_
      exact hkey ▸ ((hx.mem_iff e).1 he).1
    rw [count, hnone, List.count_eq_zero_of_not_mem hs]
    rfl

/-- One more recording raises the count of its string by one. -/
theorem Tallies.record (hx : h.Tallies xs) (s : String) : (h.record s).Tallies (xs ++ [s]) := by
  refine ⟨hx.ascending.alter s _, fun e => ?_, ?_⟩
  · have hvalue : (h.counts.lookup s).getD 0 + 1 = UInt64.ofNat ((xs ++ [s]).count s) := by
      rw [← count, hx.count_eq, List.count_append, List.count_singleton_self, UInt64.ofNat_add]
      rfl
    rw [Histogram.record, hx.ascending.mem_alter, hvalue, hx.mem_iff]
    obtain ⟨k, n⟩ := e
    by_cases hkey : k = s
    · subst hkey
      simp
    · have hcount : (xs ++ [s]).count k = xs.count k := by
        rw [List.count_append, List.count_singleton, if_neg (by simpa using Ne.symm hkey),
          Nat.add_zero]
      simp [hkey, hcount]
  · rw [Histogram.record, hx.shots, List.length_append, UInt64.ofNat_add]
    rfl

theorem Tallies.foldl_record (hx : h.Tallies xs) (ys : List String) :
    (ys.foldl Histogram.record h).Tallies (xs ++ ys) := by
  induction ys generalizing h xs with
  | nil => simpa using hx
  | cons y ys ih => simpa using ih (hx.record y)

theorem tallies_recordAll (xs : List String) : (recordAll xs).Tallies xs :=
  tallies_empty.foldl_record xs

/-- The counts add up to the number of recordings. -/
theorem Tallies.sum_counts (hx : h.Tallies xs) (hlt : xs.length < 2 ^ 64) :
    (h.counts.map fun e => e.2.toNat).sum = xs.length := by
  have hvalue : ∀ e ∈ h.counts, e.2.toNat = xs.count e.1 := by
    intro e he
    rw [((hx.mem_iff e).1 he).2]
    exact Nat.mod_eq_of_lt (List.count_le_length.trans_lt hlt)
  have hkeys : (h.counts.map Prod.fst).Nodup :=
    List.pairwise_map.2 (hx.ascending.imp fun hless => hless.ne)
  have hperm : (h.counts.map Prod.fst).Perm xs.dedup := by
    refine (List.perm_ext_iff_of_nodup hkeys xs.nodup_dedup).2 fun s => ?_
    rw [List.mem_dedup, List.mem_map]
    constructor
    · rintro ⟨e, he, rfl⟩
      exact ((hx.mem_iff e).1 he).1
    · exact fun hs => ⟨(s, UInt64.ofNat (xs.count s)), (hx.mem_iff _).2 ⟨hs, rfl⟩, rfl⟩
  calc (h.counts.map fun e => e.2.toNat).sum
      = ((h.counts.map Prod.fst).map fun s => xs.count s).sum := by
        rw [List.map_map, List.map_congr_left hvalue]
        rfl
    _ = (xs.dedup.map fun s => xs.count s).sum := (hperm.map _).sum_eq
    _ = xs.length := List.sum_map_count_dedup_eq_length xs

end Histogram

end GateNetwork
