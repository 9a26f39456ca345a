import GateNetwork.Proofs.Histograms

/-!
# What was recorded how often

A histogram is settled by the multiset of its recordings. Its answers are those of the list itself:
the length, the number of occurrences of each string, and as the most frequent string the smallest
one among those that occur most often. The entries are read in ascending order and an entry replaces
the best one so far only with a higher count, so the first entry of the highest count stays.
-/

namespace GateNetwork

namespace Histogram

/-! ## The best entry -/

/-- The entry has the highest count, and the smallest key of all with this count. -/
structure Leads (e : String × UInt64) (entries : List (String × UInt64)) : Prop where
  mem : e ∈ entries
  highest : ∀ e' ∈ entries, e'.2 ≤ e.2
  smallest : ∀ e' ∈ entries, e'.2 = e.2 → e.1 ≤ e'.1

section

variable {entries : List (String × UInt64)} {best next : String × UInt64}

theorem leads_singleton (e : String × UInt64) : Leads e [e] := by
  refine ⟨List.mem_singleton_self e, fun e' he' => ?_, fun e' he' _ => ?_⟩
  · rw [List.mem_singleton.1 he']
    exact UInt64.le_refl e.2
  · rw [List.mem_singleton.1 he']

/-- A later entry that has no higher count changes nothing. -/
theorem Leads.keep (h : Leads best entries) (hlast : ∀ e ∈ entries, e.1 < next.1)
    (hle : next.2 ≤ best.2) : Leads best (entries ++ [next]) := by
  refine ⟨List.mem_append_left _ h.mem, fun e he => ?_, fun e he hcount => ?_⟩
  · rcases List.mem_append.1 he with he | he
    · exact h.highest e he
    · rwa [List.mem_singleton.1 he]
  · rcases List.mem_append.1 he with he | he
    · exact h.smallest e he hcount
    · rw [List.mem_singleton.1 he]
      exact (hlast best h.mem).le

/-- An entry with a higher count than the best one so far has a higher count than all. -/
theorem Leads.replace (h : Leads best entries) (hlt : best.2 < next.2) :
    Leads next (entries ++ [next]) := by
  have hbelow : ∀ e ∈ entries, e.2 < next.2 :=
    fun e he => UInt64.lt_of_le_of_lt (h.highest e he) hlt
  refine ⟨List.mem_append_right _ (List.mem_singleton_self next), fun e he => ?_,
    fun e he hcount => ?_⟩
  · rcases List.mem_append.1 he with he | he
    · exact UInt64.le_of_lt (hbelow e he)
    · rw [List.mem_singleton.1 he]
      exact UInt64.le_refl next.2
  · rcases List.mem_append.1 he with he | he
    · exact absurd hcount (UInt64.ne_of_lt (hbelow e he))
    · rw [List.mem_singleton.1 he]

/-- The best of ascending entries leads them. -/
theorem Ascending.exists_leads (h : Ascending entries) (hne : entries ≠ []) :
    ∃ e, entries.foldl better none = some e ∧ Leads e entries := by
  induction entries using List.reverseRecOn with
  | nil => exact absurd rfl hne
  | append_singleton entries next ih =>
    obtain ⟨hfirst, -, hlast⟩ := List.pairwise_append.1 h
    rw [List.foldl_append]
    rcases eq_or_ne entries [] with rfl | hsome
    · exact ⟨next, rfl, leads_singleton next⟩
    · obtain ⟨best, hbest, hleads⟩ := ih hfirst hsome
      rw [hbest, List.foldl_cons, List.foldl_nil, better]
      by_cases hle : next.2 ≤ best.2
      · rw [if_pos hle]
        have hbefore : ∀ e ∈ entries, e.1 < next.1 :=
          fun e he => hlast e he next (List.mem_singleton_self next)
        exact ⟨best, rfl, hleads.keep hbefore hle⟩
      · rw [if_neg hle]
        exact ⟨next, rfl, hleads.replace (UInt64.not_le.1 hle)⟩

end

/-! ## Histograms of lists -/

variable {h h' : Histogram} {xs ys : List String}

theorem Tallies.counts_eq_nil_iff (hx : h.Tallies xs) : h.counts = [] ↔ xs = [] := by
  constructor
  · intro hnil
    refine List.eq_nil_iff_forall_not_mem.2 fun s hs => ?_
    have hmem := (hx.mem_iff (s, UInt64.ofNat (xs.count s))).2 ⟨hs, rfl⟩
    rw [hnil] at hmem
    exact List.not_mem_nil hmem
  · rintro rfl
    exact List.eq_nil_iff_forall_not_mem.2 fun e he => List.not_mem_nil ((hx.mem_iff e).1 he).1

theorem Tallies.mostFrequent?_eq_none_iff (hx : h.Tallies xs) :
    h.mostFrequent? = none ↔ xs = [] := by
  rw [← hx.counts_eq_nil_iff]
  constructor
  · intro hnone
    by_contra hne
    obtain ⟨e, he, -⟩ := hx.ascending.exists_leads hne
    rw [mostFrequent?, he] at hnone
    cases hnone
  · intro hnil
    rw [mostFrequent?, hnil]
    rfl

/-- The string occurs, none occurs more often, and of those that occur as often it is the smallest.
-/
structure MostFrequentIn (s : String) (xs : List String) : Prop where
  mem : s ∈ xs
  highest : ∀ t, xs.count t ≤ xs.count s
  smallest : ∀ t, xs.count t = xs.count s → s ≤ t

theorem MostFrequentIn.unique {s t : String} (hs : MostFrequentIn s xs) (ht : MostFrequentIn t xs) :
    s = t := by
  have hsame : xs.count s = xs.count t := le_antisymm (ht.highest s) (hs.highest t)
  exact le_antisymm (hs.smallest t hsame.symm) (ht.smallest s hsame)

theorem toNat_ofNat_count (hlt : xs.length < 2 ^ 64) (s : String) :
    (UInt64.ofNat (xs.count s)).toNat = xs.count s :=
  Nat.mod_eq_of_lt (List.count_le_length.trans_lt hlt)

theorem Tallies.toNat_count (hx : h.Tallies xs) (hlt : xs.length < 2 ^ 64) (s : String) :
    (h.count s).toNat = xs.count s := by
  rw [hx.count_eq, toNat_ofNat_count hlt]

/-- The entry that leads the histogram of a list is that of the list's most frequent string. -/
theorem Tallies.mostFrequentIn (hx : h.Tallies xs) (hlt : xs.length < 2 ^ 64)
    {e : String × UInt64} (he : Leads e h.counts) : MostFrequentIn e.1 xs := by
  obtain ⟨hmem, hcount⟩ := (hx.mem_iff e).1 he.mem
  have hpos : 0 < xs.count e.1 := List.count_pos_iff.2 hmem
  have hentry {t : String} (ht : t ∈ xs) : (t, UInt64.ofNat (xs.count t)) ∈ h.counts :=
    (hx.mem_iff _).2 ⟨ht, rfl⟩
  refine ⟨hmem, fun t => ?_, fun t hsame => ?_⟩
  · by_cases ht : t ∈ xs
    · have hle := he.highest _ (hentry ht)
      rwa [hcount, UInt64.le_iff_toNat_le, toNat_ofNat_count hlt, toNat_ofNat_count hlt] at hle
    · rw [List.count_eq_zero_of_not_mem ht]
      exact hpos.le
  · have ht : t ∈ xs := List.count_pos_iff.1 (hsame ▸ hpos)
    refine he.smallest _ (hentry ht) ?_
    rw [hcount]
    exact congrArg UInt64.ofNat hsame

theorem Tallies.mostFrequent?_eq_some_iff (hx : h.Tallies xs) (hlt : xs.length < 2 ^ 64)
    {s : String} : h.mostFrequent? = some s ↔ MostFrequentIn s xs := by
  constructor
  · intro hsome
    have hne : h.counts ≠ [] := by
      rintro hnil
      rw [hx.mostFrequent?_eq_none_iff.2 (hx.counts_eq_nil_iff.1 hnil)] at hsome
      cases hsome
    obtain ⟨e, he, hleads⟩ := hx.ascending.exists_leads hne
    rw [mostFrequent?, he] at hsome
    obtain rfl : e.1 = s := Option.some.inj hsome
    exact hx.mostFrequentIn hlt hleads
  · intro hs
    have hne : h.counts ≠ [] := by
      rw [ne_eq, hx.counts_eq_nil_iff]
      exact List.ne_nil_of_mem hs.mem
    obtain ⟨e, he, hleads⟩ := hx.ascending.exists_leads hne
    rw [mostFrequent?, he, (hx.mostFrequentIn hlt hleads).unique hs |>.symm]
    rfl

/-- The order of the recordings plays no part. -/
theorem Tallies.eq_of_perm (hx : h.Tallies xs) (hy : h'.Tallies ys) (hperm : xs.Perm ys) :
    h = h' := by
  have hnodup {g : Histogram} {zs : List String} (hg : g.Tallies zs) : g.counts.Nodup :=
    hg.ascending.imp fun hless heq => hless.ne (congrArg Prod.fst heq)
  have hcounts : h.counts.Perm h'.counts := by
    refine (List.perm_ext_iff_of_nodup (hnodup hx) (hnodup hy)).2 fun e => ?_
    rw [hx.mem_iff, hy.mem_iff, hperm.mem_iff, hperm.count_eq]
  have hsorted : h.counts = h'.counts :=
    hcounts.eq_of_pairwise (fun _ _ _ _ hlt hgt => absurd hgt hlt.asymm) hx.ascending hy.ascending
  have hshots : h.shots = h'.shots := by rw [hx.shots, hy.shots, hperm.length_eq]
  cases h
  cases h'
  exact congrArg₂ Histogram.mk hsorted hshots

/-- A histogram is the multiset of its recordings: their number, how often each string occurs, and
the smallest string among those that occur most often. Recordings in another order give the same
histogram, and no others do. -/
theorem recordAll_isMultiset (xs : List String) (hlt : xs.length < 2 ^ 64) :
    let h := recordAll xs
    h.shots.toNat = xs.length ∧
    (∀ s, (h.count s).toNat = xs.count s) ∧
    (h.counts.map fun e => e.2.toNat).sum = h.shots.toNat ∧
    (h.mostFrequent? = none ↔ xs = []) ∧
    (∀ s, h.mostFrequent? = some s ↔ MostFrequentIn s xs) ∧
    (∀ ys, xs.Perm ys → recordAll ys = h) ∧
    ∀ ys : List String, ys.length < 2 ^ 64 → recordAll ys = h → xs.Perm ys := by
  intro h
  have hx : h.Tallies xs := tallies_recordAll xs
  have hshots : h.shots.toNat = xs.length := by
    rw [hx.shots]
    exact Nat.mod_eq_of_lt hlt
  refine ⟨hshots, hx.toNat_count hlt, (hx.sum_counts hlt).trans hshots.symm,
    hx.mostFrequent?_eq_none_iff, fun s => hx.mostFrequent?_eq_some_iff hlt,
    fun ys hperm => (tallies_recordAll ys).eq_of_perm hx hperm.symm, fun ys hys hsame => ?_⟩
  refine List.perm_iff_count.2 fun s => ?_
  rw [← hx.toNat_count hlt, ← (tallies_recordAll ys).toNat_count hys, hsame]

/-- Two of three strings share the highest count, and the smaller one of them was recorded later. -/
theorem recordAll_isMultiset_tie :
    let xs := ["10", "01", "10", "00", "01"]
    xs.length < 2 ^ 64 ∧ (recordAll xs).shots.toNat = 5 ∧ ((recordAll xs).count "10").toNat = 2 ∧
      (recordAll xs).mostFrequent? = some "01" ∧ (∀ t, xs.count t ≤ 2) ∧
      recordAll ["00", "01", "01", "10", "10"] = recordAll xs := by
  intro xs
  have hlt : xs.length < 2 ^ 64 := by decide
  have hmost : (recordAll xs).mostFrequent? = some "01" := by decide
  obtain ⟨hshots, hcount, -, -, hiff, hperm, -⟩ := recordAll_isMultiset xs hlt
  exact ⟨hlt, hshots, hcount "10", hmost, ((hiff "01").1 hmost).highest, hperm _ (by decide)⟩

end Histogram

end GateNetwork
