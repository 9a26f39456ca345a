/-!
# Histograms of bit strings

A histogram counts how often each bit string was recorded. Its entries are kept in ascending order
of the strings, so two histograms of the same recordings are equal whatever the order of recording.
-/

namespace GateNetwork

/-- Counts of recorded strings. -/
structure Histogram where
  /-- The strings recorded at least once with their counts, in ascending order of the strings. -/
  counts : List (String × UInt64)
  /-- The number of recordings, a 64-bit counter. -/
  shots : UInt64
deriving DecidableEq

namespace Histogram

/-- No recordings. -/
def empty : Histogram := ⟨[], 0⟩

/-- Changes the entry of a key, or makes one; the order of the entries is kept. -/
def alter (key : String) (f : Option UInt64 → UInt64) :
    List (String × UInt64) → List (String × UInt64)
  | [] => [(key, f none)]
  | (k, n) :: rest =>
    if key < k then (key, f none) :: (k, n) :: rest
    else if key = k then (k, f (some n)) :: rest
    else (k, n) :: alter key f rest

/-- Records a string once more. -/
def record (h : Histogram) (bits : String) : Histogram :=
  ⟨alter bits (fun n => n.getD 0 + 1) h.counts, h.shots + 1⟩

/-- How often a string was recorded. -/
def count (h : Histogram) (bits : String) : UInt64 := (h.counts.lookup bits).getD 0

/-- The share of a string among all recordings, zero if there are none. -/
def frequency (h : Histogram) (bits : String) : Float :=
  if h.shots = 0 then 0 else (h.count bits).toFloat / h.shots.toFloat

/-- The better one of the best entry so far and the next: a later entry must have the higher
count. -/
def better (best : Option (String × UInt64)) (next : String × UInt64) : Option (String × UInt64) :=
  match best with
  | some b => if next.2 ≤ b.2 then some b else some next
  | none => some next

/-- The string recorded most often, the smallest of those with equal counts. -/
def mostFrequent? (h : Histogram) : Option String := (h.counts.foldl better none).map Prod.fst

/-- The text `{ s:n t:m }`, with the strings in ascending order. -/
def text (h : Histogram) : String :=
  "\x7b " ++ String.join (h.counts.map fun (bits, n) => s!"{bits}:{n.toNat} ") ++ "\x7d"

end Histogram

end GateNetwork
