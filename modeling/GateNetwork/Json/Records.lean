import GateNetwork.Histogram
import GateNetwork.Json.Reader
import GateNetwork.Json.Written
import GateNetwork.Operator
import GateNetwork.Outcome
import GateNetwork.Representation
import GateNetwork.Settings

/-!
# Records as JSON

Settings, histograms and the named choices of this library as JSON texts. A record is written as an
object with its fields in a fixed order, and read from an object or from an array of its fields in
that order. Unknown keys of an object are ignored, a field given twice is refused.
-/

namespace GateNetwork

open Json

/-! ## Named choices -/

/-- The names of the outcomes. -/
def Outcome.names : List (String × Outcome) := [("Zero", .zero), ("One", .one)]

/-- The names of the operator kinds. -/
def OperatorKind.names : List (String × OperatorKind) :=
  [("Unitary", .unitary), ("NonUnitary", .nonUnitary)]

/-- The names of the representations. -/
def Representation.names : List (String × Representation) :=
  [("TensorNetwork", .tensorNetwork), ("StateVector", .stateVector)]

/-- The names of the precisions. -/
def Precision.names : List (String × Precision) := [("Fp32", .single), ("Fp64", .double)]

/-- The name of a choice. -/
def nameOf {α : Type} [DecidableEq α] (names : List (String × α)) (a : α) : String :=
  match names.find? fun entry => entry.2 = a with
  | some entry => entry.1
  | none => ""

/-- Reads the JSON text of a choice. -/
def readChoice? {α : Type} (names : List (String × α)) (text : String) : Option α :=
  (Json.read? text).bind (readName? names)

/-- The JSON text of a choice. -/
def writeChoice {α : Type} [DecidableEq α] (names : List (String × α)) (a : α) : String :=
  writeString (nameOf names a)

/-! ## Settings -/

namespace Settings

/-- The key of the largest register answered from the whole state vector. -/
def vectorQubitsKey : String := "max_qubits_for_state_contraction"

/-- The key of the samples of a path search. -/
def hyperSamplesKey : String := "hyper_samples"

/-- The key of the size of the scratch pool. -/
def scratchBytesKey : String := "scratch_size_bytes"

/-- The key of the seed. -/
def seedKey : String := "seed"

/-- The item of an array, which takes the given value if the array ends before it. -/
def itemOr {α : Type} (items : List Value) (position : Nat) (read : Value → Option α) (absent : α) :
    Option α :=
  match items[position]? with
  | some v => read v
  | none => some absent

/-- Reads settings; fields that are absent take their standard values. -/
def ofValue? : Value → Option Settings
  | .object members => do
    if !keysReadable members then none
    return {
      vectorQubits := ← optional? members vectorQubitsKey (·.whole? wordBound) standard.vectorQubits
      hyperSamples := ← optional? members hyperSamplesKey (·.whole? sampleBound) standard.hyperSamples
      scratchBytes := ← optional? members scratchBytesKey (·.whole? wordBound) standard.scratchBytes
      seed := ← optional? members seedKey (Value.orNull (·.whole? wordBound)) standard.seed }
  | .array items => do
    if 4 < items.length then none
    return {
      vectorQubits := ← itemOr items 0 (·.whole? wordBound) standard.vectorQubits
      hyperSamples := ← itemOr items 1 (·.whole? sampleBound) standard.hyperSamples
      scratchBytes := ← itemOr items 2 (·.whole? wordBound) standard.scratchBytes
      seed := ← itemOr items 3 (Value.orNull (·.whole? wordBound)) standard.seed }
  | _ => none

/-- Reads the JSON text of settings. -/
def ofJson? (text : String) : Option Settings := (Json.read? text).bind ofValue?

/-- The JSON text of settings. -/
def json (s : Settings) : String :=
  let seed := match s.seed with
    | some n => toString n
    | none => "null"
  "\x7b" ++ s!"{writeString vectorQubitsKey}:{s.vectorQubits}," ++
    s!"{writeString hyperSamplesKey}:{s.hyperSamples}," ++
    s!"{writeString scratchBytesKey}:{s.scratchBytes}," ++
    s!"{writeString seedKey}:{seed}" ++ "\x7d"

end Settings

/-! ## Histograms -/

namespace Histogram

/-- The key of the counts. -/
def countsKey : String := "counts"

/-- The key of the number of recordings. -/
def shotsKey : String := "shots"

/-- Reads counts from an object; of a repeated key the last count holds. -/
def countsOf? : Value → Option (List (String × UInt64))
  | .object members =>
    members.foldlM
      (fun counts (key, v) => do
        let cs ← key
        let n ← v.whole? wordBound
        return alter (String.ofList cs) (fun _ => UInt64.ofNat n) counts)
      []
  | _ => none

/-- Reads a number of recordings. -/
def shotsOf? (v : Value) : Option UInt64 := (v.whole? wordBound).map UInt64.ofNat

/-- Reads a histogram, whose fields must both be there. Whether they fit together is not checked. -/
def ofValue? : Value → Option Histogram
  | .object members => do
    if !keysReadable members then none
    return ⟨← required? members countsKey countsOf?, ← required? members shotsKey shotsOf?⟩
  | .array [counts, shots] => do return ⟨← countsOf? counts, ← shotsOf? shots⟩
  | _ => none

/-- Reads the JSON text of a histogram. -/
def ofJson? (text : String) : Option Histogram := (Json.read? text).bind ofValue?

/-- The JSON text of a histogram. -/
def json (h : Histogram) : String :=
  let entries := h.counts.map fun (bits, n) => s!"{writeString bits}:{n.toNat}"
  "\x7b" ++ writeString countsKey ++ ":\x7b" ++ ",".intercalate entries ++ "\x7d," ++
    s!"{writeString shotsKey}:{h.shots.toNat}" ++ "\x7d"

end Histogram

end GateNetwork
