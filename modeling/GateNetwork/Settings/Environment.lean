import GateNetwork.Error
import GateNetwork.Settings
import GateNetwork.Text.Blank

/-!
# Settings from the environment

Each setting has a variable. A variable that is set must hold a decimal number in the range of its
setting, blanks around it allowed; the variables are read in a fixed order, and the first that holds
anything else is the error.
-/

namespace GateNetwork

/-- Reads decimal digits as a number, on top of the digits read so far. -/
def readDigits : List Char → Nat → Option Nat
  | [], n => some n
  | c :: cs, n => if c.isDigit then readDigits cs (10 * n + (c.toNat - '0'.toNat)) else none

/-- Reads a whole number below `bound`: an optional plus and at least one digit. -/
def readWhole? (bound : Nat) (cs : List Char) : Option Nat :=
  let digits := match cs with
    | '+' :: rest => rest
    | _ => cs
  if digits.isEmpty then none else (readDigits digits 0).filter (· < bound)

namespace Settings

/-- The variable for the largest register answered from the whole state vector. -/
def vectorQubitsVariable : String := "TENSORNET_MAX_QUBITS_FOR_STATE_CONTRACTION"

/-- The variable for the samples of a path search. -/
def hyperSamplesVariable : String := "TENSORNET_HYPER_SAMPLES"

/-- The variable for the size of the scratch pool. -/
def scratchBytesVariable : String := "TENSORNET_SCRATCH_SIZE"

/-- The variable for the seed. -/
def seedVariable : String := "TENSORNET_RANDOM_SEED"

/-- The number in a variable, if the variable is set. -/
def readVariable (environment : String → Option String) (bound : Nat) (name : String) :
    Except Error (Option Nat) :=
  match environment name with
  | none => .ok none
  | some value =>
    match readWhole? bound (trimBlanks value.toList) with
    | some n => .ok (some n)
    | none => .error (.invalid (.setting name value))

/-- The standard settings, changed by the variables that are set. -/
def ofEnvironment (environment : String → Option String) : Except Error Settings := do
  let vectorQubits ← readVariable environment wordBound vectorQubitsVariable
  let hyperSamples ← readVariable environment sampleBound hyperSamplesVariable
  let scratchBytes ← readVariable environment wordBound scratchBytesVariable
  let seed ← readVariable environment wordBound seedVariable
  return {
    vectorQubits := vectorQubits.getD standard.vectorQubits
    hyperSamples := hyperSamples.getD standard.hyperSamples
    scratchBytes := scratchBytes.getD standard.scratchBytes
    seed := seed }

end Settings

end GateNetwork
