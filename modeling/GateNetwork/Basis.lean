import GateNetwork.Error
import GateNetwork.Size

/-!
# Basis states

A basis state is written with one digit per qubit, qubit 0 first. Its index has the digit of qubit
`q` as bit `q`, so the digits are read from the last to the first.
-/

namespace GateNetwork

/-- Takes one more digit into an index: the digits so far move up by one bit, within a word. -/
def shiftIn (digit index : Nat) : Nat := (2 * index + digit) % wordBound

/-- The index of a basis state of a register. -/
def basisIndex (digits : List Nat) (qubits : Nat) : Except Error Nat :=
  if digits.length ≠ qubits then .error (.invalid (.basisLength qubits digits.length))
  else if digits.any (1 < ·) then .error (.invalid .basisDigit)
  else if digits.isEmpty then .error (.invalid .basisEmpty)
  else .ok (digits.foldr shiftIn 0)

/-- The text of the basis state at an index, qubit 0 first. -/
def basisText (qubits index : Nat) : String :=
  String.ofList ((List.range qubits).map fun q => if index.testBit q then '1' else '0')

end GateNetwork
