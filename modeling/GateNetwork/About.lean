/-!
# About the program
-/

namespace GateNetwork

/-- The name under which the program is known. -/
def programName : String := "tensornet-state"

/-- The version of the program. -/
def programVersion : String := "0.1.0"

end GateNetwork
