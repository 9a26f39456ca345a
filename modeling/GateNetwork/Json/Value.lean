/-!
# JSON values

A JSON text as a value. Numbers keep only what settings and counts need: a number written as a plain
whole number has that value, any other number has none. Members of an object stay in the order of
the text, repeated keys included.
-/

namespace GateNetwork

namespace Json

/-- The characters of a JSON string; none if an escape names half of a surrogate pair. -/
abbrev Content := Option (List Char)

/-- A JSON value. -/
inductive Value where
  /-- The literal `null`. -/
  | null
  /-- The literals `true` and `false`. -/
  | bool (value : Bool)
  /-- A number, with its value if it is written without sign, fraction and exponent. -/
  | number (whole : Option Nat)
  /-- A string. -/
  | text (content : Content)
  /-- An array. -/
  | array (items : List Value)
  /-- An object. -/
  | object (members : List (Content × Value))

namespace Value

/-- The value of a whole number below `bound`. -/
def whole? (bound : Nat) : Value → Option Nat
  | number (some n) => if n < bound then some n else none
  | _ => none

/-- A value that may also be `null`, which stands for none. -/
def orNull {α : Type} (read : Value → Option α) : Value → Option (Option α)
  | null => some none
  | v => (read v).map some

end Value

/-- The value of the member with the given key: none inside if there is no such member, and nothing
at all if there are several. -/
def member? (members : List (Content × Value)) (key : String) : Option (Option Value) :=
  match members.filter (fun m => m.1 == some key.toList) with
  | [] => some none
  | [m] => some (some m.2)
  | _ => none

/-- Reads an optional member, which takes the given value if it is absent. -/
def optional? {α : Type} (members : List (Content × Value)) (key : String)
    (read : Value → Option α) (absent : α) : Option α :=
  match member? members key with
  | some (some v) => read v
  | some none => some absent
  | none => none

/-- Reads a member that must be there. -/
def required? {α : Type} (members : List (Content × Value)) (key : String)
    (read : Value → Option α) : Option α :=
  match member? members key with
  | some (some v) => read v
  | _ => none

/-- Whether all keys can be read as text. -/
def keysReadable (members : List (Content × Value)) : Bool := members.all fun m => m.1.isSome

/-- Reads one of the given names. A name stands alone as a string, or as the only key of an object
whose value is `null`. -/
def readName? {α : Type} (names : List (String × α)) : Value → Option α
  | .text (some cs) => names.lookup (String.ofList cs)
  | .object [(some cs, .null)] => names.lookup (String.ofList cs)
  | _ => none

end Json

end GateNetwork
