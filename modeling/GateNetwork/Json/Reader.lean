import GateNetwork.Json.Value

/-!
# Reading JSON

A strict reader: blanks are space, tab, line feed and carriage return, strings hold no control
characters, numbers have no leading zeros, nothing follows the value. Each reading step returns what
it read and the characters after it.
-/

namespace GateNetwork

namespace Json

/-- Whether the character separates tokens. -/
def isSpace (c : Char) : Bool := c = ' ' || c = '\t' || c = '\n' || c = '\r'

/-- The text after leading blanks. -/
def skipSpace (cs : List Char) : List Char := cs.dropWhile isSpace

/-! ## Strings -/

/-- The value of a hexadecimal digit. -/
def hexValue? (c : Char) : Option Nat :=
  if '0' ≤ c ∧ c ≤ '9' then some (c.toNat - '0'.toNat)
  else if 'a' ≤ c ∧ c ≤ 'f' then some (c.toNat - 'a'.toNat + 10)
  else if 'A' ≤ c ∧ c ≤ 'F' then some (c.toNat - 'A'.toNat + 10)
  else none

/-- One unit of a string: a character, or a 16-bit number written as an escape. -/
inductive StringUnit where
  /-- A character that stands for itself or has an escape of its own. -/
  | char (c : Char)
  /-- A number of four hexadecimal digits. -/
  | code (n : Nat)

/-- The unit after a backslash. -/
def readEscape : List Char → Option (StringUnit × List Char)
  | '"' :: cs => some (.char '"', cs)
  | '\\' :: cs => some (.char '\\', cs)
  | '/' :: cs => some (.char '/', cs)
  | 'b' :: cs => some (.char (Char.ofNat 8), cs)
  | 'f' :: cs => some (.char (Char.ofNat 12), cs)
  | 'n' :: cs => some (.char '\n', cs)
  | 'r' :: cs => some (.char '\r', cs)
  | 't' :: cs => some (.char '\t', cs)
  | 'u' :: a :: b :: c :: d :: cs => do
    let a ← hexValue? a
    let b ← hexValue? b
    let c ← hexValue? c
    let d ← hexValue? d
    return (.code (((a * 16 + b) * 16 + c) * 16 + d), cs)
  | _ => none

/-- The units up to the closing quote. Each step takes at least one character, so as many steps as
there are characters suffice. -/
def readUnits : Nat → List Char → Option (List StringUnit × List Char)
  | 0, _ => none
  | fuel + 1, cs =>
    match cs with
    | [] => none
    | '"' :: rest => some ([], rest)
    | '\\' :: rest => do
      let (unit, rest) ← readEscape rest
      let (units, rest) ← readUnits fuel rest
      return (unit :: units, rest)
    | c :: rest => do
      if c.toNat < 0x20 then none
      let (units, rest) ← readUnits fuel rest
      return (.char c :: units, rest)

/-- The characters that units stand for: two numbers that form a surrogate pair are one character,
and half a pair is none. -/
def joinUnits : List StringUnit → Content
  | [] => some []
  | .char c :: units => (joinUnits units).map (c :: ·)
  | .code high :: .code low :: units =>
    if 0xD800 ≤ high ∧ high < 0xDC00 then
      if 0xDC00 ≤ low ∧ low < 0xE000 then
        (joinUnits units).map (Char.ofNat (0x10000 + (high - 0xD800) * 0x400 + (low - 0xDC00)) :: ·)
      else none
    else if 0xDC00 ≤ high ∧ high < 0xE000 then none
    else (joinUnits (.code low :: units)).map (Char.ofNat high :: ·)
  | .code n :: units =>
    if 0xD800 ≤ n ∧ n < 0xE000 then none else (joinUnits units).map (Char.ofNat n :: ·)

/-- A string after its opening quote. -/
def readString (cs : List Char) : Option (Content × List Char) := do
  let (units, rest) ← readUnits (cs.length + 1) cs
  return (joinUnits units, rest)

/-! ## Numbers -/

/-- A run of decimal digits. -/
def readDigitRun (cs : List Char) : List Char × List Char :=
  (cs.takeWhile Char.isDigit, cs.dropWhile Char.isDigit)

/-- The number that decimal digits spell. -/
def digitsValue (digits : List Char) : Nat :=
  digits.foldl (fun n c => 10 * n + (c.toNat - '0'.toNat)) 0

/-- A fraction, if one follows: whether there is one, and the rest. -/
def readFraction : List Char → Option (Bool × List Char)
  | '.' :: cs =>
    let (digits, rest) := readDigitRun cs
    if digits.isEmpty then none else some (true, rest)
  | cs => some (false, cs)

/-- The characters after an optional sign. -/
def skipSign : List Char → List Char
  | '+' :: cs => cs
  | '-' :: cs => cs
  | cs => cs

/-- An exponent, if one follows: whether there is one, and the rest. -/
def readExponent : List Char → Option (Bool × List Char)
  | c :: cs =>
    if c = 'e' || c = 'E' then
      let (digits, rest) := readDigitRun (skipSign cs)
      if digits.isEmpty then none else some (true, rest)
    else some (false, c :: cs)
  | [] => some (false, [])

/-- A number without its sign. -/
def readUnsigned (negative : Bool) (cs : List Char) : Option (Value × List Char) := do
  let (digits, rest) := readDigitRun cs
  if digits.isEmpty || (digits.length ≠ 1 && digits.head? == some '0') then none
  let (hasFraction, rest) ← readFraction rest
  let (hasExponent, rest) ← readExponent rest
  let plain := !negative && !hasFraction && !hasExponent
  return (.number (if plain then some (digitsValue digits) else none), rest)

/-- A number. -/
def readNumber : List Char → Option (Value × List Char)
  | '-' :: cs => readUnsigned true cs
  | cs => readUnsigned false cs

/-! ## Values -/

/-- The text after the given literal. -/
def readLiteral (literal : String) (v : Value) (cs : List Char) : Option (Value × List Char) :=
  if literal.toList.isPrefixOf cs then some (v, cs.drop literal.length) else none

mutual

/-- A value, after blanks. -/
def readValue : Nat → List Char → Option (Value × List Char)
  | 0, _ => none
  | fuel + 1, cs =>
    match skipSpace cs with
    | [] => none
    | c :: rest =>
      if c = '"' then do
        let (content, rest) ← readString rest
        return (.text content, rest)
      else if c = '[' then do
        match skipSpace rest with
        | ']' :: rest => return (.array [], rest)
        | rest =>
          let (items, rest) ← readItems fuel rest
          return (.array items, rest)
      else if c.toNat = 0x7B then do
        match skipSpace rest with
        | [] => none
        | d :: rest =>
          if d.toNat = 0x7D then return (.object [], rest)
          let (members, rest) ← readMembers fuel (d :: rest)
          return (.object members, rest)
      else if c = 'n' then readLiteral "null" .null (c :: rest)
      else if c = 't' then readLiteral "true" (.bool true) (c :: rest)
      else if c = 'f' then readLiteral "false" (.bool false) (c :: rest)
      else readNumber (c :: rest)

/-- The items of an array that has some, up to the closing bracket. -/
def readItems : Nat → List Char → Option (List Value × List Char)
  | 0, _ => none
  | fuel + 1, cs => do
    let (v, rest) ← readValue fuel cs
    match skipSpace rest with
    | ']' :: rest => return ([v], rest)
    | ',' :: rest =>
      let (vs, rest) ← readItems fuel rest
      return (v :: vs, rest)
    | _ => none

/-- The members of an object that has some, up to the closing brace. -/
def readMembers : Nat → List Char → Option (List (Content × Value) × List Char)
  | 0, _ => none
  | fuel + 1, cs =>
    match skipSpace cs with
    | '"' :: rest => do
      let (key, rest) ← readString rest
      match skipSpace rest with
      | ':' :: rest =>
        let (v, rest) ← readValue fuel rest
        match skipSpace rest with
        | ',' :: rest =>
          let (ms, rest) ← readMembers fuel rest
          return ((key, v) :: ms, rest)
        | c :: rest => if c.toNat = 0x7D then return ([(key, v)], rest) else none
        | [] => none
      | _ => none
    | _ => none

end

/-- The value that a text consists of, blanks around it allowed. Every second step takes a
character, so twice as many steps as there are characters suffice. -/
def read? (text : String) : Option Value := do
  let cs := text.toList
  let (v, rest) ← readValue (2 * cs.length + 2) cs
  if (skipSpace rest).isEmpty then return v else none

end Json

end GateNetwork
