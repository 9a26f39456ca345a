import GateNetwork.Text.Hidden

/-!
# Quoted text

A value is quoted in messages so that its ends and its invisible characters can be seen: it stands
between double quotes, a quote and a backslash get a backslash, tab, line feed, carriage return and
NUL have escapes of one letter, and any other character without a visible form is written by its
number.
-/

namespace GateNetwork

namespace Quoted

/-- The number of a character in lower-case hexadecimal digits. -/
def hexDigits (n : Nat) : List Char := Nat.toDigits 16 n

/-- The text that stands for a character between the quotes. -/
def encodeChar (c : Char) : List Char :=
  if c = '"' then ['\\', '"']
  else if c = '\\' then ['\\', '\\']
  else if c = '\t' then ['\\', 't']
  else if c = '\n' then ['\\', 'n']
  else if c = '\r' then ['\\', 'r']
  else if c = Char.ofNat 0 then ['\\', '0']
  else if isHidden c then ['\\', 'u', Char.ofNat 0x7B] ++ hexDigits c.toNat ++ [Char.ofNat 0x7D]
  else [c]

/-- The characters between the quotes. -/
def encode (cs : List Char) : List Char := cs.flatMap encodeChar

end Quoted

/-- A text between double quotes, with what cannot be shown written as escapes. -/
def quoted (s : String) : String := "\"" ++ String.ofList (Quoted.encode s.toList) ++ "\""

end GateNetwork
