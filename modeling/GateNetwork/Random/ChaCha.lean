/-!
# The ChaCha block function

A block is sixteen 32-bit words made from a key of eight words and a block number. The constants,
the key and the block number fill a four by four matrix, which is mixed by quarter rounds along its
columns and diagonals in turn and then added to the unmixed matrix.
-/

namespace GateNetwork

namespace ChaCha

/-- Sixteen words in row order. -/
abbrev Matrix := Vector UInt32 16

/-- A word turned left by `n` bits, for `n` from 1 to 31. -/
def rotate (w n : UInt32) : UInt32 := (w <<< n) ||| (w >>> (32 - n))

/-- Mixes the words at four places. -/
def quarterRound (m : Matrix) (i j k l : Fin 16) : Matrix :=
  let a := m[i] + m[j]
  let d := rotate (m[l] ^^^ a) 16
  let c := m[k] + d
  let b := rotate (m[j] ^^^ c) 12
  let a := a + b
  let d := rotate (d ^^^ a) 8
  let c := c + d
  let b := rotate (b ^^^ c) 7
  (((m.set i a).set j b).set k c).set l d

/-- One round along the columns and one along the diagonals. -/
def doubleRound (m : Matrix) : Matrix :=
  let m := quarterRound m 0 4 8 12
  let m := quarterRound m 1 5 9 13
  let m := quarterRound m 2 6 10 14
  let m := quarterRound m 3 7 11 15
  let m := quarterRound m 0 5 10 15
  let m := quarterRound m 1 6 11 12
  let m := quarterRound m 2 7 8 13
  quarterRound m 3 4 9 14

/-- The unmixed matrix: four constant words, the key, the block number as two words with the low one
first, and two words for the number of the stream, which is zero. -/
def initial (key : Vector UInt32 8) (block : UInt64) : Matrix :=
  #v[0x61707865, 0x3320646E, 0x79622D32, 0x6B206574,
    key[0], key[1], key[2], key[3], key[4], key[5], key[6], key[7],
    block.toUInt32, (block >>> 32).toUInt32, 0, 0]

/-- The block of the given number after twelve rounds. -/
def block (key : Vector UInt32 8) (number : UInt64) : Matrix :=
  let start := initial key number
  let mixed := Nat.repeat doubleRound 6 start
  Vector.zipWith (· + ·) start mixed

end ChaCha

end GateNetwork
