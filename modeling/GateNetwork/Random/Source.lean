import GateNetwork.Random.ChaCha

/-!
# Random sources

A random source gives numbers from zero up to but not including one. It is the stream of ChaCha
blocks under a key that is expanded from a seed, read as pairs of words.
-/

namespace GateNetwork

/-- A position in a random stream. -/
structure RandomSource where
  /-- The key of the stream. -/
  key : Vector UInt32 8
  /-- The number of the next block. -/
  block : UInt64
  /-- The words of the current block that are still to be read. -/
  pending : List UInt32

namespace RandomSource

/-- One step of the generator that expands a seed. -/
def expandStep (state : UInt64) : UInt64 := state * 6364136223846793005 + 11634580027462260723

/-- The word that a state of the expansion gives: its high bits folded together and turned right by
its top five bits. -/
def expandWord (state : UInt64) : UInt32 :=
  let folded := (((state >>> 18) ^^^ state) >>> 27).toUInt32
  let turn := (state >>> 59).toUInt32
  (folded >>> turn) ||| (folded <<< ((32 - turn) % 32))

/-- The state of the expansion after so many steps. -/
def expandState (seed : UInt64) (steps : Nat) : UInt64 := Nat.repeat expandStep steps seed

/-- The source with the given seed, at its start. -/
def ofSeed (seed : UInt64) : RandomSource where
  key := Vector.ofFn fun i : Fin 8 => expandWord (expandState seed (i.val + 1))
  block := 0
  pending := []

/-- The number `bits / 2^53` made of the upper 53 bits of two words, the low word first. -/
def unit (low high : UInt32) : Float :=
  let bits := (high.toUInt64 <<< 32) ||| low.toUInt64
  (bits >>> 11).toFloat / 9007199254740992

/-- The next number of the stream. -/
def next (r : RandomSource) : Float × RandomSource :=
  match r.pending with
  | low :: high :: rest => (unit low high, { r with pending := rest })
  | _ =>
    let words := ChaCha.block r.key r.block
    (unit words[0] words[1], ⟨r.key, r.block + 1, words.toList.drop 2⟩)

end RandomSource

end GateNetwork
