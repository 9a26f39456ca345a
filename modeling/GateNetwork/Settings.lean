import GateNetwork.Random.Source
import GateNetwork.Scratch

/-!
# Settings

The knobs of a simulation: up to which register amplitudes are answered from the whole state vector,
how much a backend may search for a contraction path, how much scratch memory there is, and the seed
of the random source.
-/

namespace GateNetwork

/-- The settings of a simulation. -/
structure Settings where
  /-- The largest register whose amplitudes are answered from the whole state vector. -/
  vectorQubits : Nat := 30
  /-- Samples that a backend may take when it searches for a contraction path. -/
  hyperSamples : Nat := 8
  /-- The size of the scratch pool in bytes. -/
  scratchBytes : Nat := 256 * 1024 * 1024
  /-- The seed of the random source, if it is to be repeatable. -/
  seed : Option Nat := none
deriving DecidableEq

namespace Settings

/-- One more than the largest number of samples, a 32-bit number. -/
def sampleBound : Nat := twoPow 32

/-- The settings that hold unless others are given. -/
def standard : Settings := {}

/-- A scratch pool of the size that the settings ask for. -/
def scratch {α : Type} (s : Settings) : Scratch α := .ofBytes s.scratchBytes

/-- The random source of the settings; `fresh` is the seed where they name none. -/
def source (s : Settings) (fresh : UInt64) : RandomSource :=
  .ofSeed ((s.seed.map UInt64.ofNat).getD fresh)

end Settings

end GateNetwork
