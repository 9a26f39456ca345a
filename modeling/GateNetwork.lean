import GateNetwork.About
import GateNetwork.Action
import GateNetwork.Amplitude
import GateNetwork.Arena
import GateNetwork.Arena.Staging
import GateNetwork.Arena.Store
import GateNetwork.Attempt
import GateNetwork.Backend
import GateNetwork.Backend.Dense
import GateNetwork.Basis
import GateNetwork.Circuit
import GateNetwork.Decimal.Dyadic
import GateNetwork.Decimal.Fused
import GateNetwork.Decimal.Rounded
import GateNetwork.Decimal.Shortest
import GateNetwork.Error
import GateNetwork.Gate
import GateNetwork.Handle
import GateNetwork.Histogram
import GateNetwork.Json.Reader
import GateNetwork.Json.Records
import GateNetwork.Json.Value
import GateNetwork.Json.Written
import GateNetwork.Length
import GateNetwork.Network
import GateNetwork.NetworkState
import GateNetwork.NetworkState.Dump
import GateNetwork.NetworkState.Export
import GateNetwork.NetworkState.Overlap
import GateNetwork.NetworkState.Sampling
import GateNetwork.Operator
import GateNetwork.Outcome
import GateNetwork.Power
import GateNetwork.Proofs.Access
import GateNetwork.Proofs.Action
import GateNetwork.Proofs.AdjointGates
import GateNetwork.Proofs.Alike
import GateNetwork.Proofs.Amplitude
import GateNetwork.Proofs.Answers
import GateNetwork.Proofs.Appends
import GateNetwork.Proofs.Arena
import GateNetwork.Proofs.ArenaHistory
import GateNetwork.Proofs.Basis
import GateNetwork.Proofs.BraSide
import GateNetwork.Proofs.Coherence
import GateNetwork.Proofs.Commuting
import GateNetwork.Proofs.Contraction
import GateNetwork.Proofs.Contractions
import GateNetwork.Proofs.ControlBlocks
import GateNetwork.Proofs.DenseErrors
import GateNetwork.Proofs.DenseWrites
import GateNetwork.Proofs.Distribution
import GateNetwork.Proofs.Encodings
import GateNetwork.Proofs.Entangling
import GateNetwork.Proofs.FromVector
import GateNetwork.Proofs.Fusing
import GateNetwork.Proofs.Histograms
import GateNetwork.Proofs.InnerProduct
import GateNetwork.Proofs.Interleaving
import GateNetwork.Proofs.Isometry
import GateNetwork.Proofs.JoinTrace
import GateNetwork.Proofs.Joining
import GateNetwork.Proofs.Leases
import GateNetwork.Proofs.MostFrequent
import GateNetwork.Proofs.Network
import GateNetwork.Proofs.OperatorMatrix
import GateNetwork.Proofs.OverlapTrace
import GateNetwork.Proofs.Placing
import GateNetwork.Proofs.Relabelling
import GateNetwork.Proofs.Release
import GateNetwork.Proofs.Replacing
import GateNetwork.Proofs.Reversible
import GateNetwork.Proofs.Rounds
import GateNetwork.Proofs.Sampling
import GateNetwork.Proofs.Scopes
import GateNetwork.Proofs.Serving
import GateNetwork.Proofs.Slices
import GateNetwork.Proofs.Staging
import GateNetwork.Proofs.Tally
import GateNetwork.Proofs.VectorSizes
import GateNetwork.Proofs.Watching
import GateNetwork.Proofs.Widening
import GateNetwork.Proofs.Wires
import GateNetwork.Proofs.Words
import GateNetwork.Random.ChaCha
import GateNetwork.Random.Source
import GateNetwork.Representation
import GateNetwork.Scalar
import GateNetwork.Scratch
import GateNetwork.Settings
import GateNetwork.Settings.Environment
import GateNetwork.Sink
import GateNetwork.Size
import GateNetwork.State
import GateNetwork.StateVector
import GateNetwork.Tensor
import GateNetwork.Text.Blank
import GateNetwork.Text.Hidden
import GateNetwork.Text.Quoted
import GateNetwork.Wires
