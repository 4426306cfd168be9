import TapeMachine.Api.Service
import TapeMachine.Console.Call
import TapeMachine.Json.Printer
import TapeMachine.Launcher
import TapeMachine.Main
import TapeMachine.Monitor
import TapeMachine.Registry.Call
import TapeMachine.Proofs.Machine.Runs
import TapeMachine.Proofs.Machine.Budget
import TapeMachine.Proofs.Block
import TapeMachine.Proofs.Block.Layout
import TapeMachine.Proofs.Machine.Safety
import TapeMachine.Proofs.Block.Reading
import TapeMachine.Proofs.Block.Spelling
import TapeMachine.Proofs.Source.OnePass
import TapeMachine.Proofs.Source.Acceptance
import TapeMachine.Proofs.Block.Pairing
import TapeMachine.Proofs.Block.SpellLength
import TapeMachine.Proofs.RoundTrip
import TapeMachine.Proofs.Block.Evaluation
import TapeMachine.Proofs.Block.Adequacy
import TapeMachine.Proofs.Block.Cost
import TapeMachine.Proofs.Block.Equivalence
import TapeMachine.Proofs.Block.Normalization
import TapeMachine.Proofs.Walk
import TapeMachine.Proofs.Correctness
import TapeMachine.Proofs.Source.Depth
import TapeMachine.Proofs.Source.Faults
import TapeMachine.Proofs.Machine.Lockstep
import TapeMachine.Proofs.Machine.InMemory
import TapeMachine.Proofs.Api.Run
import TapeMachine.Proofs.CommandLine
import TapeMachine.Proofs.Registry.Effect
import TapeMachine.Proofs.Registry.History
import TapeMachine.Proofs.CommandLine.Discipline
import TapeMachine.Proofs.Machine.Resumption
import TapeMachine.Proofs.Api.History
import TapeMachine.Proofs.Api.Lifecycle
import TapeMachine.Proofs.Api.Stored
import TapeMachine.Proofs.Api.Posting
import TapeMachine.Proofs.Api.View
import TapeMachine.Proofs.Source.Tokens
import TapeMachine.Proofs.Source.Folding
import TapeMachine.Proofs.Machine.Frame
import TapeMachine.Proofs.Source.Comments
import TapeMachine.Proofs.Block.Weld
import TapeMachine.Proofs.Block.Sequence
import TapeMachine.Proofs.Concatenation
import TapeMachine.Proofs.Machine.Placement
import TapeMachine.Proofs.Machine.Rotation
import TapeMachine.Proofs.Machine.Span
import TapeMachine.Proofs.Machine.UnreadInput
import TapeMachine.Proofs.Console.Calls
