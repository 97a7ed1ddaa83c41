import InOrder.Activity
import InOrder.Bytes
import InOrder.Command.Arguments
import InOrder.Command.Outcome
import InOrder.Config.Basic
import InOrder.Config.Decode
import InOrder.Decimal.Dyadic
import InOrder.Decimal.Fixed
import InOrder.Decimal.Nearest
import InOrder.Decimal.Shortest
import InOrder.Edge
import InOrder.Error
import InOrder.Event
import InOrder.Host
import InOrder.Image
import InOrder.Isa
import InOrder.Json.Lexeme
import InOrder.Json.Pretty
import InOrder.Json.Reader
import InOrder.Json.Value
import InOrder.Log.Directive
import InOrder.Log.Filter
import InOrder.Main
import InOrder.Pattern.Bracket
import InOrder.Pattern.Escape
import InOrder.Pattern.WellFormed
import InOrder.Payload.Basic
import InOrder.Payload.Bundle
import InOrder.Payload.Line
import InOrder.Payload.Redirect
import InOrder.Pipeline.Basic
import InOrder.Pipeline.Cycle
import InOrder.Program.Load
import InOrder.Program.Text
import InOrder.Proofs.Activity
import InOrder.Proofs.Agreement
import InOrder.Proofs.Backpressure
import InOrder.Proofs.Bubbles
import InOrder.Proofs.Bundles
import InOrder.Proofs.Checkpoint
import InOrder.Proofs.Completion
import InOrder.Proofs.Conservation
import InOrder.Proofs.Contents
import InOrder.Proofs.Corruption
import InOrder.Proofs.Course
import InOrder.Proofs.Dead
import InOrder.Proofs.DeadBits
import InOrder.Proofs.Delay
import InOrder.Proofs.Drain
import InOrder.Proofs.Evaluations
import InOrder.Proofs.Flight
import InOrder.Proofs.Flips
import InOrder.Proofs.History
import InOrder.Proofs.Idling
import InOrder.Proofs.Images
import InOrder.Proofs.Injections
import InOrder.Proofs.Isolation
import InOrder.Proofs.Json.Lexemes
import InOrder.Proofs.Json.Reading
import InOrder.Proofs.Jumps
import InOrder.Proofs.Lane.Basic
import InOrder.Proofs.Lane.Counted
import InOrder.Proofs.Lane.Halt
import InOrder.Proofs.Lane.Numbers
import InOrder.Proofs.Lane.Rest
import InOrder.Proofs.Lane.Route
import InOrder.Proofs.Lane.Sifted
import InOrder.Proofs.Lane.Stream
import InOrder.Proofs.Lane.UpTo
import InOrder.Proofs.Machine.Basic
import InOrder.Proofs.Machine.Clearing
import InOrder.Proofs.Machine.Counted
import InOrder.Proofs.Machine.Drain
import InOrder.Proofs.Machine.Progress
import InOrder.Proofs.Machine.Rest
import InOrder.Proofs.Machine.Solo
import InOrder.Proofs.Masked
import InOrder.Proofs.Ordinal
import InOrder.Proofs.Overrides
import InOrder.Proofs.Pipeline.Dead
import InOrder.Proofs.Pipeline.Faults
import InOrder.Proofs.Pipeline.Fitted
import InOrder.Proofs.Pipeline.Lag
import InOrder.Proofs.Pipeline.Lanes
import InOrder.Proofs.Pipeline.Lifecycle
import InOrder.Proofs.Pipeline.Masked
import InOrder.Proofs.Pipeline.Sound
import InOrder.Proofs.Pipeline.Start
import InOrder.Proofs.Pipeline.Steady
import InOrder.Proofs.Pipeline.UnitData
import InOrder.Proofs.Pipeline.Watch
import InOrder.Proofs.Program.Formats
import InOrder.Proofs.Program.Grammar
import InOrder.Proofs.Program.Lines
import InOrder.Proofs.Program.Numerals
import InOrder.Proofs.Quiescence
import InOrder.Proofs.Redirection
import InOrder.Proofs.Refinement
import InOrder.Proofs.Requirements
import InOrder.Proofs.Resumption
import InOrder.Proofs.Returns
import InOrder.Proofs.Session
import InOrder.Proofs.Settings
import InOrder.Proofs.Signals
import InOrder.Proofs.Signature
import InOrder.Proofs.Stability
import InOrder.Proofs.Stage.Conserved
import InOrder.Proofs.Stage.Discard
import InOrder.Proofs.Stage.Execute
import InOrder.Proofs.Stage.Flight
import InOrder.Proofs.Stage.Issue
import InOrder.Proofs.Stage.Later
import InOrder.Proofs.Stage.LineFetch
import InOrder.Proofs.Stage.Quiet
import InOrder.Proofs.Stage.Room
import InOrder.Proofs.Stage.Slicer
import InOrder.Proofs.Stage.Squash
import InOrder.Proofs.Stage.Supply
import InOrder.Proofs.Stage.Timing
import InOrder.Proofs.Stage.Turns
import InOrder.Proofs.Stage.Units
import InOrder.Proofs.Stream
import InOrder.Proofs.Timing
import InOrder.Proofs.Transit
import InOrder.Proofs.Transparency
import InOrder.Proofs.Window
import InOrder.Queue
import InOrder.Register.Bank
import InOrder.Register.Basic
import InOrder.Register.DelayLine
import InOrder.Report
import InOrder.Simulator
import InOrder.Snapshot
import InOrder.Stage.Decode
import InOrder.Stage.Execute
import InOrder.Stage.LineFetch
import InOrder.Stage.Null
import InOrder.Stage.Port
import InOrder.Stage.Set
import InOrder.Stage.Slicer
import InOrder.Stats
import InOrder.Text.Alphanumeric
import InOrder.Text.Blank
import InOrder.Text.Bounds
import InOrder.Text.Column
import InOrder.Text.Concealed
import InOrder.Text.Hex
import InOrder.Text.Letter
import InOrder.Text.Quoted
