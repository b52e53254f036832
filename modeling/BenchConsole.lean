import BenchConsole.Main
import BenchConsole.Proofs.Number.Numerals
import BenchConsole.Proofs.Number.Range
import BenchConsole.Proofs.Number.Integers
import BenchConsole.Proofs.Number.Comparison
import BenchConsole.Proofs.Text.Quotations
import BenchConsole.Proofs.Text.Words
import BenchConsole.Proofs.Text.Lines
import BenchConsole.Proofs.Text.LineEndings
import BenchConsole.Proofs.Argument
import BenchConsole.Proofs.Bench
import BenchConsole.Proofs.Command.Grammar
import BenchConsole.Proofs.Command.RoundTrip
import BenchConsole.Proofs.Command.Bounds
import BenchConsole.Proofs.Command.Spelling
import BenchConsole.Proofs.Command.SingleLine
import BenchConsole.Proofs.Binding.Replay
import BenchConsole.Proofs.Binding.Placement
import BenchConsole.Proofs.Binding.Fields
import BenchConsole.Proofs.Answer.Separator
import BenchConsole.Proofs.Answer.Magnitude
import BenchConsole.Proofs.Answer.Typing
import BenchConsole.Proofs.Answer
import BenchConsole.Proofs.Board.Magnitude
import BenchConsole.Proofs.Board.InPlace
import BenchConsole.Proofs.Board.Soundness
import BenchConsole.Proofs.Board.Runs
import BenchConsole.Proofs.Board.Isolation
import BenchConsole.Proofs.Board.Courses
import BenchConsole.Proofs.Board.SingleLine
import BenchConsole.Proofs.Board.Slots
import BenchConsole.Proofs.Board.Saved
import BenchConsole.Proofs.Board.Connections
import BenchConsole.Proofs.Board.Voltages
import BenchConsole.Proofs.Board.ReadBacks
import BenchConsole.Proofs.Bench.Answers
import BenchConsole.Proofs.Bench.Effects
import BenchConsole.Proofs.Bench.Rearrangement
import BenchConsole.Proofs.Bench.Listing
import BenchConsole.Proofs.Bench.Magnitude
import BenchConsole.Proofs.Bench.SingleLine
import BenchConsole.Proofs.Script.Interpreter
import BenchConsole.Proofs.Script.Blocks
import BenchConsole.Proofs.Relay
import BenchConsole.Proofs.Relay.Calls
import BenchConsole.Proofs.Relay.History
import BenchConsole.Proofs.Relay.Publication
import BenchConsole.Proofs.Relay.Independence
import BenchConsole.Proofs.Relay.Accounts
import BenchConsole.Proofs.Relay.Backlog
import BenchConsole.Proofs.Relay.Deferral
import BenchConsole.Proofs.Relay.Sentinels
import BenchConsole.Proofs.Relay.QueueRuns
import BenchConsole.Proofs.Relay.StoredText
import BenchConsole.Proofs.Session
import BenchConsole.Proofs.Session.Transcript
import BenchConsole.Proofs.Session.Printing
