import TrafficReplay.Calendar
import TrafficReplay.Checksum
import TrafficReplay.CommandLine.Arguments
import TrafficReplay.CommandLine.EnvironmentFile
import TrafficReplay.CommandLine.Inspection
import TrafficReplay.CommandLine.LogFilter
import TrafficReplay.CommandLine.Outcome
import TrafficReplay.CommandLine.Playback
import TrafficReplay.CommandLine.TerminalLine
import TrafficReplay.CommandLine.ValuePattern
import TrafficReplay.Decimal.Layout
import TrafficReplay.Decimal.Reading
import TrafficReplay.Decimal.Shortest
import TrafficReplay.Decimal.Signed
import TrafficReplay.Delivery
import TrafficReplay.Delivery.Schedule
import TrafficReplay.Error
import TrafficReplay.Fault
import TrafficReplay.FileTree
import TrafficReplay.Glob.Pattern
import TrafficReplay.Glob.Search
import TrafficReplay.Gzip.Archive
import TrafficReplay.Gzip.Block
import TrafficReplay.Gzip.Code
import TrafficReplay.Gzip.Decoder
import TrafficReplay.Gzip.Header
import TrafficReplay.Gzip.Inflate
import TrafficReplay.Gzip.Output
import TrafficReplay.Log
import TrafficReplay.Merge
import TrafficReplay.Pacing
import TrafficReplay.Proofs.Merge.Blocks
import TrafficReplay.Proofs.Merge.Draining
import TrafficReplay.Proofs.Merge.Loop
import TrafficReplay.Proofs.Merge.Selection
import TrafficReplay.Proofs.Merge.StableOrder
import TrafficReplay.Proofs.Record.Lines
import TrafficReplay.Proofs.Record.Readings
import TrafficReplay.Proofs.Record.RoundTrip
import TrafficReplay.Proofs.Replay.Emission
import TrafficReplay.Proofs.Replay.Reads
import TrafficReplay.Proofs.Replay.Round
import TrafficReplay.Proofs.Source.Captures
import TrafficReplay.Record.Framing
import TrafficReplay.Record.Kind
import TrafficReplay.Record.Metadata
import TrafficReplay.Replay.Pump
import TrafficReplay.Replay.Session
import TrafficReplay.Resolve
import TrafficReplay.Settings
import TrafficReplay.Source
import TrafficReplay.StopReason
import TrafficReplay.Text.Alphanumeric
import TrafficReplay.Text.Blank
import TrafficReplay.Text.Pieces
import TrafficReplay.Text.Printable
import TrafficReplay.Text.Quoted
import TrafficReplay.Text.Ranges
import TrafficReplay.Text.Utf8
import TrafficReplay.Main
import TrafficReplay.Proofs.Record.NormalForm
import TrafficReplay.Proofs.Decimal.Signed
import TrafficReplay.Proofs.Record.Entries
import TrafficReplay.Proofs.Record.Places
import TrafficReplay.Proofs.Text.Breaks
import TrafficReplay.Proofs.Replay.Looping
import TrafficReplay.Proofs.Merge.Determinacy
import TrafficReplay.Proofs.Source.Contents
import TrafficReplay.Proofs.Merge.Cut
import TrafficReplay.Proofs.Replay.Faults
import TrafficReplay.Proofs.Replay.Calls
import TrafficReplay.Proofs.Replay.Exchange
import TrafficReplay.Proofs.Replay.Moves
import TrafficReplay.Proofs.Replay.Account
import TrafficReplay.Proofs.Replay.Serving
import TrafficReplay.Proofs.Replay.Solo
import TrafficReplay.Proofs.Replay.HandOff
import TrafficReplay.Proofs.Replay.Stopping
import TrafficReplay.Proofs.Replay.Overrun
import TrafficReplay.Proofs.Replay.Summaries
import TrafficReplay.Proofs.Gzip.Locality
import TrafficReplay.Proofs.Gzip.Members
import TrafficReplay.Proofs.Source.Alike
import TrafficReplay.Proofs.Source.History
import TrafficReplay.Proofs.Replay.Interchange
import TrafficReplay.Proofs.Source.Framable
import TrafficReplay.Proofs.Replay.Counting
import TrafficReplay.Proofs.Playback.Transfer
import TrafficReplay.Proofs.Playback.Keeping
import TrafficReplay.Proofs.Files.Nodes
import TrafficReplay.Proofs.Files.Opening
import TrafficReplay.Proofs.Replay.Budget
import TrafficReplay.Proofs.Playback.Runs
import TrafficReplay.Proofs.Playback.Output
import TrafficReplay.Proofs.Files.Names
import TrafficReplay.Proofs.Playback.Merged
import TrafficReplay.Proofs.Playback.Repetition
import TrafficReplay.Proofs.Playback.Overwriting
import TrafficReplay.Proofs.Replay.Course
import TrafficReplay.Proofs.Inspection.Listing
import TrafficReplay.Proofs.Inspection.Agreement
import TrafficReplay.Proofs.Inspection.Order
import TrafficReplay.Proofs.Delivery.Faults
import TrafficReplay.Proofs.Record.Concatenation
import TrafficReplay.Proofs.Record.Segments
import TrafficReplay.Proofs.Decimal.Numerals
import TrafficReplay.Proofs.Record.Grammar
import TrafficReplay.Proofs.Numbers.Binary64
import TrafficReplay.Proofs.Pacing.Answers
import TrafficReplay.Proofs.Pacing.Totals
import TrafficReplay.Proofs.Source.Refusals
import TrafficReplay.Proofs.Replay.Starting
import TrafficReplay.Proofs.Replay.WholeSteps
import TrafficReplay.Proofs.Replay.Progress
import TrafficReplay.Proofs.Numbers.Rounding
import TrafficReplay.Proofs.Numbers.Quotients
import TrafficReplay.Proofs.Pacing.Speeds
import TrafficReplay.Proofs.Replay.Forms
import TrafficReplay.Proofs.Calendar.Days
import TrafficReplay.Proofs.Calendar.Reading
import TrafficReplay.Proofs.CommandLine.Reports
import TrafficReplay.Proofs.Merge.Winner
