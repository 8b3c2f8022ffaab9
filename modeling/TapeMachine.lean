import TapeMachine.Batches
import TapeMachine.Binary.Configuration
import TapeMachine.Binary.Cursor
import TapeMachine.Binary.Definition
import TapeMachine.Bytes.Base64
import TapeMachine.Bytes.Hex
import TapeMachine.Bytes.Word
import TapeMachine.Command.App
import TapeMachine.Command.Arguments
import TapeMachine.Command.Basic
import TapeMachine.Command.Inspect
import TapeMachine.Command.Menu
import TapeMachine.Command.Pool
import TapeMachine.Command.Trace
import TapeMachine.Control.Configuration
import TapeMachine.Control.Editing
import TapeMachine.Control.Given
import TapeMachine.Control.Label
import TapeMachine.Control.State
import TapeMachine.Control.Transition
import TapeMachine.Decimal.Binary64
import TapeMachine.Decimal.Literal
import TapeMachine.Decimal.Numeral
import TapeMachine.Decimal.Power
import TapeMachine.Decimal.Shortest
import TapeMachine.Definition.Basic
import TapeMachine.Definition.Line
import TapeMachine.Definition.LinePattern
import TapeMachine.Definition.Pattern
import TapeMachine.Definition.Printer
import TapeMachine.Definition.Reader
import TapeMachine.Definition.Stored
import TapeMachine.Delay
import TapeMachine.Fault
import TapeMachine.Json.Basic
import TapeMachine.Json.Entries
import TapeMachine.Json.Equality
import TapeMachine.Json.Printer
import TapeMachine.Json.Reader
import TapeMachine.Machine.Basic
import TapeMachine.Machine.Bench
import TapeMachine.Machine.Watched
import TapeMachine.Main
import TapeMachine.Observation
import TapeMachine.Picture
import TapeMachine.Pool.Checkpoint
import TapeMachine.Pool.Entry
import TapeMachine.Pool.Listing
import TapeMachine.Pool.Simulation
import TapeMachine.Pool.Summary
import TapeMachine.Pool.Words
import TapeMachine.Proofs.Accumulation
import TapeMachine.Proofs.AllWords
import TapeMachine.Proofs.Alphabet
import TapeMachine.Proofs.Answers
import TapeMachine.Proofs.Base64
import TapeMachine.Proofs.Base64Payload
import TapeMachine.Proofs.BatchLedger
import TapeMachine.Proofs.BatchRuns
import TapeMachine.Proofs.Batching
import TapeMachine.Proofs.BinaryForm
import TapeMachine.Proofs.BinaryRoundTrip
import TapeMachine.Proofs.BytesToText
import TapeMachine.Proofs.CallRuns
import TapeMachine.Proofs.Decoding
import TapeMachine.Proofs.DefinitionForm
import TapeMachine.Proofs.Editing
import TapeMachine.Proofs.EditsInPlace
import TapeMachine.Proofs.Encoding
import TapeMachine.Proofs.EqualDefinitions
import TapeMachine.Proofs.EventLogs
import TapeMachine.Proofs.FailedListings
import TapeMachine.Proofs.FailedRestarts
import TapeMachine.Proofs.FileText
import TapeMachine.Proofs.FiledStates
import TapeMachine.Proofs.FinishedLines
import TapeMachine.Proofs.FirstBadLine
import TapeMachine.Proofs.HistoryRows
import TapeMachine.Proofs.Hooks
import TapeMachine.Proofs.InspectEndings
import TapeMachine.Proofs.InspectionTexts
import TapeMachine.Proofs.IntegerSymbols
import TapeMachine.Proofs.JobRuns
import TapeMachine.Proofs.JsonScalar
import TapeMachine.Proofs.JsonText
import TapeMachine.Proofs.LastWrites
import TapeMachine.Proofs.Ledger
import TapeMachine.Proofs.LineForms
import TapeMachine.Proofs.LineGrammar
import TapeMachine.Proofs.LineOrder
import TapeMachine.Proofs.LinePatterns
import TapeMachine.Proofs.LineReading
import TapeMachine.Proofs.ListedPools
import TapeMachine.Proofs.LoadedDefinitions
import TapeMachine.Proofs.Locality
import TapeMachine.Proofs.Lookup
import TapeMachine.Proofs.Meaning
import TapeMachine.Proofs.MenuEndings
import TapeMachine.Proofs.MenuFaults
import TapeMachine.Proofs.MenuRounds
import TapeMachine.Proofs.MenuSettings
import TapeMachine.Proofs.Merging
import TapeMachine.Proofs.Outcome
import TapeMachine.Proofs.OutcomeLogs
import TapeMachine.Proofs.Patterns
import TapeMachine.Proofs.Pieces
import TapeMachine.Proofs.Policies
import TapeMachine.Proofs.PoolCalls
import TapeMachine.Proofs.PoolFaults
import TapeMachine.Proofs.PoolHistory
import TapeMachine.Proofs.PoolPlaces
import TapeMachine.Proofs.Prefixes
import TapeMachine.Proofs.PrintedLines
import TapeMachine.Proofs.QuietJobs
import TapeMachine.Proofs.Reencoding
import TapeMachine.Proofs.ReportedFaults
import TapeMachine.Proofs.Resuming
import TapeMachine.Proofs.RowReadings
import TapeMachine.Proofs.RunStart
import TapeMachine.Proofs.ScalarText
import TapeMachine.Proofs.SharedControl
import TapeMachine.Proofs.StartAgain
import TapeMachine.Proofs.StepBounds
import TapeMachine.Proofs.StorePlaces
import TapeMachine.Proofs.TableCells
import TapeMachine.Proofs.Tallies
import TapeMachine.Proofs.TameTexts
import TapeMachine.Proofs.TapeCells
import TapeMachine.Proofs.TextRoundTrip
import TapeMachine.Proofs.TotalTape
import TapeMachine.Proofs.TraceFaults
import TapeMachine.Proofs.Tracing
import TapeMachine.Proofs.TypedSettings
import TapeMachine.Proofs.Unasked
import TapeMachine.Proofs.Utf8
import TapeMachine.Proofs.Verdicts
import TapeMachine.Proofs.WellFormed
import TapeMachine.Proofs.WordReports
import TapeMachine.Proofs.WordResults
import TapeMachine.Proofs.WrittenDefinition
import TapeMachine.Quantity
import TapeMachine.Recent
import TapeMachine.RunLog
import TapeMachine.Session
import TapeMachine.Settings
import TapeMachine.Settings.Stored
import TapeMachine.StandIn
import TapeMachine.Store.Basic
import TapeMachine.Store.Path
import TapeMachine.Symbol
import TapeMachine.Tape
import TapeMachine.Text.Blank
import TapeMachine.Text.CodePoint
import TapeMachine.Text.Lines
import TapeMachine.Text.Quoted
import TapeMachine.Text.Unprintable
import TapeMachine.Text.Utf8
import TapeMachine.Trace
import TapeMachine.View.Inspection
import TapeMachine.View.Plain
import TapeMachine.View.Report
import TapeMachine.View.Screen
import TapeMachine.View.Styled
