import Scannerless.Cursor
import Scannerless.Cursor.Report
import Scannerless.Demo
import Scannerless.Diagnostic
import Scannerless.Engine
import Scannerless.Fault
import Scannerless.Files.FileTree
import Scannerless.Files.OpenError
import Scannerless.Files.OpenFile
import Scannerless.Grammar.EscapedString
import Scannerless.Grammar.Query
import Scannerless.Main
import Scannerless.Outcome
import Scannerless.Parser.Basic
import Scannerless.Parser.Build
import Scannerless.Parser.Label
import Scannerless.Parser.Levels
import Scannerless.Parser.Matching
import Scannerless.Parser.Repetition
import Scannerless.Parser.Run
import Scannerless.Parser.Whitespace
import Scannerless.Position
import Scannerless.Position.LineTable
import Scannerless.Proofs.Ahead
import Scannerless.Proofs.Blanks
import Scannerless.Proofs.Calls
import Scannerless.Proofs.Codec
import Scannerless.Proofs.Failures
import Scannerless.Proofs.Faults
import Scannerless.Proofs.Files.Agreement
import Scannerless.Proofs.Files.Following
import Scannerless.Proofs.Files.KeepingSource
import Scannerless.Proofs.Files.Simulation
import Scannerless.Proofs.FoldedLiterals
import Scannerless.Proofs.Folding
import Scannerless.Proofs.Iteration
import Scannerless.Proofs.Lines.Context
import Scannerless.Proofs.Lines.Partition
import Scannerless.Proofs.Lines.Positions
import Scannerless.Proofs.Lines.Table
import Scannerless.Proofs.LiteralsAsRunes
import Scannerless.Proofs.Matchers
import Scannerless.Proofs.Peg.Completeness
import Scannerless.Proofs.Peg.Expression
import Scannerless.Proofs.Peg.Leaves
import Scannerless.Proofs.Peg.Reading
import Scannerless.Proofs.Peg.Soundness
import Scannerless.Proofs.PositionIndependence
import Scannerless.Proofs.PreviousResult
import Scannerless.Proofs.Progress
import Scannerless.Proofs.QueryText.Language
import Scannerless.Proofs.QueryText.Parse
import Scannerless.Proofs.QueryText.Words
import Scannerless.Proofs.QuotedString.Body
import Scannerless.Proofs.QuotedString.Escape
import Scannerless.Proofs.QuotedString.Grammar
import Scannerless.Proofs.QuotedString.Read
import Scannerless.Proofs.Reports
import Scannerless.Proofs.Resynchronising
import Scannerless.Proofs.Rewinding
import Scannerless.Proofs.RunSteps
import Scannerless.Proofs.RuneDecoding
import Scannerless.Proofs.RuneLoops
import Scannerless.Proofs.RuneWidth
import Scannerless.Proofs.Runes
import Scannerless.Proofs.Step
import Scannerless.Proofs.StrictDecoding
import Scannerless.Proofs.SubstringSearch
import Scannerless.Proofs.Termination.Level
import Scannerless.Proofs.Termination.Ranking
import Scannerless.Proofs.TokenSpans
import Scannerless.Proofs.Yields
import Scannerless.Source
import Scannerless.Source.Rune
import Scannerless.Span
import Scannerless.Text.Blank
import Scannerless.Text.CaseFolding
import Scannerless.Text.CodeRanges
import Scannerless.Text.DecimalDigit
import Scannerless.Text.Letter
import Scannerless.Text.Numeral
import Scannerless.Text.Printable
import Scannerless.Text.Quoted
import Scannerless.Text.Utf8
import Scannerless.Text.Utf8Width
import Scannerless.Value
import Scannerless.Value.Kind
import Scannerless.Value.Written
