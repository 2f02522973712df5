import Peg.Base64
import Peg.Contract
import Peg.Contract.Document
import Peg.Decimal.Shortest
import Peg.Diff.Basic
import Peg.Diff.Document
import Peg.Emit.Options
import Peg.Emit.Trace
import Peg.Escape.Literal
import Peg.Expression.Basic
import Peg.Expression.Document
import Peg.Expression.Reader
import Peg.Grammar.Basic
import Peg.Grammar.Document
import Peg.Grammar.Reader
import Peg.Json.Basic
import Peg.Json.Document
import Peg.Json.Draft
import Peg.Json.Number
import Peg.Json.Printer
import Peg.Json.Reading
import Peg.Json.Record
import Peg.Json.Scanner
import Peg.Presence
import Peg.Proofs.Escape.Codes
import Peg.Proofs.Text.Units
import Peg.Text.Blank
import Peg.Text.Block
import Peg.Text.CodeRanges
import Peg.Text.CodeUnit
import Peg.Text.Hex
import Peg.Text.Quoted
import Peg.Text.Unprintable
import Peg.Text.Visible
import Peg.Proofs.Escape.Denotation
import Peg.Proofs.Json.Fuel
import Peg.Proofs.Json.Scanning
import Peg.Proofs.Json.Documents
import Peg.Proofs.Json.Records
import Peg.Proofs.Expression.Nesting
import Peg.Proofs.Expression.RoundTrip
import Peg.Proofs.Grammar.RoundTrip
import Peg.Proofs.Diff.Numbering
import Peg.Proofs.Diff.Pairing
import Peg.Proofs.Diff.Rearrangement
import Peg.Proofs.Diff.Touched
import Peg.Proofs.Text.Replacement
import Peg.Proofs.Escape.Passes
import Peg.Proofs.Escape.Reading
import Peg.Proofs.Escape.ClassBody
import Peg.Proofs.Escape.Enclosure
import Peg.Proofs.Escape.Plain
import Peg.Proofs.Expression.Fitting
import Peg.Proofs.Grammar.Fitting
import Peg.Proofs.Base64.Decoding
import Peg.Proofs.Base64.Concatenation
import Peg.Proofs.Base64.Quoting
import Peg.Proofs.Text.Lines
import Peg.Proofs.Text.Layout
import Peg.Proofs.Text.Levels
import Peg.Proofs.Text.Reindenting
import Peg.Proofs.Diff.Counting
import Peg.Proofs.Diff.Composition
import Peg.Proofs.Diff.Reversal
import Peg.Proofs.Diff.Unchanged
import Peg.Proofs.Diff.RoundTrip
import Peg.Proofs.Expression.Paths
import Peg.Proofs.Grammar.References
import Peg.Proofs.Json.Contents
import Peg.Proofs.Expression.Contents
import Peg.Proofs.Grammar.Contents
import Peg.Proofs.Expression.Rearrangement
import Peg.Proofs.Grammar.Rearrangement
import Peg.Proofs.Script.WhiteSpace
import Peg.Proofs.Emit.Fragments
import Peg.Proofs.Emit.Dedenting
import Peg.Proofs.Emit.Validation
import Peg.Proofs.Text.Marks
import Peg.Proofs.Text.StandIns
