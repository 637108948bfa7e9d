import PageExtract.Address.Basic
import PageExtract.Address.Domain
import PageExtract.Address.Ip
import PageExtract.Address.Literal
import PageExtract.Address.Path
import PageExtract.Address.Punycode
import PageExtract.Address.Resolved
import PageExtract.Anchor.Found
import PageExtract.Anchor.Proximity
import PageExtract.Bytes.Base64
import PageExtract.Bytes.Utf8
import PageExtract.Client.Basic
import PageExtract.Digest.Md5
import PageExtract.Document.Basic
import PageExtract.Execution
import PageExtract.Expr.Cursor
import PageExtract.Expr.Formula
import PageExtract.Expr.Token
import PageExtract.Field.Calculated
import PageExtract.Field.Extraction
import PageExtract.Http.Basic
import PageExtract.Http.Body
import PageExtract.Http.Endpoint
import PageExtract.Http.Failure
import PageExtract.Http.Percent
import PageExtract.Http.Query
import PageExtract.Http.Server
import PageExtract.Layout.Basic
import PageExtract.Layout.Box
import PageExtract.Layout.Fingerprint
import PageExtract.Layout.Query
import PageExtract.Layout.Reader
import PageExtract.Layout.Sort
import PageExtract.Log.Basic
import PageExtract.Log.Logger
import PageExtract.Number.Basic
import PageExtract.Number.Binary
import PageExtract.Number.Numeral
import PageExtract.Number.Power
import PageExtract.Number.Shortest
import PageExtract.Pattern.Basic
import PageExtract.Pattern.Matcher
import PageExtract.Pattern.Parser
import PageExtract.Pdf.Basic
import PageExtract.Pdf.Item
import PageExtract.Pdf.Line
import PageExtract.Processor.Basic
import PageExtract.Processor.Integrity
import PageExtract.Processor.Reader
import PageExtract.Processor.Routing
import PageExtract.Processor.Source
import PageExtract.Proofs.Address.Origin
import PageExtract.Proofs.Anchor.Chains
import PageExtract.Proofs.Anchor.Origin
import PageExtract.Proofs.Anchor.Resolution
import PageExtract.Proofs.Bytes.Utf8
import PageExtract.Proofs.Client.Routing
import PageExtract.Proofs.Execution.Anchors
import PageExtract.Proofs.Execution.Blocks
import PageExtract.Proofs.Execution.Coercions
import PageExtract.Proofs.Execution.Json
import PageExtract.Proofs.Execution.Logged
import PageExtract.Proofs.Execution.Optional
import PageExtract.Proofs.Execution.Outcome
import PageExtract.Proofs.Execution.Quiet
import PageExtract.Proofs.Execution.Regions
import PageExtract.Proofs.Execution.Rows
import PageExtract.Proofs.Execution.Skipped
import PageExtract.Proofs.Execution.Status
import PageExtract.Proofs.Execution.Steps
import PageExtract.Proofs.Execution.Stored
import PageExtract.Proofs.Execution.Warnings
import PageExtract.Proofs.Expr.Grammar
import PageExtract.Proofs.Expr.Names
import PageExtract.Proofs.Expr.Pieces
import PageExtract.Proofs.Expr.Progress
import PageExtract.Proofs.Expr.Spans
import PageExtract.Proofs.Expr.Spelled
import PageExtract.Proofs.Expr.Tiling
import PageExtract.Proofs.Field.Correction
import PageExtract.Proofs.Field.Division
import PageExtract.Proofs.Field.Locality
import PageExtract.Proofs.Field.Shown
import PageExtract.Proofs.Http.Breaking
import PageExtract.Proofs.Http.Percent
import PageExtract.Proofs.Http.Status
import PageExtract.Proofs.Layout.Accepted
import PageExtract.Proofs.Layout.Fingerprint
import PageExtract.Proofs.Layout.ReadBack
import PageExtract.Proofs.Layout.Settled
import PageExtract.Proofs.Layout.Sort
import PageExtract.Proofs.Number.Decimal
import PageExtract.Proofs.Number.Difference
import PageExtract.Proofs.Number.Exact
import PageExtract.Proofs.Number.Finite
import PageExtract.Proofs.Number.HalfEven
import PageExtract.Proofs.Number.Literal
import PageExtract.Proofs.Number.Numeral
import PageExtract.Proofs.Number.Order
import PageExtract.Proofs.Number.Packing
import PageExtract.Proofs.Number.Places
import PageExtract.Proofs.Number.ReadBack
import PageExtract.Proofs.Number.Remainder
import PageExtract.Proofs.Number.Rounding
import PageExtract.Proofs.Number.Unit
import PageExtract.Proofs.Number.Unsigned
import PageExtract.Proofs.Number.Zero
import PageExtract.Proofs.Pdf.Blocks
import PageExtract.Proofs.Pdf.Cells
import PageExtract.Proofs.Pdf.Gaps
import PageExtract.Proofs.Pdf.Ink
import PageExtract.Proofs.Pdf.Layout
import PageExtract.Proofs.Processor.Canonical
import PageExtract.Proofs.Processor.Choice
import PageExtract.Proofs.Processor.Consistency
import PageExtract.Proofs.Processor.OldNames
import PageExtract.Proofs.Processor.RoundTrip
import PageExtract.Proofs.Processor.Sources
import PageExtract.Proofs.Record.Again
import PageExtract.Proofs.Record.Columns
import PageExtract.Proofs.Record.Frame
import PageExtract.Proofs.Record.Leaves
import PageExtract.Proofs.Record.ReadBack
import PageExtract.Proofs.Record.Rows
import PageExtract.Proofs.Record.Shapes
import PageExtract.Proofs.Record.Spelling
import PageExtract.Proofs.Record.Stored
import PageExtract.Proofs.Record.Sums
import PageExtract.Proofs.Record.Supply
import PageExtract.Proofs.Record.Tidy
import PageExtract.Proofs.Record.Totals
import PageExtract.Proofs.Record.Trail
import PageExtract.Proofs.Rule.Arithmetic
import PageExtract.Proofs.Rule.Chains
import PageExtract.Proofs.Rule.Comparison
import PageExtract.Proofs.Rule.Equality
import PageExtract.Proofs.Rule.Gather
import PageExtract.Proofs.Rule.Levels
import PageExtract.Proofs.Rule.Missing
import PageExtract.Proofs.Rule.Paths
import PageExtract.Proofs.Rule.Progress
import PageExtract.Proofs.Rule.Reads
import PageExtract.Proofs.Rule.RoundTrip
import PageExtract.Proofs.Rule.Safe
import PageExtract.Proofs.Rule.Text
import PageExtract.Proofs.Schema.Accepted
import PageExtract.Proofs.Schema.Faithful
import PageExtract.Proofs.Service.Counts
import PageExtract.Proofs.Service.Documents
import PageExtract.Proofs.Service.Events
import PageExtract.Proofs.Service.Sound
import PageExtract.Proofs.Table.Cells
import PageExtract.Proofs.Table.Columns
import PageExtract.Proofs.Table.Headers
import PageExtract.Proofs.Table.Kept
import PageExtract.Proofs.Table.Neighbours
import PageExtract.Proofs.Table.Rows
import PageExtract.Proofs.Table.StartRow
import PageExtract.Proofs.Text.Ink
import PageExtract.Proofs.Text.Runs
import PageExtract.Proofs.Text.Trim
import PageExtract.Proofs.Text.Units
import PageExtract.Proofs.Text.Words
import PageExtract.Proofs.Value.Json
import PageExtract.Proofs.Value.Members
import PageExtract.Proofs.Value.Parsed
import PageExtract.Proofs.Value.Proper
import PageExtract.Proofs.Value.Reread
import PageExtract.Reading
import PageExtract.Record.Calculation
import PageExtract.Record.Path
import PageExtract.Record.Transform
import PageExtract.Record.Tree
import PageExtract.Region.Found
import PageExtract.Rule.Basic
import PageExtract.Rule.Datum
import PageExtract.Rule.Eval
import PageExtract.Rule.Parser
import PageExtract.Rule.Report
import PageExtract.Schema.Checked
import PageExtract.Schema.Reader
import PageExtract.Service.Basic
import PageExtract.Settings
import PageExtract.Table.Basic
import PageExtract.Table.Grid
import PageExtract.Text.Blank
import PageExtract.Text.Case
import PageExtract.Text.CaseTable
import PageExtract.Text.Find
import PageExtract.Text.Identifier
import PageExtract.Text.LetterTable
import PageExtract.Text.Ranges
import PageExtract.Text.Split
import PageExtract.Text.Units
import PageExtract.Trace
import PageExtract.Value.Basic
import PageExtract.Value.Json
import PageExtract.Value.JsonReader
