import UsageLedger.Arithmetic
import UsageLedger.Catalog
import UsageLedger.Cluster.Account
import UsageLedger.Cluster.Client
import UsageLedger.Cluster.Entry
import UsageLedger.Cluster.Hint
import UsageLedger.Cluster.Identity
import UsageLedger.Cluster.Page
import UsageLedger.Cluster.Server
import UsageLedger.Cluster.Walk
import UsageLedger.CommandLine.Options
import UsageLedger.CommandLine.Run
import UsageLedger.Credentials
import UsageLedger.Elapsed
import UsageLedger.Facilities
import UsageLedger.Fault
import UsageLedger.Files
import UsageLedger.Histogram
import UsageLedger.IdentityStore
import UsageLedger.Json.Basic
import UsageLedger.Json.Count
import UsageLedger.Json.Display
import UsageLedger.Json.Lexer
import UsageLedger.Json.Lookup
import UsageLedger.Json.Parser
import UsageLedger.Json.Printer
import UsageLedger.Main
import UsageLedger.Node
import UsageLedger.Number.Binary64
import UsageLedger.Number.Decimal
import UsageLedger.Number.Numeral
import UsageLedger.Number.Quantity
import UsageLedger.Number.Rounding
import UsageLedger.Path
import UsageLedger.Pattern.Basic
import UsageLedger.Pattern.CharSet
import UsageLedger.Pattern.Lexer
import UsageLedger.Pattern.Reader
import UsageLedger.Pattern.Search
import UsageLedger.Progress
import UsageLedger.Proofs.Agreement
import UsageLedger.Proofs.Ancestor
import UsageLedger.Proofs.Canonical
import UsageLedger.Proofs.Catalog
import UsageLedger.Proofs.Cluster.Complete
import UsageLedger.Proofs.Cluster.Course
import UsageLedger.Proofs.Cluster.DisplayName
import UsageLedger.Proofs.Cluster.Identities
import UsageLedger.Proofs.Cluster.Lookup
import UsageLedger.Proofs.Cluster.Names
import UsageLedger.Proofs.Cluster.Once
import UsageLedger.Proofs.Cluster.Outstanding
import UsageLedger.Proofs.Cluster.Paging
import UsageLedger.Proofs.Cluster.Resolved
import UsageLedger.Proofs.Cluster.Served
import UsageLedger.Proofs.Cluster.Sound
import UsageLedger.Proofs.CommandLine.Borders
import UsageLedger.Proofs.CommandLine.Diagnostics
import UsageLedger.Proofs.CommandLine.Pathwise
import UsageLedger.Proofs.CommandLine.Summary
import UsageLedger.Proofs.Elapsed
import UsageLedger.Proofs.Expiry
import UsageLedger.Proofs.Histogram
import UsageLedger.Proofs.IdentityStore.Loading
import UsageLedger.Proofs.IdentityStore.RoundTrip
import UsageLedger.Proofs.Json.Keyed
import UsageLedger.Proofs.Json.RoundTrip
import UsageLedger.Proofs.Json.Scalars
import UsageLedger.Proofs.Number.Decimal
import UsageLedger.Proofs.Number.Finite
import UsageLedger.Proofs.Number.Nearest
import UsageLedger.Proofs.Number.Range
import UsageLedger.Proofs.Number.Rounded
import UsageLedger.Proofs.Number.Whole
import UsageLedger.Proofs.Progress.Answers
import UsageLedger.Proofs.Progress.Paced
import UsageLedger.Proofs.Progress.Readings
import UsageLedger.Proofs.Report.Attribution
import UsageLedger.Proofs.Report.Buckets
import UsageLedger.Proofs.Report.Cells
import UsageLedger.Proofs.Report.Columns
import UsageLedger.Proofs.Report.Conservation
import UsageLedger.Proofs.Report.Consistent
import UsageLedger.Proofs.Report.Effect
import UsageLedger.Proofs.Report.Figure
import UsageLedger.Proofs.Report.Interleaving
import UsageLedger.Proofs.Report.Lossless
import UsageLedger.Proofs.Report.Mebibytes
import UsageLedger.Proofs.Report.Order
import UsageLedger.Proofs.Report.Selected
import UsageLedger.Proofs.Report.Ties
import UsageLedger.Proofs.Report.Writing
import UsageLedger.Proofs.Size.Borders
import UsageLedger.Proofs.Size.Labels
import UsageLedger.Proofs.Size.Reading
import UsageLedger.Proofs.Snapshot.Contents
import UsageLedger.Proofs.Snapshot.Coverage
import UsageLedger.Proofs.Snapshot.Depth
import UsageLedger.Proofs.Snapshot.Faults
import UsageLedger.Proofs.Snapshot.Index
import UsageLedger.Proofs.Snapshot.Leaves
import UsageLedger.Proofs.Snapshot.Levels
import UsageLedger.Proofs.Snapshot.Linking
import UsageLedger.Proofs.Snapshot.Loading
import UsageLedger.Proofs.Snapshot.Records
import UsageLedger.Proofs.Snapshot.Subtrees
import UsageLedger.Proofs.Text.Aligned
import UsageLedger.Proofs.Text.Lines
import UsageLedger.Proofs.Text.Utf8
import UsageLedger.Proofs.Trimmed
import UsageLedger.Proofs.Tuning.Effective
import UsageLedger.Proofs.Tuning.Recommended
import UsageLedger.Proofs.Tuning.RoundTrip
import UsageLedger.Proofs.Url.Percent
import UsageLedger.Proofs.Url.Query
import UsageLedger.Report.Basic
import UsageLedger.Report.Collector
import UsageLedger.Report.Selection
import UsageLedger.Report.Shared
import UsageLedger.Report.Table
import UsageLedger.Report.Usage
import UsageLedger.Size
import UsageLedger.Snapshot.Entry
import UsageLedger.Snapshot.Tree
import UsageLedger.Snapshot.Visit
import UsageLedger.Text.Align
import UsageLedger.Text.Blank
import UsageLedger.Text.Case
import UsageLedger.Text.CharName
import UsageLedger.Text.Digit
import UsageLedger.Text.Hex
import UsageLedger.Text.Identifier
import UsageLedger.Text.Lines
import UsageLedger.Text.Pieces
import UsageLedger.Text.Printable
import UsageLedger.Text.Quoted
import UsageLedger.Text.Range
import UsageLedger.Text.Utf8
import UsageLedger.Text.Word
import UsageLedger.Tuning.Machine
import UsageLedger.Tuning.Profile
import UsageLedger.Tuning.Recommendation
import UsageLedger.Tuning.Settings
import UsageLedger.Url.Address
import UsageLedger.Url.Basic
import UsageLedger.Url.Percent
import UsageLedger.Visit
