import DumpMode.Editor.Recorder
import DumpMode.Folding.Balance
import DumpMode.Folding.Mask
import DumpMode.Journal.Service
import DumpMode.Preferences.Environment
import DumpMode.Preferences.File
import DumpMode.Proofs.Folding.Concatenation
import DumpMode.Proofs.Folding.Masking
import DumpMode.Proofs.Folding.Nesting
import DumpMode.Proofs.Folding.Partners
import DumpMode.Proofs.Folding.Truncation
import DumpMode.Proofs.Words.Cursors
import DumpMode.Proofs.Words.Junctions
import DumpMode.Proofs.Results
import DumpMode.Proofs.Json.Lexical
import DumpMode.Proofs.Json.Steps
import DumpMode.Proofs.Json.Values
import DumpMode.Document.Ranges
import DumpMode.Proofs.Document.Records
import DumpMode.Editor.Requests
import DumpMode.Proofs.Editor.Scans
import DumpMode.Proofs.Document.RoundTrip
import DumpMode.Proofs.Toml.Distinct
import DumpMode.Proofs.Toml.Records
import DumpMode.Preferences.Layers
import DumpMode.Proofs.Preferences.Layers
import DumpMode.Proofs.Preferences.Validity
import DumpMode.Journal.Requests
import DumpMode.Proofs.Journal.Retention
import DumpMode.Proofs.Journal.Installation
import DumpMode.Proofs.Editor.Pieces
import DumpMode.Json.Tree
import DumpMode.Proofs.Json.Passing
import DumpMode.Proofs.Json.Literals
import DumpMode.Proofs.Json.Decodes
import DumpMode.Proofs.Json.Drafts
import DumpMode.Document.Spelling
import DumpMode.Proofs.Document.Tolerance
import DumpMode.Proofs.Folding.Counts
import DumpMode.Proofs.Folding.Inner
import DumpMode.Proofs.Folding.Innermost
import DumpMode.LineSearch
import DumpMode.Proofs.Positions
import DumpMode.Proofs.LineTexts
import DumpMode.Proofs.Columns
import DumpMode.Proofs.Folding.LineRanges
import DumpMode.Proofs.Words.Resolution
import DumpMode.Folding.Stack
import DumpMode.Proofs.Folding.Stack
import DumpMode.Proofs.Journal.Reports
import DumpMode.Proofs.Folding.Reports
import DumpMode.Json.Any
import DumpMode.Proofs.Lookup
import DumpMode.Proofs.Json.Any
import DumpMode.Proofs.Journal.Lines
import DumpMode.Proofs.Words.Reports
import DumpMode.Proofs.Preferences.Reports
import DumpMode.Proofs.Folding.Extents
import DumpMode.Proofs.Words.Recognition
import DumpMode.Proofs.Editor.Paths
import DumpMode.Words.Offsets
import DumpMode.Proofs.Words.Leftmost
import DumpMode.Proofs.Words.Turns
