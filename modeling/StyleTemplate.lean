import StyleTemplate.Cache
import StyleTemplate.Command
import StyleTemplate.Command.Arguments
import StyleTemplate.Command.Check
import StyleTemplate.Command.Compile
import StyleTemplate.Command.Help
import StyleTemplate.Command.Project
import StyleTemplate.Compilation
import StyleTemplate.Decimal.Nearest
import StyleTemplate.Decimal.Numeral
import StyleTemplate.Decimal.Shortest
import StyleTemplate.Diagnostic
import StyleTemplate.Engine
import StyleTemplate.Event
import StyleTemplate.Event.Compilation
import StyleTemplate.FileTree
import StyleTemplate.FileTree.Glob
import StyleTemplate.FileTree.IgnoreRules
import StyleTemplate.FileTree.Walk
import StyleTemplate.Filter
import StyleTemplate.Filter.Builtin
import StyleTemplate.Filter.Chain
import StyleTemplate.Json
import StyleTemplate.Json.Number
import StyleTemplate.Literal
import StyleTemplate.Main
import StyleTemplate.Minify
import StyleTemplate.Path
import StyleTemplate.Placeholder
import StyleTemplate.Placeholder.Reader
import StyleTemplate.Placeholder.Written
import StyleTemplate.Report
import StyleTemplate.Report.Excerpt
import StyleTemplate.Report.SourceLine
import StyleTemplate.Resolver
import StyleTemplate.Segment
import StyleTemplate.Settings
import StyleTemplate.Settings.Layer
import StyleTemplate.Severity
import StyleTemplate.Span
import StyleTemplate.Stylesheet
import StyleTemplate.Table
import StyleTemplate.Text.Blank
import StyleTemplate.Text.Bytes
import StyleTemplate.Text.Case
import StyleTemplate.Text.CaseTable
import StyleTemplate.Text.Escape
import StyleTemplate.Text.Quoting
import StyleTemplate.Text.Visible
import StyleTemplate.Text.Width
import StyleTemplate.Text.WidthTable
import StyleTemplate.Toml
import StyleTemplate.Toml.Node
import StyleTemplate.Toml.Scalar
import StyleTemplate.Value
import StyleTemplate.Value.Merge
import StyleTemplate.Value.Number
import StyleTemplate.Proofs.Engine.Coherence
import StyleTemplate.Proofs.Engine.Isolation
import StyleTemplate.Proofs.Engine.RenderAll
import StyleTemplate.Proofs.Engine.Rendering
import StyleTemplate.Proofs.Engine.Session
import StyleTemplate.Proofs.Grammar
import StyleTemplate.Proofs.Grammar.Readers
import StyleTemplate.Proofs.Grammar.Segments
import StyleTemplate.Proofs.Literals
import StyleTemplate.Proofs.Printing
import StyleTemplate.Proofs.Quoting
import StyleTemplate.Proofs.Tiling
import StyleTemplate.Proofs.Grammar.Truncation
import StyleTemplate.Proofs.Cutting
import StyleTemplate.Proofs.Fallback
import StyleTemplate.Proofs.Minify.Lexing
import StyleTemplate.Proofs.Minify.Writing
import StyleTemplate.Proofs.Minify.Rereading
import StyleTemplate.Proofs.Minify.Idempotence
import StyleTemplate.Proofs.Layers
import StyleTemplate.Proofs.Containment
import StyleTemplate.Proofs.Arithmetic
import StyleTemplate.Proofs.Command.Stock
import StyleTemplate.Proofs.Command.Delivery
import StyleTemplate.Proofs.Command.Configured
import StyleTemplate.Proofs.Command.Checking
import StyleTemplate.Proofs.Command.Agreement
import StyleTemplate.Proofs.FileTree.Paths
import StyleTemplate.Proofs.FileTree.Writing
import StyleTemplate.Proofs.FileTree.Edits
import StyleTemplate.Proofs.FileTree.Walking
import StyleTemplate.Proofs.FileTree.Order
import StyleTemplate.Proofs.Command.Selection
import StyleTemplate.Proofs.Command.Repetition
import StyleTemplate.Proofs.Problems
import StyleTemplate.Proofs.Severity
import StyleTemplate.Proofs.Command.Reporting
import StyleTemplate.Proofs.Command.Reordering
import StyleTemplate.Proofs.Command.Placement
import StyleTemplate.Proofs.Skipping
import StyleTemplate.Proofs.Builtins
import StyleTemplate.Proofs.Grammar.Bytes
import StyleTemplate.Proofs.Engine.Compiling
import StyleTemplate.Proofs.Traversal
import StyleTemplate.Proofs.Engine.Registration
import StyleTemplate.Proofs.Literals.Denotation
import StyleTemplate.Proofs.Literals.Numerals
import StyleTemplate.Proofs.Engine.Enqueuing
import StyleTemplate.Proofs.Layers.Merging
import StyleTemplate.Proofs.Arithmetic.Promotion
import StyleTemplate.Proofs.Command.Arrangement
import StyleTemplate.Proofs.Quoting.Splitting
import StyleTemplate.Proofs.Scanning
import StyleTemplate.Proofs.Quoting.Splitting
