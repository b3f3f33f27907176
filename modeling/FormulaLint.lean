import FormulaLint.Analysis.Formula
import FormulaLint.Analysis.Key
import FormulaLint.Binding.Kind
import FormulaLint.Binding.Resolve
import FormulaLint.Binding.Scope
import FormulaLint.Binding.SymbolTable
import FormulaLint.Data.Atom
import FormulaLint.Data.Basic
import FormulaLint.Data.Moment
import FormulaLint.Delegation.Capability
import FormulaLint.Delegation.Query
import FormulaLint.Delegation.Report
import FormulaLint.Delegation.Verdict
import FormulaLint.Diagnostic
import FormulaLint.Document.Control
import FormulaLint.Document.Load
import FormulaLint.Document.Locate
import FormulaLint.Document.Scan
import FormulaLint.Expr.Basic
import FormulaLint.Expr.Dump
import FormulaLint.Expr.Name
import FormulaLint.Expr.Render
import FormulaLint.Expr.Shown
import FormulaLint.Expr.Walk
import FormulaLint.Files.Glob
import FormulaLint.Files.PathName
import FormulaLint.Files.Tree
import FormulaLint.Lint.Arguments
import FormulaLint.Lint.Command
import FormulaLint.Lint.Config
import FormulaLint.Lint.Linter
import FormulaLint.Lint.Log
import FormulaLint.Lint.Rule
import FormulaLint.Locale
import FormulaLint.Main
import FormulaLint.Number.Decimal
import FormulaLint.Number.Double
import FormulaLint.Number.Shortest
import FormulaLint.Number.Value
import FormulaLint.Operator
import FormulaLint.OrderedMap
import FormulaLint.Parser.Formula
import FormulaLint.Parser.Step
import FormulaLint.Parser.Work
import FormulaLint.Placement
import FormulaLint.Proofs.Grammar.Acceptance
import FormulaLint.Proofs.Grammar.Basic
import FormulaLint.Proofs.Grammar.Completeness
import FormulaLint.Proofs.Grammar.Shape
import FormulaLint.Proofs.Grammar.Soundness
import FormulaLint.Proofs.Grammar.Spans
import FormulaLint.Proofs.Grammar.Steps
import FormulaLint.Proofs.Grammar.Waiting
import FormulaLint.Proofs.Lexing.Comments
import FormulaLint.Proofs.Lexing.Coverage
import FormulaLint.Proofs.Lexing.Ends
import FormulaLint.Proofs.Lexing.Fading
import FormulaLint.Proofs.Lexing.Items
import FormulaLint.Proofs.Lexing.Joining
import FormulaLint.Proofs.Lexing.Locality
import FormulaLint.Proofs.Lexing.Names
import FormulaLint.Proofs.Lexing.Numbers
import FormulaLint.Proofs.Lexing.Numerals
import FormulaLint.Proofs.Lexing.Symbols
import FormulaLint.Proofs.Outcomes
import FormulaLint.Proofs.Parts
import FormulaLint.Proofs.Paths
import FormulaLint.Proofs.Reading
import FormulaLint.Proofs.Reports
import FormulaLint.Proofs.Recovery
import FormulaLint.Proofs.Rows
import FormulaLint.Proofs.RoundTrip.Alike
import FormulaLint.Proofs.RoundTrip.Expressions
import FormulaLint.Proofs.RoundTrip.Formula
import FormulaLint.Proofs.RoundTrip.Places
import FormulaLint.Proofs.RoundTrip.References
import FormulaLint.Proofs.RoundTrip.Writes
import FormulaLint.Text.Blank
import FormulaLint.Text.CharRanges
import FormulaLint.Text.DecimalDigit
import FormulaLint.Text.Doubled
import FormulaLint.Text.IdentifierPart
import FormulaLint.Text.IdentifierStart
import FormulaLint.Text.LetterCase
import FormulaLint.Text.Lines
import FormulaLint.Text.Order
import FormulaLint.Text.Pattern
import FormulaLint.Text.Printable
import FormulaLint.Text.Shown
import FormulaLint.Text.Split
import FormulaLint.Text.WordChar
import FormulaLint.Token.Basic
import FormulaLint.Token.Lex
import FormulaLint.Token.Recognise
import FormulaLint.Yaml.Compose
import FormulaLint.Yaml.Cursor
import FormulaLint.Yaml.Error
import FormulaLint.Yaml.Implicit
import FormulaLint.Yaml.Literal
import FormulaLint.Yaml.Load
import FormulaLint.Yaml.Node
import FormulaLint.Yaml.Scalar.Block
import FormulaLint.Yaml.Scalar.Plain
import FormulaLint.Yaml.Scalar.Quoted
import FormulaLint.Yaml.Tag
import FormulaLint.Yaml.Token
import FormulaLint.Yaml.Tokenize
import FormulaLint.Proofs.Binding.Scopes
import FormulaLint.Proofs.Delegation.Policy
import FormulaLint.Proofs.Calls
import FormulaLint.Proofs.Delegation.InnerQueries
import FormulaLint.Proofs.Delegation.RowFields
import FormulaLint.Proofs.Delegation.NestedQueries
import FormulaLint.Proofs.Delegation.Monotone
import FormulaLint.Proofs.Grammar.Recovered
import FormulaLint.Proofs.Forms.Dumps
import FormulaLint.Proofs.RoundTrip.Bindings
import FormulaLint.Proofs.Linting
import FormulaLint.Proofs.Document.Routes
import FormulaLint.Proofs.Document.Reports
import FormulaLint.Proofs.Yaml.Lines
import FormulaLint.Proofs.Yaml.Moves
import FormulaLint.Proofs.Document.Columns
import FormulaLint.Proofs.Yaml.Verbatim
import FormulaLint.Proofs.Yaml.Blocks
import FormulaLint.Proofs.Yaml.Spellings
import FormulaLint.Proofs.Document.Origins
import FormulaLint.Proofs.Yaml.Stretches
import FormulaLint.Proofs.Lexing.Unterminated
import FormulaLint.Proofs.Delegation.Roots
import FormulaLint.Proofs.Binding.Globals
import FormulaLint.Proofs.Document.Folded
import FormulaLint.Proofs.Configuring
import FormulaLint.Proofs.Delegation.Spellings
import FormulaLint.Proofs.Parentheses.Minimal
import FormulaLint.Proofs.ClauseLoop
import FormulaLint.Proofs.DiagnosticPlaces
import FormulaLint.Proofs.Findings
import FormulaLint.Proofs.Lexing.Quoting
import FormulaLint.Proofs.CallOrder
