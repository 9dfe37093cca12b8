import DocComment.Block.Basic
import DocComment.Block.Context
import DocComment.Block.Declaration
import DocComment.Block.Extract
import DocComment.Block.Validity
import DocComment.Body.Basic
import DocComment.Body.Draft
import DocComment.Body.Line
import DocComment.Command.Arguments
import DocComment.Command.Basic
import DocComment.Command.Request
import DocComment.Comment.Basic
import DocComment.Comment.Data
import DocComment.Comment.Format
import DocComment.Data
import DocComment.Decimal
import DocComment.Error
import DocComment.Form
import DocComment.Inline
import DocComment.Log
import DocComment.Main
import DocComment.Node.Basic
import DocComment.Node.Comment
import DocComment.Node.Field
import DocComment.Node.Tag
import DocComment.Options.Basic
import DocComment.Options.File
import DocComment.Outcome
import DocComment.Parser.Basic
import DocComment.Parser.Collaborators
import DocComment.Parser.Parse
import DocComment.Pipeline
import DocComment.Proofs.Block.Declaration
import DocComment.Proofs.Block.Extraction
import DocComment.Proofs.Block.Rescan
import DocComment.Proofs.Block.Returns
import DocComment.Proofs.Block.Spans
import DocComment.Proofs.Body.Conservation
import DocComment.Proofs.Body.Fences
import DocComment.Proofs.Body.Gutters
import DocComment.Proofs.Body.Line
import DocComment.Proofs.Body.Returns
import DocComment.Proofs.Comment.Format
import DocComment.Proofs.Comment.Returns
import DocComment.Proofs.Comment.Tidy
import DocComment.Proofs.Except
import DocComment.Proofs.Inline
import DocComment.Proofs.Options.Steps
import DocComment.Proofs.Parser.Agreement
import DocComment.Proofs.Parser.Batch
import DocComment.Proofs.Parser.History
import DocComment.Proofs.Parser.LineEnds
import DocComment.Proofs.Parser.Plain
import DocComment.Proofs.Parser.Reading
import DocComment.Proofs.Parser.Reentrancy
import DocComment.Proofs.Parser.Rereading
import DocComment.Proofs.Parser.Strictness
import DocComment.Proofs.Parser.Turns
import DocComment.Proofs.Parser.TypeClause
import DocComment.Proofs.Parser.WellFormed
import DocComment.Proofs.Pipeline.Composition
import DocComment.Proofs.Pipeline.Registration
import DocComment.Proofs.Pipeline.Uncallable
import DocComment.Proofs.Tag.Line
import DocComment.Proofs.Tag.Lossless
import DocComment.Proofs.Tag.Policy
import DocComment.Proofs.Tag.Split
import DocComment.Proofs.Tag.Title
import DocComment.Proofs.Text.Classes
import DocComment.Proofs.Text.Closing
import DocComment.Proofs.Text.Indentation
import DocComment.Proofs.Text.Lines
import DocComment.Proofs.Text.Margin
import DocComment.Proofs.Text.Returns
import DocComment.Proofs.Text.Trim
import DocComment.Proofs.Text.Words
import DocComment.Proofs.TypeExpr.Accounting
import DocComment.Proofs.TypeExpr.Adjacency
import DocComment.Proofs.TypeExpr.Alike
import DocComment.Proofs.TypeExpr.Braces
import DocComment.Proofs.TypeExpr.Canonical
import DocComment.Proofs.TypeExpr.Completeness
import DocComment.Proofs.TypeExpr.Completion
import DocComment.Proofs.TypeExpr.Congruence
import DocComment.Proofs.TypeExpr.Coverage
import DocComment.Proofs.TypeExpr.Cutoff
import DocComment.Proofs.TypeExpr.ErrorPosition
import DocComment.Proofs.TypeExpr.Failing
import DocComment.Proofs.TypeExpr.Grammar
import DocComment.Proofs.TypeExpr.Layout
import DocComment.Proofs.TypeExpr.Levels
import DocComment.Proofs.TypeExpr.Lexing
import DocComment.Proofs.TypeExpr.Lookahead
import DocComment.Proofs.TypeExpr.Mentions
import DocComment.Proofs.TypeExpr.Monotonicity
import DocComment.Proofs.TypeExpr.Nesting
import DocComment.Proofs.TypeExpr.Patterns
import DocComment.Proofs.TypeExpr.Reader
import DocComment.Proofs.TypeExpr.Roles
import DocComment.Proofs.TypeExpr.RoundTrip
import DocComment.Proofs.TypeExpr.Scanning
import DocComment.Proofs.TypeExpr.Shape
import DocComment.Proofs.TypeExpr.Soundness
import DocComment.Proofs.TypeExpr.Spacing
import DocComment.Proofs.TypeExpr.Spellings
import DocComment.Proofs.TypeExpr.Words
import DocComment.Report.Basic
import DocComment.Report.Json
import DocComment.Report.Shown
import DocComment.Report.Table
import DocComment.Tag.Basic
import DocComment.Tag.Policy
import DocComment.Tag.Split
import DocComment.Tag.Title
import DocComment.Text.Blank
import DocComment.Text.Closing
import DocComment.Text.Digit
import DocComment.Text.Lines
import DocComment.Text.Lowercase
import DocComment.Text.Pattern
import DocComment.Text.Printable
import DocComment.Text.Quoted
import DocComment.Text.Ranges
import DocComment.Text.Search
import DocComment.Text.Width
import DocComment.Text.Word
import DocComment.TypeExpr.Basic
import DocComment.TypeExpr.Data
import DocComment.TypeExpr.Limit
import DocComment.TypeExpr.Literal
import DocComment.TypeExpr.Parser
import DocComment.TypeExpr.Printer
import DocComment.TypeExpr.Token
import DocComment.Yaml.Basic
import DocComment.Yaml.Place
import DocComment.Yaml.Reader
import DocComment.Yaml.Scalar
import DocComment.Yaml.Writer
