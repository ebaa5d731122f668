import DocLint.Text.Word
import DocLint.Text.Integer
import DocLint.Text.LowerCase
import DocLint.Json.Reader
import DocLint.Json.Writer
import DocLint.Doc.Slice
import DocLint.Doc.ParameterList
import DocLint.Severity
import DocLint.Doc.Line
import DocLint.Doc.Marker
import DocLint.Check.Outcome
import DocLint.Check.Structure
import DocLint.Swift.DocRange
import DocLint.Swift.Head
import DocLint.Swift.Lexeme
import DocLint.Swift.Mask
import DocLint.Swift.Parameters
import DocLint.Swift.SourceFile
import DocLint.Log
import DocLint.Rule.Basic
import DocLint.Rule.Registry
import DocLint.Yaml.Cursor
import DocLint.Yaml.Scalar
import DocLint.Yaml.Token
import DocLint.Yaml.Node
import DocLint.Yaml.Reader
import DocLint.Files.Path
import DocLint.Files.Tree
import DocLint.Config.Load
import DocLint.Config.Formats
import DocLint.Lint.Discovery
import DocLint.Lint.Run
import DocLint.Report.Console
import DocLint.Report.Markup
import DocLint.CommandLine.Request
import DocLint.CommandLine.Arguments
import DocLint.CommandLine.Run
import DocLint.Main
import DocLint.Calendar.Date
import DocLint.Calendar.Moment
import DocLint.Text.Base64
import DocLint.Proofs.Source.LineTable
import DocLint.Proofs.Swift.Mask
import DocLint.Proofs.Text.Blank
import DocLint.Proofs.Swift.Attachment
import DocLint.Proofs.Swift.Declaration
import DocLint.Proofs.Doc.Slice
import DocLint.Proofs.Swift.Sliceable
import DocLint.Proofs.Swift.Ownership
import DocLint.Proofs.Check.Decision
import DocLint.Proofs.Swift.Comment
import DocLint.Proofs.Swift.Clause
import DocLint.Proofs.Swift.DefaultValues
import DocLint.Proofs.Swift.Gap
import DocLint.Proofs.Swift.Grammar
import DocLint.Proofs.Swift.Recovery
import DocLint.Proofs.Swift.Function
import DocLint.Proofs.Doc.Items
import DocLint.Proofs.Doc.Layout
import DocLint.Proofs.Rule.DocumentedFunction
import DocLint.Proofs.Rule.Scan
import DocLint.Proofs.Rule.Reading
import DocLint.Proofs.Rule.Verdict
import DocLint.Proofs.Swift.Coverage
import DocLint.Proofs.Swift.DocBlock
import DocLint.Proofs.Doc.Origin
import DocLint.Proofs.Rule.Located
import DocLint.Proofs.Lint.Stored
import DocLint.Proofs.Agree
import DocLint.Proofs.Doc.Alike
import DocLint.Proofs.Source.Excerpt
import DocLint.Proofs.Check.Excerpt
import DocLint.Proofs.Files.Path
import DocLint.Proofs.Report.StableSort
import DocLint.Proofs.Lint.Pool
import DocLint.Proofs.Lint.Parallel
import DocLint.Proofs.Doc.ListGrammar
import DocLint.Proofs.Check.Wording
import DocLint.Proofs.Check.Naming
import DocLint.Proofs.Doc.Rendering
import DocLint.Proofs.Rule.Leniency
import DocLint.Proofs.Report.Diagnostics
import DocLint.Proofs.Config.Loading
import DocLint.Proofs.Source.CarriageReturn
import DocLint.Proofs.Swift.CarriageReturn
import DocLint.Proofs.Swift.Recoded
import DocLint.Proofs.Rule.CarriageReturn
import DocLint.Proofs.Swift.Erasure
import DocLint.Proofs.Swift.Joined
import DocLint.Proofs.Swift.HeadsApart
import DocLint.Proofs.Swift.InsertedAttributes
import DocLint.Proofs.CommandLine.ExitCode
import DocLint.Proofs.Text.Bytes
import DocLint.Proofs.Source.Partition
import DocLint.Proofs.Source.Position
import DocLint.Proofs.Source.Character
import DocLint.Proofs.Swift.Keyword
import DocLint.Proofs.Swift.Alike
import DocLint.Proofs.Swift.BlankLines
import DocLint.Proofs.Rule.BlankLines
import DocLint.Proofs.Source.Alignment
import DocLint.Proofs.Doc.Continuation
import DocLint.Proofs.Doc.Unmarked
import DocLint.Proofs.Doc.Kept
import DocLint.Proofs.Doc.Outdent
import DocLint.Proofs.Config.Setting
import DocLint.Proofs.Config.Overlay
import DocLint.Proofs.Rule.Example
import DocLint.Proofs.Config.Precedence
import DocLint.Proofs.Report.Console
import DocLint.Proofs.Rule.Registry
import DocLint.Proofs.Lint.Discovery
