import SourceLint.Analysis
import SourceLint.Bank
import SourceLint.Binding
import SourceLint.Binding.Bound
import SourceLint.Binding.Error
import SourceLint.CommandLine.Arguments
import SourceLint.CommandLine.Invocation
import SourceLint.CommandLine.Places
import SourceLint.CommandLine.Printing
import SourceLint.CommandLine.Run
import SourceLint.CommandLine.Template
import SourceLint.CommandLine.Vocabulary
import SourceLint.Config
import SourceLint.Config.Cache
import SourceLint.Config.Document
import SourceLint.Config.Validation
import SourceLint.Diagnostic
import SourceLint.Discovery
import SourceLint.FileTree
import SourceLint.Glob.Expansion
import SourceLint.Glob.Matching
import SourceLint.Glob.Pattern
import SourceLint.Json.Field
import SourceLint.Json.Reader
import SourceLint.Json.Value
import SourceLint.Main
import SourceLint.Markup.Charset
import SourceLint.Markup.Cursor
import SourceLint.Markup.Document
import SourceLint.Markup.Element
import SourceLint.Markup.Error
import SourceLint.Markup.Reference
import SourceLint.Markup.Tag
import SourceLint.Path
import SourceLint.Position
import SourceLint.Report
import SourceLint.Report.Decoding
import SourceLint.Report.Encoding
import SourceLint.Rule
import SourceLint.Rule.LongLine
import SourceLint.Rule.Registry
import SourceLint.Rule.UnusedFunction
import SourceLint.Schema
import SourceLint.Schema.Builtin
import SourceLint.Severity
import SourceLint.Source.Grammar.Attribute
import SourceLint.Source.Grammar.Category
import SourceLint.Source.Grammar.Expression
import SourceLint.Source.Grammar.File
import SourceLint.Source.Grammar.Item
import SourceLint.Source.Grammar.Pattern
import SourceLint.Source.Grammar.Reader
import SourceLint.Source.Grammar.Statement
import SourceLint.Source.Grammar.Type
import SourceLint.Source.Node
import SourceLint.Source.TestCode
import SourceLint.Source.Token
import SourceLint.Source.Token.Blank
import SourceLint.Source.Token.Literal
import SourceLint.Source.Token.Tree
import SourceLint.SourceFile
import SourceLint.Text.Blank
import SourceLint.Text.Cut
import SourceLint.Text.Decimal
import SourceLint.Text.Identifier
import SourceLint.Text.Lines
import SourceLint.Text.Literal
import SourceLint.Text.Quoted
import SourceLint.Text.Ranges
import SourceLint.Text.Search
import SourceLint.Violation
import SourceLint.Proofs.Binding.Conformance
import SourceLint.Proofs.Binding.FirstFault
import SourceLint.Proofs.Cache.Calls
import SourceLint.Proofs.Cache.ComputeOnce
import SourceLint.Proofs.Rule.Mentions
import SourceLint.Proofs.Bank.Contents
import SourceLint.Proofs.Bank.Sharing
import SourceLint.Proofs.Rule.Unused
import SourceLint.Proofs.FileTree.Lookup
import SourceLint.Proofs.Rule.Ending
import SourceLint.Proofs.Analysis.Workers
import SourceLint.Proofs.Analysis.Termination
import SourceLint.Proofs.Analysis.Inspections
import SourceLint.Proofs.Analysis.Results
import SourceLint.Proofs.Analysis.ScheduleIndependence
import SourceLint.Proofs.Diagnostic.Order
import SourceLint.Proofs.Analysis.Configured
import SourceLint.Proofs.Analysis.Completeness
import SourceLint.Proofs.Text.Decimal
import SourceLint.Proofs.Glob.Plain
import SourceLint.Proofs.Path.Pieces
import SourceLint.Proofs.FileTree.Routes
import SourceLint.Proofs.Discovery.Names
import SourceLint.Proofs.FileTree.Proper
import SourceLint.Proofs.Discovery.Expansion
import SourceLint.Proofs.Config.Sensible
import SourceLint.Proofs.Config.Loading
import SourceLint.Proofs.Analysis.Degradation
import SourceLint.Proofs.Analysis.Examined
import SourceLint.Proofs.Path.Below
import SourceLint.Proofs.Glob.Floating
import SourceLint.Proofs.Rule.Relocation
import SourceLint.Proofs.Analysis.Relocation
import SourceLint.Proofs.Analysis.Reading
import SourceLint.Proofs.Discovery.Excludes
import SourceLint.Proofs.Analysis.Exclusion
import SourceLint.Proofs.Rule.Selection
import SourceLint.Proofs.Config.Settings
import SourceLint.Proofs.Config.Lossless
import SourceLint.Proofs.Report.RoundTrip
import SourceLint.Proofs.Analysis.Isolation
import SourceLint.Proofs.Analysis.Found
import SourceLint.Proofs.Config.Respelling
import SourceLint.Proofs.Diagnostic.Labels
import SourceLint.Proofs.CommandLine.Agreement
import SourceLint.Proofs.CommandLine.Problems
import SourceLint.Proofs.Source.Conditions
import SourceLint.Proofs.Rule.Reporting
import SourceLint.Proofs.Source.Occurrences
import SourceLint.Proofs.Source.Places
import SourceLint.Proofs.Rule.Gathering
import SourceLint.Proofs.Rule.Definitions
import SourceLint.Proofs.Rule.TestCode
import SourceLint.Proofs.Analysis.Uses
import SourceLint.Proofs.Analysis.TestCode
import SourceLint.Proofs.Text.Lines
import SourceLint.Proofs.Rule.LongLines
import SourceLint.Proofs.Sorting
import SourceLint.Proofs.Glob.Grammar
import SourceLint.Proofs.Markup.Openings
import SourceLint.Proofs.Binding.Lookup
import SourceLint.Proofs.Config.Demands
import SourceLint.Proofs.Config.DocumentOrder
import SourceLint.Proofs.Binding.Carrying
import SourceLint.Proofs.Path.Spelling
import SourceLint.Proofs.Path.Stripping
import SourceLint.Proofs.Binding.Reordering
import SourceLint.Proofs.Config.Reordering
import SourceLint.Proofs.FileTree.Growth
import SourceLint.Proofs.Discovery.Growth
import SourceLint.Proofs.Analysis.Traceless
import SourceLint.Proofs.Diagnostic.Printing
import SourceLint.Proofs.Config.Numbers
