import Addon.About
import Addon.Ace.Kind
import Addon.Ace.Record
import Addon.Ace.Registry
import Addon.Annotated.Extract
import Addon.Annotated.Marker
import Addon.Annotated.Method
import Addon.Annotated.Param
import Addon.Annotated.Spans
import Addon.Annotated.Symbol
import Addon.Build.Builder
import Addon.Build.Compiler
import Addon.Build.Export
import Addon.Build.Package
import Addon.Build.Settings
import Addon.CommandLine.Arguments
import Addon.CommandLine.Run
import Addon.Config
import Addon.Descriptor.AddonFile
import Addon.Descriptor.Catalogue
import Addon.Descriptor.Localization
import Addon.Failure
import Addon.Fields
import Addon.File.Archive
import Addon.File.Change
import Addon.File.Path
import Addon.File.Text
import Addon.File.Tree
import Addon.Json.Reader
import Addon.Json.Writer
import Addon.Lexicon
import Addon.Main
import Addon.Manifest
import Addon.Misfit
import Addon.Number.Binary64
import Addon.Number.Division
import Addon.Number.Layout
import Addon.Number.Power
import Addon.Number.Rounding
import Addon.Number.Shortest
import Addon.Number.Text
import Addon.Proofs.Ace.Enrolment
import Addon.Proofs.Ace.Registry
import Addon.Proofs.Annotated.BareSpan
import Addon.Proofs.Annotated.Dependence
import Addon.Proofs.Annotated.Exports
import Addon.Proofs.Annotated.Extraction
import Addon.Proofs.Annotated.Idempotence
import Addon.Proofs.Annotated.Order
import Addon.Proofs.Annotated.Places
import Addon.Proofs.Annotated.Registration
import Addon.Proofs.Annotated.Signature
import Addon.Proofs.Annotated.Spans
import Addon.Proofs.Annotated.Spelling
import Addon.Proofs.Annotated.Walk
import Addon.Proofs.Attempt
import Addon.Proofs.Build.Atomicity
import Addon.Proofs.Build.Containment
import Addon.Proofs.Build.Determinism
import Addon.Proofs.Build.Export
import Addon.Proofs.Build.FileList
import Addon.Proofs.Build.Overwriting
import Addon.Proofs.Build.Packing
import Addon.Proofs.Build.Preparation
import Addon.Proofs.Build.Replay
import Addon.Proofs.Build.Staging
import Addon.Proofs.Build.Step
import Addon.Proofs.Build.TwoRuns
import Addon.Proofs.Build.Writing
import Addon.Proofs.Config
import Addon.Proofs.Descriptor.Agreement
import Addon.Proofs.Descriptor.Options
import Addon.Proofs.Descriptor.ParamTexts
import Addon.Proofs.Descriptor.Totality
import Addon.Proofs.Descriptor.Translation
import Addon.Proofs.Fields
import Addon.Proofs.File.Agreement
import Addon.Proofs.File.Listing
import Addon.Proofs.File.Path
import Addon.Proofs.File.Tree
import Addon.Proofs.Json.Encoding
import Addon.Proofs.Lexicon
import Addon.Proofs.Manifest
import Addon.Proofs.Number.Negation
import Addon.Proofs.Scheduler
import Addon.Proofs.Script.Cursor
import Addon.Proofs.Script.Expression
import Addon.Proofs.Script.Layout
import Addon.Proofs.Script.Lexer
import Addon.Proofs.Script.Parameters
import Addon.Proofs.Script.Shape
import Addon.Proofs.Script.Statement
import Addon.Proofs.Script.Texts
import Addon.Proofs.Source.Columns
import Addon.Proofs.Source.Coverage
import Addon.Proofs.Source.Index
import Addon.Proofs.Source.Location
import Addon.Proofs.Source.Removal
import Addon.Proofs.Source.Segment
import Addon.Proofs.Static.Assignment
import Addon.Proofs.Static.Constants
import Addon.Proofs.Static.Faults
import Addon.Proofs.Static.Interpolation
import Addon.Proofs.Static.LastBinding
import Addon.Proofs.Static.Literals
import Addon.Proofs.Static.Safety
import Addon.Proofs.Static.Shape
import Addon.Proofs.Text.Encoding
import Addon.Proofs.Text.LineSplits
import Addon.Proofs.Text.Lines
import Addon.Proofs.Text.Title
import Addon.Proofs.TypeTag
import Addon.Proofs.Value.Faults
import Addon.Scheduler
import Addon.Script.Escape
import Addon.Script.Lexer
import Addon.Script.Numeral
import Addon.Script.Parser
import Addon.Script.Parser.Basic
import Addon.Script.Parser.Expression
import Addon.Script.Parser.Pattern
import Addon.Script.Parser.Statement
import Addon.Script.Parser.Strings
import Addon.Script.Parser.Target
import Addon.Script.Printer.Expression
import Addon.Script.Printer.Quotes
import Addon.Script.Printer.Statement
import Addon.Script.Template
import Addon.Script.Token
import Addon.Script.Tree
import Addon.Source.Index
import Addon.Source.Location
import Addon.Source.Removal
import Addon.Static.Environment
import Addon.Static.Eval
import Addon.Static.Operation
import Addon.Static.Options
import Addon.Static.Refusal
import Addon.Text.Dedent
import Addon.Text.Encoding
import Addon.Text.Lines
import Addon.Text.Quoted
import Addon.Text.Slice
import Addon.Text.Split
import Addon.Text.Title
import Addon.Text.Trim
import Addon.TypeTag
import Addon.Unicode.Blank
import Addon.Unicode.Casing
import Addon.Unicode.Composition
import Addon.Unicode.Decomposition
import Addon.Unicode.Digit
import Addon.Unicode.Identifier
import Addon.Unicode.NameTable
import Addon.Unicode.Names
import Addon.Unicode.Normal
import Addon.Unicode.Packing
import Addon.Unicode.Printable
import Addon.Unicode.Ranges
import Addon.Unicode.Surrogate
import Addon.Unicode.Tables
import Addon.Unicode.Word
import Addon.Value
import Addon.Value.Arithmetic
import Addon.Value.Compare
import Addon.Value.Convert
import Addon.Value.Fault
import Addon.Value.Format
import Addon.Value.Subscript
import Addon.Value.Text
import Addon.Violation
