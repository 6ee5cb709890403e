import Precedents.Text.Ranges
import Precedents.Text.Word
import Precedents.Text.Blank
import Precedents.Text.Printable
import Precedents.Text.Upper
import Precedents.Text.Doubled
import Precedents.Text.Quoted
import Precedents.Number.Numeral
import Precedents.Number.Binary64
import Precedents.Number.Decimal
import Precedents.Number.Shortest
import Precedents.Text.Scan
import Precedents.Text.Similarity
import Precedents.Reference.Column
import Precedents.Reference.Basic
import Precedents.Reference.Error
import Precedents.Reference.Sheet
import Precedents.Reference.Printer
import Precedents.Reference.Reader
import Precedents.Data.Moment
import Precedents.Data.Datum
import Precedents.Data.Json
import Precedents.Data.Field
import Precedents.Formula.Terminal
import Precedents.Formula.Syntax
import Precedents.Formula.Reading
import Precedents.Formula.Diagnostic
import Precedents.Formula.Parse
import Precedents.Value
import Precedents.Formula.Literal
import Precedents.Formula.Salvage
import Precedents.Function.Basic
import Precedents.Function.Argument
import Precedents.Function.Logical
import Precedents.Function.Geometry
import Precedents.Function.Selection
import Precedents.Function.Lookup
import Precedents.Function.Address
import Precedents.Function.Table
import Precedents.Cover
import Precedents.Function.ValueFunctions
import Precedents.Extraction.Notice
import Precedents.Extraction.Extractor
import Precedents.Extraction.Walk
import Precedents.Extraction.Findings
import Precedents.Extraction.Event
import Precedents.Extraction.EventLog
import Precedents.Extraction.Extract
import Precedents.Settings.Error
import Precedents.Settings.DefinedNames
import Precedents.Settings.Basic
import Precedents.Data.Yaml.Moment
import Precedents.Data.Yaml.Scalar
import Precedents.Data.Yaml.Quotes
import Precedents.Data.Yaml.Flow
import Precedents.Data.Yaml.Document
import Precedents.Settings.File
import Precedents.CommandLine.Arguments
import Precedents.CommandLine.Files
import Precedents.CommandLine.Help
import Precedents.CommandLine.Commands
import Precedents.Main
import Precedents.Proofs.Cover.ClosedForm
import Precedents.Proofs.Text.Scanning
import Precedents.Proofs.Text.UpperCase
import Precedents.Proofs.Reference.Holding
import Precedents.Proofs.Reference.SheetWord
import Precedents.Proofs.Number.NumberWord
import Precedents.Proofs.Value.FormulaValue
import Precedents.Proofs.Formula.Subformulas
import Precedents.Proofs.Formula.Shapes
import Precedents.Proofs.Formula.Steps
import Precedents.Proofs.Formula.Words
import Precedents.Proofs.Formula.Recovering
import Precedents.Proofs.Formula.Reporting
import Precedents.Proofs.Formula.Places
import Precedents.Proofs.Formula.Breaks
import Precedents.Proofs.Formula.Lexing
import Precedents.Proofs.Formula.Rendering
import Precedents.Proofs.Formula.Shifting
import Precedents.Proofs.Formula.RoundTrip
import Precedents.Proofs.Function.Ruling
import Precedents.Proofs.Extraction.Yields
import Precedents.Proofs.Extraction.Calls
import Precedents.Proofs.Extraction.Walking
import Precedents.Proofs.Extraction.Values
import Precedents.Proofs.Extraction.Coverage
import Precedents.Proofs.Extraction.Lenient
import Precedents.Proofs.Extraction.Complaints
import Precedents.Proofs.Formula.UnrestrictedLexing
import Precedents.Proofs.Extraction.Salvaging
import Precedents.Proofs.Reference.Addressing
import Precedents.Proofs.Reference.Printing
import Precedents.Proofs.Reference.Quoting
import Precedents.Proofs.Formula.Printed
import Precedents.Proofs.Extraction.Origins
import Precedents.Proofs.Extraction.Reprinting
import Precedents.Proofs.Extraction.Missing
import Precedents.Proofs.Reference.Rereading
import Precedents.Proofs.Extraction.WellFormed
import Precedents.Proofs.Extraction.Breaking
import Precedents.Proofs.Extraction.Outcomes
import Precedents.Proofs.Extraction.WalkEvents
import Precedents.Proofs.Extraction.Chronicle
import Precedents.Proofs.Function.Selecting
import Precedents.Proofs.Function.Unknowns
import Precedents.Proofs.Number.WholeDecimal
import Precedents.Proofs.Function.Arguments
import Precedents.Proofs.Function.LookingUp
import Precedents.Proofs.Function.Transposing
import Precedents.Proofs.Reference.Naming
import Precedents.Proofs.Reference.Pairing
import Precedents.Proofs.Reference.Qualifying
import Precedents.Proofs.Reference.Accepting
import Precedents.Proofs.Settings.NameLookup
import Precedents.Proofs.Settings.Membership
import Precedents.Proofs.Settings.OpenTargets
import Precedents.Proofs.Function.Registering
import Precedents.Proofs.Function.Locating
import Precedents.Proofs.Extraction.Literals
import Precedents.Proofs.Settings.Diverting
import Precedents.Proofs.Extraction.Clipping
import Precedents.Proofs.Formula.Lines
import Precedents.Proofs.Reference.Lettering
import Precedents.Proofs.Reference.Outlying
