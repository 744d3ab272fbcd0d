import Spreadsheet.Main
import Spreadsheet.Formula.Mention
import Spreadsheet.Proofs.Interchange
import Spreadsheet.Proofs.Simulation
import Spreadsheet.Formula.Unguarded
import Spreadsheet.Formula.Scope
import Spreadsheet.Proofs.Dependency
import Spreadsheet.Proofs.SideBySide
import Spreadsheet.Proofs.Filling
import Spreadsheet.Proofs.Locality
import Spreadsheet.Formula.Forwarding
import Spreadsheet.Proofs.Forwarding
import Spreadsheet.Proofs.DoubleRange
import Spreadsheet.Format.Refusal
import Spreadsheet.Proofs.Refusal
import Spreadsheet.Proofs.CycleCheck
import Spreadsheet.Formula.Machine
import Spreadsheet.Proofs.Nesting
import Spreadsheet.Workbook.Visit
import Spreadsheet.Proofs.VisitOrder
import Spreadsheet.Proofs.OrderShown
import Spreadsheet.Formula.Rendering
import Spreadsheet.Proofs.TokenReading
import Spreadsheet.Proofs.TokenParsing
import Spreadsheet.Proofs.RoundTrip
import Spreadsheet.Formula.Failure
import Spreadsheet.Proofs.Containment
import Spreadsheet.Proofs.Restoration
import Spreadsheet.Workbook.Pass
import Spreadsheet.Proofs.Pass
import Spreadsheet.Workbook.Refusal
import Spreadsheet.Workbook.Edit
import Spreadsheet.Proofs.Stored
import Spreadsheet.Proofs.Idempotence
import Spreadsheet.Proofs.Staleness
import Spreadsheet.Proofs.Completion
import Spreadsheet.Workbook.Report
import Spreadsheet.Proofs.Listing
import Spreadsheet.Proofs.Output
import Spreadsheet.Value.Plain
import Spreadsheet.Event.History
import Spreadsheet.Proofs.FilePath
import Spreadsheet.Proofs.LogText
import Spreadsheet.Proofs.Report
import Spreadsheet.Proofs.JsonText
import Spreadsheet.Proofs.JsonReading
import Spreadsheet.Proofs.LogLine
import Spreadsheet.Proofs.LogReading
import Spreadsheet.Workbook.Color
import Spreadsheet.Proofs.ColorHistory
import Spreadsheet.Format.Spelling
import Spreadsheet.Proofs.NumeralText
import Spreadsheet.Proofs.Tags
import Spreadsheet.Proofs.PlainFormat
import Spreadsheet.Proofs.QuotedText
import Spreadsheet.Format.Scan
import Spreadsheet.Proofs.SectionScan
import Spreadsheet.Proofs.Verbatim
import Spreadsheet.Proofs.ColorTag
import Spreadsheet.Proofs.Percent
import Spreadsheet.Proofs.Qualifying
import Spreadsheet.Proofs.Arithmetic
import Spreadsheet.Formula.Supply
import Spreadsheet.Proofs.NotNumber
import Spreadsheet.Proofs.Arguments
import Spreadsheet.Proofs.Counting
import Spreadsheet.Reference.Spelling
import Spreadsheet.Proofs.ColumnLetters
import Spreadsheet.Proofs.CellReference
import Spreadsheet.Proofs.Capitals
import Spreadsheet.Proofs.RangeReference
import Spreadsheet.Proofs.Rectangle
import Spreadsheet.Proofs.Lookup
import Spreadsheet.Formula.Occurrence
import Spreadsheet.Formula.StringLiteral
import Spreadsheet.Proofs.StringEnd
import Spreadsheet.Proofs.ScannedText
import Spreadsheet.Proofs.ReferenceNodes
import Spreadsheet.Proofs.StringLiteral
import Spreadsheet.Calendar.Succession
import Spreadsheet.Proofs.CivilDate
import Spreadsheet.Proofs.SerialDisplay
import Spreadsheet.Proofs.DateFunction
import Spreadsheet.Value.Point
import Spreadsheet.Proofs.NumberLine
import Spreadsheet.Proofs.Extrema
import Spreadsheet.Proofs.Wrapping
import Spreadsheet.Event.Reading
import Spreadsheet.Proofs.LogRecords
import Spreadsheet.Proofs.NearestDouble
import Spreadsheet.Proofs.WholeDigits
