import Refearn.Reports.Exports
import Refearn.Sales.Proofs.Csv
/-!
# Formulas in exports

What a spreadsheet finds in a cell is the guarded value: quoting adds nothing. The guard of
the sales looks behind blanks; the shared one looks at the first character and so misses a
formula that hides behind another blank than a tab or a carriage return.
-/

namespace Refearn.Reports

open Support
open Refearn.Sales (Chars doubleQuotes unquote formulaLead guardFormula csvCellChars cellText
  needsQuotes CellOk cellOk_needsQuotes unquote_cellText)

/-! ## Cells -/

namespace Demo

end Demo

end Refearn.Reports
