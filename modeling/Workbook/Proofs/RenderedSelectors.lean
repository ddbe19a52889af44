import Workbook.Proofs.Declarations
import Workbook.Proofs.HeldSelectors
import Workbook.Proofs.Selections

/-!
# Selectors and the layout of the output

All formulas of a kept column are written for its first data cell. A selector in them names the column of
the output that stands under the names it selects, and rows of that column, or it is reported because the
output has no such column.
-/

namespace Workbook

variable {b : Book} {options : CompileOptions}

namespace KeptColumn

variable (c : KeptColumn b) {t : ColumnTarget} {number header : Nat}

end KeptColumn

end Workbook
