/-!
# Selectors

What a formula of a column may point at: its own cell, or cells of a column that is named or is its own.
Row units are kept as they are written and are read when a selector is resolved.
-/

namespace Workbook

/-- A column by its name. Page and group are those of the formula when absent. -/
structure ColumnSelector where
  page : Option String := none
  group : Option String := none
  column : String
deriving DecidableEq, Repr

/-- The column that a selector points at. -/
inductive ColumnTarget where
  /-- The column of the formula. -/
  | own
  | column (selector : ColumnSelector)
deriving DecidableEq, Repr

/-- Row units: `$n`, counted from the first data row, or `+n` and `-n`, counted from the row of the
formula. -/
inductive RowUnits where
  | single (unit : String)
  | range (first last : String)
deriving DecidableEq, Repr

/-- The rows that a selector points at. -/
inductive RowTarget where
  /-- The row of the formula. -/
  | own
  /-- All data rows. -/
  | all
  | units (rows : RowUnits)
deriving DecidableEq, Repr

/-- A column and rows of it. -/
structure TargetSelector where
  column : ColumnTarget
  rows : RowTarget
deriving DecidableEq, Repr

/-- A pointer to cells. -/
inductive Selector where
  /-- The cell of the formula. -/
  | own
  | target (cells : TargetSelector)
deriving DecidableEq, Repr

namespace Selector

/-- All data rows of a column. -/
def wholeColumn (column : ColumnSelector) : Selector := .target ⟨.column column, .all⟩

end Selector

end Workbook
