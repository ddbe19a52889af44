import Workbook.Address
import Workbook.ColumnIndex
import Workbook.Text.Blank
import Workbook.Text.Numeral

/-!
# Resolving selectors

The address that a selector stands for in the formulas of a column. Rows that are counted from the first
data row are moved below the header rows of their page; rows that are counted from the formula's own row
are left alone.
-/

namespace Workbook

open Text

/-- The column whose formulas are written. -/
structure Vantage where
  columns : ColumnIndex
  key : ColumnKey

namespace Vantage

/-- The placement of the column itself. -/
def ownPlacement (v : Vantage) (path : Path) : Except Issue Placement :=
  match v.columns.get? v.key with
  | some p => .ok p
  | none =>
    .error (.processing ("column '" ++ v.key.column ++ "' is not indexed in group '" ++ v.key.group ++
      "' of page '" ++ v.key.page ++ "'") path)

/-- The names of a selected column; page and group are the column's own by default. -/
def keyOf (v : Vantage) (s : ColumnSelector) : ColumnKey :=
  ⟨s.page.getD v.key.page, s.group.getD v.key.group, s.column⟩

/-- The placement of a selected column. -/
def placement (v : Vantage) (s : ColumnSelector) (path : Path) : Except Issue Placement :=
  let key := v.keyOf s
  match v.columns.get? key with
  | some p => .ok p
  | none =>
    .error (.processing ("unknown column '" ++ key.column ++ "' in group '" ++ key.group ++
      "' of page '" ++ key.page ++ "'") path)

end Vantage

namespace CellUnit

/-- A number below the size of the grid. -/
def gridNumber? (digits : List Char) : Option Nat := do
  let n ← decimal? digits
  if n < gridSize then some n else none

/-- Read `$n`, `+n` or `-n`, blanks around it allowed. -/
def ofChars? (cs : List Char) : Option CellUnit :=
  match trim cs with
  | '$' :: digits => (gridNumber? digits).map .absolute
  | '+' :: digits => (gridNumber? digits).map fun n => .relative n
  | '-' :: digits => (gridNumber? digits).map fun n => .relative (-n)
  | _ => none

/-- Read a row unit. -/
def parse (unit : String) (path : Path) : Except Issue CellUnit :=
  match ofChars? unit.toList with
  | some u => .ok u
  | none =>
    .error (.processing ("invalid row selector '" ++ String.ofList (trim unit.toList) ++
      "', expected '$n', '+n' or '-n'") path)

end CellUnit

namespace Selector

/-- The column component of a target and where the column is placed. -/
def resolveColumn (v : Vantage) (path : Path) : ColumnTarget → Except Issue (CellUnit × Placement)
  | .own => (v.ownPlacement path).map (.relative 0, ·)
  | .column s => (v.placement s (path.key "column")).map fun p => (.absolute p.index, p)

/-- The first row and the far end of a target in a column below some header rows. -/
def resolveRows (column : CellUnit) (header : Nat) (path : Path) :
    RowTarget → Except Issue (CellUnit × Option RangeEnd)
  | .own => .ok (.relative 0, none)
  | .all => .ok (CellUnit.shift header (.absolute 0), some (.columnEnd column))
  | .units (.single u) => do
    let row ← CellUnit.parse u path
    return (row.shift header, none)
  | .units (.range a b) => do
    let a ← CellUnit.parse a (path.key "from")
    let b ← CellUnit.parse b (path.key "to")
    let (first, last) := CellUnit.ordered a b
    return (first.shift header, some (.cell ⟨column, last.shift header⟩))

/-- The address that a selector stands for. The page is given when it is not the formula's own. -/
def resolve (v : Vantage) (path : Path) : Selector → Except Issue Address
  | .own => .ok .own
  | .target cells => do
    let (column, placement) ← resolveColumn v path cells.column
    let (row, last) ← resolveRows column placement.headerRows (path.key "rows") cells.rows
    return {
      page := if placement.page = v.key.page then none else some placement.page
      first := ⟨column, row⟩
      last := last }

end Selector

/-- The column and the cell for which a formula is written. -/
structure FormulaCell where
  vantage : Vantage
  column : Nat
  row : Nat

/-- The text of a selector in a formula. -/
def FormulaCell.selectorText (cell : FormulaCell) (s : Selector) (path : Path) : Except Issue String := do
  let address ← s.resolve cell.vantage path
  match address.render cell.column cell.row with
  | .ok text => .ok text
  | .error fault => .error (.processing fault.message path)

end Workbook
