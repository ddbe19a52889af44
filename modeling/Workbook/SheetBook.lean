import Workbook.Style

/-!
# Sheet books

The result of a compilation: every reference is replaced by its value, every selector by its address, and
every format by its code.
-/

namespace Workbook

/-- What a data validation checks. -/
inductive ValidationKind where
  | text
  | list
  | decimal
  | date
  | custom
deriving DecidableEq, Repr

/-- A comparison in a validation or a conditional format. -/
inductive CellOperator where
  | between
  | notBetween
  | equal
  | notEqual
  | lessThan
  | lessThanOrEqual
  | greaterThan
  | greaterThanOrEqual
  | contains
  | beginsWith
  | endsWith
deriving DecidableEq, Repr

/-- The validation of a column's data cells. Formulas have no equals sign in front. -/
structure DataValidation where
  kind : ValidationKind
  operator : Option CellOperator := none
  formula1 : Option String := none
  formula2 : Option String := none
  allowBlank : Bool := true
  /-- Offer the values of a list. -/
  showDropdown : Bool := false
  /-- The values of a list that are written out. -/
  listValues : Option (List String) := none
deriving DecidableEq, Repr

/-- What a conditional format tests. -/
inductive ConditionKind where
  | cellIs
  | expression
  | containsText
  | beginsWith
  | endsWith
deriving DecidableEq, Repr

/-- A condition and the style of the cells that meet it. -/
structure ConditionalFormat where
  kind : ConditionKind
  operator : Option CellOperator := none
  formula1 : Option String := none
  formula2 : Option String := none
  style : SheetStyle
deriving DecidableEq, Repr

/-- How the cells of a column behave. -/
structure Behavior where
  validation : Option DataValidation := none
  /-- Conditional formats in the order of their evaluation. -/
  conditionals : List ConditionalFormat := []
  /-- The format code. -/
  format : Option String := none
deriving DecidableEq, Repr

/-- Nothing is declared. -/
def Behavior.isEmpty (b : Behavior) : Bool :=
  b.validation.isNone && b.conditionals.isEmpty && b.format.isNone

/-- A column of the output. -/
structure SheetColumn where
  title : String
  titleStyle : Option SheetStyle := none
  dataStyle : Option SheetStyle := none
  behavior : Option Behavior := none
  /-- The formula of the data cells with its equals sign. -/
  valueExpression : Option String := none
deriving DecidableEq, Repr

/-- A group of the output. -/
structure SheetGroup where
  title : String
  titleStyle : Option SheetStyle := none
  columns : List SheetColumn
deriving DecidableEq, Repr

/-- A page of the output. -/
structure SheetPage where
  title : String
  tabColor : Option Color := none
  rows : UInt32
  groups : List SheetGroup
deriving DecidableEq, Repr

/-- The output book. -/
structure SheetBook where
  title : String
  pages : List SheetPage
deriving DecidableEq, Repr

end Workbook
