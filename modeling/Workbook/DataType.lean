import Workbook.Format.Numeric
import Workbook.Format.Temporal
import Workbook.Rule
import Workbook.Style

/-!
# Data types of columns

What the cells of a column hold, which of them are valid, how some of them are marked, and how they are
shown.
-/

namespace Workbook

/-- A rule with the style of the cells that meet it. -/
structure ConditionalStyle (ρ : Type) where
  rule : ρ
  apply : Ref Style

/-- Cells of text. -/
structure TextType where
  rule : Option TextRule := none
  styles : List (ConditionalStyle TextRule) := []

/-- A member of an enumeration, with the style of its cells if it has one. -/
inductive EnumItem where
  | bare (name : String)
  | styled (name : String) (style : Option (Ref Style))
deriving DecidableEq, Repr

/-- The name of a member. -/
def EnumItem.name : EnumItem → String
  | .bare name => name
  | .styled name _ => name

/-- The style of a member. -/
def EnumItem.style? : EnumItem → Option (Ref Style)
  | .bare _ => none
  | .styled _ style => style

/-- Cells that hold one of some names. -/
structure EnumType where
  values : List EnumItem

/-- Cells that hold a value of another column. -/
structure LookupType where
  values : ColumnSelector
  styles : List (ConditionalStyle TextRule) := []

/-- Cells of numbers. -/
structure NumericType where
  rule : Option (OrderedRule Float) := none
  styles : List (ConditionalStyle (OrderedRule Float)) := []
  format : Option (Ref NumericFormat) := none

/-- Cells of dates and times. -/
structure TemporalType where
  rule : Option (OrderedRule TemporalValue) := none
  styles : List (ConditionalStyle (OrderedRule TemporalValue)) := []
  format : Option (Ref TemporalFormat) := none

/-- The data type of a column. -/
inductive DataType where
  | text (t : TextType)
  | enumeration (t : EnumType)
  | lookup (t : LookupType)
  | numeric (t : NumericType)
  | temporal (t : TemporalType)

end Workbook
