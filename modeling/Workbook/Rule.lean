import Workbook.Expression

/-!
# Rules

Conditions on the cells of a column. Rules over numbers and over dates and times have the same forms.
-/

namespace Workbook

/-- A rule over text cells. -/
inductive TextRule where
  | is (value : String)
  | contains (value : String)
  | begins (value : String)
  | ends (value : String)
  | custom (expression : Expression)

/-- A comparison of a cell with a value. -/
inductive Comparison where
  | equal
  | notEqual
  | less
  | lessOrEqual
  | greater
  | greaterOrEqual
deriving DecidableEq, Repr

/-- A comparison of a cell with two bounds. -/
inductive RangeTest where
  | between
  | outside
deriving DecidableEq, Repr

/-- A rule over ordered cells. -/
inductive OrderedRule (α : Type) where
  | range (test : RangeTest) (low high : α)
  | comparison (test : Comparison) (value : α)
  | custom (expression : Expression)

/-- A date, a time, or both, as it is written in a book. -/
structure TemporalValue where
  text : String
deriving DecidableEq, Repr

end Workbook
