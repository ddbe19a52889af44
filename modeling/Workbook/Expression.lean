import Workbook.Selector

/-!
# Expressions

The trees that formulas are written from.
-/

namespace Workbook

/-- Operators between the items of a compound. -/
inductive Operator where
  | add
  | subtract
  | multiply
  | divide
  | power
  | concat
  | equal
  | notEqual
  | less
  | greater
  | lessOrEqual
  | greaterOrEqual
deriving DecidableEq, Repr

/-- The sign of an operator. -/
def Operator.token : Operator → String
  | .add => "+"
  | .subtract => "-"
  | .multiply => "*"
  | .divide => "/"
  | .power => "^"
  | .concat => "&"
  | .equal => "="
  | .notEqual => "<>"
  | .less => "<"
  | .greater => ">"
  | .lessOrEqual => "<="
  | .greaterOrEqual => ">="

/-- An expression. -/
inductive Expression where
  | text (s : String)
  | number (x : Float)
  | boolean (b : Bool)
  | compound (operator : Operator) (items : List Expression)
  | negated (item : Expression)
  | function (name : String) (items : List Expression)
  | selector (s : Selector)
  /-- Formula text with placeholders `{name}` that stand for selectors. -/
  | template (text : String) (vars : List (String × Selector))
deriving Inhabited

end Workbook
