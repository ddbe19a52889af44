import Workbook.Bound
import Workbook.DataType
import Workbook.SheetBook

/-!
# Validations and conditions

What rules become in the output. One reading of a rule, its operator and formulas, serves the validation
of a column's cells and the conditional formats alike. A rule without an operator is a formula of its
own.
-/

namespace Workbook

/-- The operator of a comparison. -/
def Comparison.operator : Comparison → CellOperator
  | .equal => .equal
  | .notEqual => .notEqual
  | .less => .lessThan
  | .lessOrEqual => .lessThanOrEqual
  | .greater => .greaterThan
  | .greaterOrEqual => .greaterThanOrEqual

/-- The operator of a range test. -/
def RangeTest.operator : RangeTest → CellOperator
  | .between => .between
  | .outside => .notBetween

/-- A rule as an operator and formulas. -/
structure RuleFormulas where
  /-- Absent for a rule that is an expression. -/
  operator : Option CellOperator
  formula1 : String
  formula2 : Option String := none
deriving DecidableEq, Repr

/-- A rule over ordered values as an operator and formulas. Bounds are put in order. -/
def OrderedRule.formulas {α : Type} [Bound α] (cell : FormulaCell) (path : Path) :
    OrderedRule α → Except Issue RuleFormulas
  | .comparison test value => do
    let f ← Bound.formula value (path.key "value")
    return { operator := some test.operator, formula1 := f }
  | .range test low high => do
    let (low, high) := orderedBounds low high
    let f ← Bound.formula low (path.key "low")
    let g ← Bound.formula high (path.key "high")
    return { operator := some test.operator, formula1 := f, formula2 := some g }
  | .custom e => do
    let f ← Formula.ofExpression cell (path.key "expression") e
    return { operator := none, formula1 := f }

namespace DataValidation

/-- A validation by operator and formulas; without an operator it is a custom one. -/
def ofFormulas (kind : ValidationKind) (f : RuleFormulas) : DataValidation where
  kind := if f.operator.isSome then kind else .custom
  operator := f.operator
  formula1 := some f.formula1
  formula2 := f.formula2

/-- The validation of a rule over ordered values. -/
def ofOrderedRule {α : Type} [Bound α] (kind : ValidationKind) (cell : FormulaCell) (path : Path)
    (rule : OrderedRule α) : Except Issue DataValidation :=
  (rule.formulas cell path).map (ofFormulas kind)

/-- The validation of a text rule. -/
def ofTextRule (cell : FormulaCell) (path : Path) : TextRule → Except Issue DataValidation
  | .is v => .ok (ofFormulas .text ⟨some .equal, Formula.textLiteral v, none⟩)
  | .contains v => .ok (ofFormulas .text ⟨some .contains, Formula.textLiteral v, none⟩)
  | .begins v => .ok (ofFormulas .text ⟨some .beginsWith, Formula.textLiteral v, none⟩)
  | .ends v => .ok (ofFormulas .text ⟨some .endsWith, Formula.textLiteral v, none⟩)
  | .custom e => do
    let f ← Formula.ofExpression cell (path.key "expression") e
    return ofFormulas .text ⟨none, f, none⟩

/-- The validation of an enumeration: its names as a list. -/
def ofEnum (items : List EnumItem) : DataValidation where
  kind := .list
  showDropdown := true
  listValues := some (items.map EnumItem.name)

/-- The validation of a lookup: the data rows of another column as a list. -/
def ofLookup (cell : FormulaCell) (path : Path) (values : ColumnSelector) :
    Except Issue DataValidation := do
  let range ← cell.selectorText (.wholeColumn values) path
  return { kind := .list, showDropdown := true, formula1 := some range }

end DataValidation

namespace ConditionalFormat

/-- A conditional format by operator and formulas; without an operator its formula is the condition. -/
def ofFormulas (f : RuleFormulas) (style : SheetStyle) : ConditionalFormat where
  kind := if f.operator.isSome then .cellIs else .expression
  operator := f.operator
  formula1 := some f.formula1
  formula2 := f.formula2
  style := style

/-- The conditional format of a rule over ordered values. -/
def ofOrderedRule {α : Type} [Bound α] (cell : FormulaCell) (path : Path) (rule : OrderedRule α)
    (style : SheetStyle) : Except Issue ConditionalFormat :=
  (rule.formulas cell path).map (ofFormulas · style)

/-- The conditional format that tests for a text. -/
def ofText (kind : ConditionKind) (value : String) (style : SheetStyle) : ConditionalFormat :=
  { kind, formula1 := some (Formula.textLiteral value), style }

/-- The conditional format of a text rule. -/
def ofTextRule (cell : FormulaCell) (path : Path) (rule : TextRule) (style : SheetStyle) :
    Except Issue ConditionalFormat :=
  match rule with
  | .is v => .ok (ofFormulas ⟨some .equal, Formula.textLiteral v, none⟩ style)
  | .contains v => .ok (ofText .containsText v style)
  | .begins v => .ok (ofText .beginsWith v style)
  | .ends v => .ok (ofText .endsWith v style)
  | .custom e => do
    let f ← Formula.ofExpression cell (path.key "expression") e
    return ofFormulas ⟨none, f, none⟩ style

end ConditionalFormat

end Workbook
