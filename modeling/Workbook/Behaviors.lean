import Workbook.Cascade
import Workbook.Validation

/-!
# Resolving data types

What the data type of a column makes of its cells: a validation, conditional formats, and a format code.
Each part is resolved by itself, so a part that fails leaves the others as they are.
-/

namespace Workbook

/-- What the behavior of a column is resolved against: the cell for which its formulas are written, and
the definitions that are visible. -/
structure BehaviorContext where
  cell : FormulaCell
  scope : Scope

namespace BehaviorContext

variable {α ρ : Type}

/-- One conditional style. Its rule is kept when parts of the style have no value. -/
def conditional (ctx : BehaviorContext) (path : Path)
    (build : Path → ρ → SheetStyle → Except Issue ConditionalFormat) (c : ConditionalStyle ρ) :
    Outcome (Option ConditionalFormat) := do
  let style ← ctx.scope.style (path.key "apply") c.apply
  Outcome.ofExcept (build (path.key "rule") c.rule style)

/-- Conditional styles in order, the first with a number in its list. Rules that fail are left out. -/
def conditionals (ctx : BehaviorContext) (path : Path)
    (build : Path → ρ → SheetStyle → Except Issue ConditionalFormat) (i : Nat) :
    List (ConditionalStyle ρ) → Outcome (List ConditionalFormat)
  | [] => return []
  | c :: cs => do
    let format ← ctx.conditional (path.index i) build c
    let rest ← ctx.conditionals path build (i + 1) cs
    return format.toList ++ rest

/-- The conditional format of a member of an enumeration, if it has a style. -/
def enumConditional (ctx : BehaviorContext) (path : Path) (item : EnumItem) :
    Outcome (Option ConditionalFormat) :=
  Outcome.forOption (fun style => do
    let style ← ctx.scope.style (path.key "style") style
    return some (ConditionalFormat.ofFormulas ⟨some .equal, Formula.textLiteral item.name, none⟩ style))
    item.style?

/-- The conditional formats of members of an enumeration, the first with a number in its list. -/
def enumConditionals (ctx : BehaviorContext) (path : Path) (i : Nat) :
    List EnumItem → Outcome (List ConditionalFormat)
  | [] => return []
  | item :: items => do
    let format ← ctx.enumConditional (path.index i) item
    let rest ← ctx.enumConditionals path (i + 1) items
    return format.toList ++ rest

/-- The validation of a rule, if there is one and it has formulas. -/
def validation (build : ρ → Except Issue DataValidation) (rule : Option ρ) :
    Outcome (Option DataValidation) :=
  Outcome.forOption (fun r => Outcome.ofExcept (build r)) rule

/-- The conditional formats of text rules. -/
def textStyles (ctx : BehaviorContext) (path : Path) (styles : List (ConditionalStyle TextRule)) :
    Outcome (List ConditionalFormat) :=
  ctx.conditionals (path.key "styles") (ConditionalFormat.ofTextRule ctx.cell) 0 styles

/-- The conditional formats of rules over ordered values. -/
def orderedStyles [Bound α] (ctx : BehaviorContext) (path : Path)
    (styles : List (ConditionalStyle (OrderedRule α))) : Outcome (List ConditionalFormat) :=
  ctx.conditionals (path.key "styles") (ConditionalFormat.ofOrderedRule ctx.cell) 0 styles

/-- The format code of a declared format, if it has a value. -/
def formatCode (ctx : BehaviorContext) (k : Kind) (path : Path) (code : k.Value → String)
    (format : Option (Ref k.Value)) : Outcome (Option String) :=
  Outcome.forOption (fun f => do
    let format ← ctx.scope.valueOf k (path.key "format") f
    return format.map code) format

/-- The behavior of a data type that stands at a path. -/
def ofType (ctx : BehaviorContext) (path : Path) : DataType → Outcome Behavior
  | .text t => do
    let validation ← validation (DataValidation.ofTextRule ctx.cell (path.key "rule")) t.rule
    let conditionals ← ctx.textStyles path t.styles
    return { validation, conditionals }
  | .enumeration t => do
    let conditionals ← ctx.enumConditionals (path.key "values") 0 t.values
    return { validation := some (DataValidation.ofEnum t.values), conditionals }
  | .lookup t => do
    let validation ← Outcome.ofExcept (DataValidation.ofLookup ctx.cell (path.key "values") t.values)
    let conditionals ← ctx.textStyles path t.styles
    return { validation, conditionals }
  | .numeric t => do
    let validation ←
      validation (DataValidation.ofOrderedRule .decimal ctx.cell (path.key "rule")) t.rule
    let conditionals ← ctx.orderedStyles path t.styles
    let format ← ctx.formatCode .numeric path NumericFormat.pattern t.format
    return { validation, conditionals, format }
  | .temporal t => do
    let validation ← validation (DataValidation.ofOrderedRule .date ctx.cell (path.key "rule")) t.rule
    let conditionals ← ctx.orderedStyles path t.styles
    let format ← ctx.formatCode .temporal path TemporalFormat.pattern t.format
    return { validation, conditionals, format }

/-- The behavior of a declared data type, or nothing with an issue when it has no value. -/
def resolve (ctx : BehaviorContext) (path : Path) (t : Ref DataType) : Outcome (Option Behavior) := do
  match ← ctx.scope.valueOf .dataType path t with
  | some t => some <$> ctx.ofType path t
  | none => return none

end BehaviorContext

end Workbook
