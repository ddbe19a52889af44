import Workbook.Decimal.Shortest
import Workbook.Expression
import Workbook.Moment
import Workbook.Selection

/-!
# Formulas

Writing expressions as formula text, without an equals sign in front. Items of a compound stand in
parentheses when they could bind looser than the operator around them.
-/

namespace Workbook

namespace Formula

/-- A run of a text: characters that a quoted formula text can hold, or one that it cannot. -/
inductive TextRun where
  | plain (chars : List Char)
  | code (c : Char)
deriving DecidableEq, Repr

/-- Tabs, line breaks and quotes, which no quoted formula text holds. -/
def isCoded (c : Char) : Bool := c == '\t' || c == '\n' || c == '\r' || c == '"'

/-- One more character in front of some runs. -/
def consRun (c : Char) (runs : List TextRun) : List TextRun :=
  if isCoded c then .code c :: runs
  else match runs with
    | .plain cs :: rest => .plain (c :: cs) :: rest
    | _ => .plain [c] :: runs

/-- The runs of a text. -/
def textRuns (cs : List Char) : List TextRun := cs.foldr consRun []

/-- A run as a formula. -/
def TextRun.formula : TextRun → List Char
  | .plain cs => '"' :: cs ++ ['"']
  | .code c => "CHAR(".toList ++ Nat.toDigits 10 c.toNat ++ [')']

/-- A text as a formula: its runs, joined by `&`. -/
def textLiteral (s : String) : String :=
  match textRuns s.toList with
  | [] => "\"\""
  | runs => String.ofList (['&'].intercalate (runs.map TextRun.formula))

/-- A number as a formula, if it is finite. -/
def numberLiteral (x : Float) (path : Path) : Except Issue String :=
  if x.isFinite then .ok (Decimal.plainText x)
  else .error (.processing ("number " ++ Decimal.plainText x ++ " has no formula form") path)

/-- A truth value as a formula. -/
def booleanLiteral (b : Bool) : String := if b then "TRUE" else "FALSE"

/-! ## Templates -/

/-- The parts of a template text: literal characters, and placeholders that are bound. -/
inductive TemplatePart where
  | char (c : Char)
  | place (name : String) (s : Selector)
deriving DecidableEq, Repr

/-- The placeholder behind an open brace, if it is bound: it ends at the first closing brace. -/
def placeholder? (vars : List (String × Selector)) (cs : List Char) :
    Option (String × Selector × List Char) :=
  let name := cs.takeWhile (· != '\x7d')
  match cs.drop name.length with
  | _ :: rest => (vars.lookup (String.ofList name)).map (String.ofList name, ·, rest)
  | [] => none

/-- What follows a placeholder is a shorter text. -/
theorem placeholder?_length {vars : List (String × Selector)} {cs rest : List Char} {name : String}
    {s : Selector} (h : placeholder? vars cs = some (name, s, rest)) : rest.length < cs.length := by
  simp only [placeholder?] at h
  split at h
  · rename_i c tail heq
    obtain ⟨_, _, hs⟩ := Option.map_eq_some_iff.1 h
    simp only [Prod.mk.injEq] at hs
    have hl := congrArg List.length heq
    simp only [List.length_drop, List.length_cons] at hl
    rw [← hs.2.2]
    omega
  · exact absurd h (by simp)

/-- The parts of a template text. A brace that opens no bound placeholder is literal. -/
def templateParts (vars : List (String × Selector)) : List Char → List TemplatePart
  | [] => []
  | c :: cs =>
    if c = '\x7b' then
      match _found : placeholder? vars cs with
      | some (name, s, rest) => .place name s :: templateParts vars rest
      | none => .char c :: templateParts vars cs
    else .char c :: templateParts vars cs
termination_by cs => cs.length
decreasing_by
  · have := placeholder?_length _found
    simp only [List.length_cons]; omega
  · simp
  · simp

/-- A part of a template as a formula. -/
def TemplatePart.formula (cell : FormulaCell) (path : Path) : TemplatePart → Except Issue (List Char)
  | .char c => .ok [c]
  | .place name s => (cell.selectorText s ((path.key "vars").key name)).map String.toList

/-- A template as a formula. -/
def template (cell : FormulaCell) (path : Path) (text : String) (vars : List (String × Selector)) :
    Except Issue String := do
  let parts ← (templateParts vars text.toList).mapM (TemplatePart.formula cell path)
  return String.ofList parts.flatten

/-! ## Expressions -/

/-- The issue of a compound without items. -/
def noItems (operator : Operator) (path : Path) : Issue :=
  .processing ("'" ++ operator.token ++ "' expression needs at least one item") path

/-- An item of a compound that could bind looser than the operator around it. -/
def bindsLoosely : Expression → Bool
  | .compound _ items => decide (1 < items.length)
  | .text s => decide (1 < (textRuns s.toList).length)
  | .template _ _ => true
  | _ => false

/-- A formula in parentheses. -/
def parenthesized (s : String) : String := "(" ++ s ++ ")"

mutual
/-- An expression as a formula for a cell. -/
def ofExpression (cell : FormulaCell) (path : Path) : Expression → Except Issue String
  | .text s => .ok (textLiteral s)
  | .number x => numberLiteral x path
  | .boolean b => .ok (booleanLiteral b)
  | .compound operator items => do
    if items.isEmpty then throw (noItems operator path)
    let parts ← operands cell (path.key "items") 0 items
    return operator.token.intercalate parts
  | .negated item => do
    let inner ← ofExpression cell (path.key "item") item
    return "-" ++ parenthesized inner
  | .function name items => do
    let parts ← arguments cell (path.key "items") 0 items
    return name ++ parenthesized (",".intercalate parts)
  | .selector s => cell.selectorText s (path.key "from")
  | .template text vars => template cell path text vars

/-- The items of a compound from a number on. -/
def operands (cell : FormulaCell) (path : Path) (i : Nat) : List Expression → Except Issue (List String)
  | [] => .ok []
  | e :: es => do
    let s ← ofExpression cell (path.index i) e
    let rest ← operands cell path (i + 1) es
    return (if bindsLoosely e then parenthesized s else s) :: rest

/-- The items of a function call from a number on. -/
def arguments (cell : FormulaCell) (path : Path) (i : Nat) : List Expression → Except Issue (List String)
  | [] => .ok []
  | e :: es => do
    let s ← ofExpression cell (path.index i) e
    let rest ← arguments cell path (i + 1) es
    return s :: rest
end

end Formula

end Workbook
