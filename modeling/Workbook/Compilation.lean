import Workbook.Behaviors

/-!
# Compiling a book

One walk over book, pages, groups and columns. Each level lays its definitions over the scope around it
and its theme over the theme around it. Of several pages, groups or columns with one name in one place
the first is compiled and the others are left out. The output is always complete as far as it goes, and
whatever went wrong is in the issues.
-/

namespace Workbook

namespace Compile

/-- A level's own theme, if it has one, over the theme around it. -/
def levelTheme (around : SheetTheme) (s : Scope) (path : Path) : Option (Ref Theme) → Outcome SheetTheme
  | some t => do
    let own ← Cascade.resolve s (path.key "theme") t
    return around.overlay own
  | none => return around

/-- The behavior of a column if it declares anything. -/
def behavior (ctx : BehaviorContext) (path : Path) (t : Ref DataType) : Outcome (Option Behavior) := do
  let behavior ← ctx.resolve path t
  return behavior.filter (!·.isEmpty)

/-- The formula of a column's value, with its equals sign. -/
def value (cell : FormulaCell) (path : Path) (e : Expression) : Outcome (Option String) := do
  let formula ← Outcome.ofExcept (Formula.ofExpression cell path e)
  if formula.isSome then Outcome.record (.compiled .formula)
  return formula.map ("=" ++ ·)

/-- The issue of a column without a placement. -/
def notIndexed (path : Path) (name : String) : Issue :=
  .processing ("column '" ++ name ++ "' is missing from the column index") path

/-- A column of the output, for a book whose columns are indexed. Its formulas are written for the first
data cell. -/
def column (columns : ColumnIndex) (page group : String) (around : Scope) (theme : SheetTheme)
    (site : Site) (path : Path) (c : Column) : Outcome (Option SheetColumn) := do
  Outcome.record (.compiled .column)
  let scope := around.overlay site c.definitions
  let theme ← levelTheme theme scope path c.theme
  let key : ColumnKey := ⟨page, group, c.name⟩
  match columns.get? key with
  | none =>
    Outcome.report (notIndexed path c.name)
    return none
  | some placement =>
    let cell : FormulaCell := ⟨⟨columns, key⟩, placement.index, placement.headerRows⟩
    let behavior ← behavior ⟨cell, scope⟩ (path.key "type") c.dataType
    let formula ← Outcome.forOption (value cell (path.key "value")) c.value
    return some {
      title := c.name
      titleStyle := theme.header.nonEmpty?
      dataStyle := theme.data.nonEmpty?
      behavior := behavior
      valueExpression := formula }

/-- The columns of a group from a number on. A name that was seen before is left out; the index of all
columns reports it. -/
def columns (index : ColumnIndex) (page group : String) (around : Scope) (theme : SheetTheme)
    (site : Site) (path : Path) (seen : List String) (k : Nat) :
    List Column → Outcome (List SheetColumn)
  | [] => return []
  | c :: cs =>
    if seen.contains c.name then columns index page group around theme site path seen (k + 1) cs
    else do
      let sheet ← column index page group around theme (site ++ [k]) (path.index k) c
      let rest ← columns index page group around theme site path (c.name :: seen) (k + 1) cs
      return sheet.toList ++ rest

/-- A group of the output. -/
def group (index : ColumnIndex) (page : String) (around : Scope) (theme : SheetTheme) (site : Site)
    (path : Path) (g : Group) : Outcome SheetGroup := do
  Outcome.record (.compiled .group)
  let scope := around.overlay site g.definitions
  let theme ← levelTheme theme scope path g.theme
  let sheets ← columns index page g.name scope theme site (path.key "columns") [] 0 g.columns
  return { title := g.name, titleStyle := theme.group.nonEmpty?, columns := sheets }

/-- The issue of a group whose name was seen before. -/
def duplicateGroup (path : Path) (page name : String) : Issue :=
  .processing ("duplicate group name '" ++ name ++ "' in page '" ++ page ++ "'") (path.key "name")

/-- The groups of a page from a number on. -/
def groups (index : ColumnIndex) (page : String) (around : Scope) (theme : SheetTheme) (site : Site)
    (path : Path) (seen : List String) (j : Nat) : List Group → Outcome (List SheetGroup)
  | [] => return []
  | g :: gs =>
    if seen.contains g.name then do
      Outcome.report (duplicateGroup (path.index j) page g.name)
      groups index page around theme site path seen (j + 1) gs
    else do
      let sheet ← group index page around theme (site ++ [j]) (path.index j) g
      let rest ← groups index page around theme site path (g.name :: seen) (j + 1) gs
      return sheet :: rest

/-- The line of the log for a page that has been compiled. -/
def pageNote (p : Page) (groups : List SheetGroup) : Entry :=
  .note .debug ("compiled page '" ++ p.name ++ "' (" ++ toString groups.length ++ " groups, " ++
    toString p.rows ++ " rows)")

/-- A page of the output. -/
def page (index : ColumnIndex) (around : Scope) (theme : SheetTheme) (site : Site) (path : Path)
    (p : Page) : Outcome SheetPage := do
  Outcome.record (.compiled .page)
  let scope := around.overlay site p.definitions
  let theme ← levelTheme theme scope path p.theme
  let sheets ← groups index p.name scope theme site (path.key "groups") [] 0 p.groups
  Outcome.record (pageNote p sheets)
  return { title := p.name, tabColor := theme.tab, rows := p.rows, groups := sheets }

/-- The issue of a page whose name was seen before. -/
def duplicatePage (path : Path) (name : String) : Issue :=
  .processing ("duplicate page name '" ++ name ++ "'") (path.key "name")

/-- The pages of a book from a number on. -/
def pages (index : ColumnIndex) (around : Scope) (theme : SheetTheme) (path : Path) (seen : List String)
    (i : Nat) : List Page → Outcome (List SheetPage)
  | [] => return []
  | p :: ps =>
    if seen.contains p.name then do
      Outcome.report (duplicatePage (path.index i) p.name)
      pages index around theme path seen (i + 1) ps
    else do
      let sheet ← page index around theme [i] (path.index i) p
      let rest ← pages index around theme path (p.name :: seen) (i + 1) ps
      return sheet :: rest

/-- The book of the output. -/
def book (options : CompileOptions) (b : Book) : Outcome SheetBook := do
  let (all, duplicates) := ColumnIndex.build b
  Outcome.record (.note .debug ("indexed " ++ toString all.size ++ " columns"))
  duplicates.forM Outcome.report
  let scope := Scope.root b.definitions options
  let theme ← levelTheme {} scope .root b.theme
  let sheets ← pages (ColumnIndex.firstSeen b) scope theme (Path.root.key "pages") [] 0 b.pages
  return { title := b.name, pages := sheets }

end Compile

/-- Numbers of what has been compiled. -/
structure Metrics where
  pages : Nat
  groups : Nat
  columns : Nat
  formulas : Nat
  issues : Nat
deriving DecidableEq, Repr

/-- The number of parts of a kind that a journal records. -/
def partCount (part : Part) (journal : List Entry) : Nat :=
  journal.countP fun
    | .compiled p => p == part
    | _ => false

/-- The numbers of a compilation by its journal. -/
def Metrics.of (work : Outcome SheetBook) : Metrics where
  pages := partCount .page work.journal
  groups := partCount .group work.journal
  columns := partCount .column work.journal
  formulas := partCount .formula work.journal
  issues := work.issues.length

/-- A compiled book. -/
structure Compilation where
  book : SheetBook
  issues : List Issue
  metrics : Option Metrics
  journal : List Entry

namespace Compilation

/-- Nothing went wrong. -/
def succeeded (c : Compilation) : Bool := c.issues.isEmpty

/-- The wording of a number of issues that stopped a compilation. -/
def failureText (issues : Nat) : String :=
  "compilation failed with " ++ toString issues ++ " issue(s)"

/-- The book, or the wording of the failure. -/
def result (c : Compilation) : Except String SheetBook :=
  if c.succeeded then .ok c.book else .error (failureText c.issues.length)

/-- The line of the log for a book that has been compiled. -/
def closing (b : Book) (work : Outcome SheetBook) : Entry :=
  if work.issues.isEmpty then
    .note .debug ("compiled '" ++ b.name ++ "' (" ++ toString work.value.pages.length ++ " pages)")
  else
    .note .warn ("compiled '" ++ b.name ++ "' with " ++ toString work.issues.length ++ " issue(s)")

/-- Compile a book. -/
def compile (options : CompileOptions) (b : Book) : Compilation :=
  let work := Compile.book options b
  { book := work.value
    issues := work.issues
    metrics := if options.metrics then some (Metrics.of work) else none
    journal := work.journal ++ [closing b work] }

end Compilation

end Workbook
