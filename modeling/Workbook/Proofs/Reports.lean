import Workbook.Compilation
import Workbook.Proofs.Outcomes

/-!
# Where the issues of a compilation stand

Every part of a compilation reports at the path it is given or below it: selectors, formulas, rules,
conditional styles, data types, styles and themes. A column passes on the paths of its members only, so
none of its issues is about the column as a whole once it is placed.
-/

namespace Workbook

/-! ## Selectors and formulas -/

namespace Vantage

/-- The place of the own column fails at the selector. -/
theorem ownPlacement_fails (v : Vantage) (path : Path) : FailsUnder path (v.ownPlacement path) := by
  unfold ownPlacement
  split
  · exact .ok _
  · exact .error (.processing _ _)

/-- The place of a named column fails at the selector. -/
theorem placement_fails (v : Vantage) (s : ColumnSelector) (path : Path) :
    FailsUnder path (v.placement s path) := by
  unfold placement
  dsimp only
  split
  · exact .ok _
  · exact .error (.processing _ _)

end Vantage

/-- Reading a row fails where the row is written. -/
theorem CellUnit.parse_fails (unit : String) (path : Path) : FailsUnder path (CellUnit.parse unit path) := by
  unfold CellUnit.parse
  split
  · exact .ok _
  · exact .error (.processing _ _)

namespace Selector

/-- Choosing a column fails at the selector. -/
theorem resolveColumn_fails (v : Vantage) (path : Path) (t : ColumnTarget) :
    FailsUnder path (resolveColumn v path t) := by
  cases t with
  | own => exact (v.ownPlacement_fails path).map
  | column s => exact (v.placement_fails s _).ofKey.map

/-- Choosing rows fails at the rows. -/
theorem resolveRows_fails (column : CellUnit) (header : Nat) (path : Path) (t : RowTarget) :
    FailsUnder path (resolveRows column header path t) := by
  cases t with
  | own => exact .ok _
  | all => exact .ok _
  | units rows =>
    cases rows with
    | single u => exact .bind (CellUnit.parse_fails u path) fun _ => .ok _
    | range a b =>
      exact .bind (CellUnit.parse_fails a _).ofKey fun _ =>
        .bind (CellUnit.parse_fails b _).ofKey fun _ => .ok _

/-- The address of a selector fails at the selector. -/
theorem resolve_fails (v : Vantage) (path : Path) (s : Selector) : FailsUnder path (resolve v path s) := by
  cases s with
  | own => exact .ok _
  | target cells =>
    exact .bind (resolveColumn_fails v path cells.column) fun _ =>
      .bind (resolveRows_fails _ _ _ cells.rows).ofKey fun _ => .ok _

end Selector

/-- The text of a selector fails at the selector. -/
theorem FormulaCell.selectorText_fails (cell : FormulaCell) (s : Selector) (path : Path) :
    FailsUnder path (cell.selectorText s path) := by
  refine .bind (s.resolve_fails cell.vantage path) fun address => ?_
  split
  · exact .ok _
  · exact .error (.processing _ _)

namespace Formula

/-- The formula of a number fails at the number. -/
theorem numberLiteral_fails (x : Float) (path : Path) : FailsUnder path (numberLiteral x path) := by
  unfold numberLiteral
  split
  · exact .ok _
  · exact .error (.processing _ _)

/-- A template fails at the template. -/
theorem template_fails (cell : FormulaCell) (path : Path) (text : String)
    (vars : List (String × Selector)) : FailsUnder path (template cell path text vars) := by
  refine .bind (.mapM (fun part => ?_) _) fun _ => .ok _
  cases part with
  | char c => exact .ok _
  | place name s => exact (cell.selectorText_fails s _).ofKey.ofKey.map

mutual

/-- The formula of an expression fails at the expression. -/
theorem ofExpression_fails (cell : FormulaCell) (path : Path) :
    ∀ e : Expression, FailsUnder path (ofExpression cell path e)
  | .text s => .ok _
  | .number x => numberLiteral_fails x path
  | .boolean b => .ok _
  | .compound operator items => by
    rw [ofExpression]
    have hitems := operands_fails cell (path.key "items") items 0
    split
    · exact .bind (.error (.processing _ _)) fun _ => .bind hitems.ofKey fun _ => .ok _
    · exact .bind hitems.ofKey fun _ => .ok _
  | .negated item => by
    rw [ofExpression]
    exact .bind (ofExpression_fails cell (path.key "item") item).ofKey fun _ => .ok _
  | .function name items => by
    rw [ofExpression]
    exact .bind (arguments_fails cell (path.key "items") items 0).ofKey fun _ => .ok _
  | .selector s => by
    rw [ofExpression]
    exact (cell.selectorText_fails s _).ofKey
  | .template text vars => by
    rw [ofExpression]
    exact template_fails cell path text vars

theorem operands_fails (cell : FormulaCell) (path : Path) :
    ∀ (es : List Expression) (i : Nat), FailsUnder path (operands cell path i es)
  | [], _ => .ok _
  | e :: es, i => by
    rw [operands]
    exact .bind (ofExpression_fails cell (path.index i) e).ofIndex fun _ =>
      .bind (operands_fails cell path es (i + 1)) fun _ => .ok _

theorem arguments_fails (cell : FormulaCell) (path : Path) :
    ∀ (es : List Expression) (i : Nat), FailsUnder path (arguments cell path i es)
  | [], _ => .ok _
  | e :: es, i => by
    rw [arguments]
    exact .bind (ofExpression_fails cell (path.index i) e).ofIndex fun _ =>
      .bind (arguments_fails cell path es (i + 1)) fun _ => .ok _
end

end Formula

/-! ## Rules -/

/-- The formulas of values fail at the path they are given. -/
def Bound.Reports (α : Type) [Bound α] : Prop :=
  ∀ (v : α) (path : Path), FailsUnder path (Bound.formula v path)

/-- The formulas of numbers fail at the numbers. -/
theorem Bound.reports_float : Bound.Reports Float := Formula.numberLiteral_fails

/-- The formulas of moments fail at the moments. -/
theorem Bound.reports_temporal : Bound.Reports TemporalValue := by
  intro v path
  change FailsUnder path (TemporalValue.formula v path)
  unfold TemporalValue.formula
  split
  · exact .ok _
  · exact .error (.processing _ _)

/-- The formulas of a rule for ordered values fail at the rule. -/
theorem OrderedRule.formulas_fails {α : Type} [Bound α] (hb : Bound.Reports α) (cell : FormulaCell)
    (path : Path) (rule : OrderedRule α) : FailsUnder path (rule.formulas cell path) := by
  cases rule with
  | comparison test value => exact .bind (hb value _).ofKey fun _ => .ok _
  | range test low high =>
    exact .bind (hb _ _).ofKey fun _ => .bind (hb _ _).ofKey fun _ => .ok _
  | custom e => exact .bind (Formula.ofExpression_fails cell _ e).ofKey fun _ => .ok _

/-- The validation of a rule for texts fails at the rule. -/
theorem DataValidation.ofTextRule_fails (cell : FormulaCell) (path : Path) (rule : TextRule) :
    FailsUnder path (ofTextRule cell path rule) := by
  cases rule with
  | custom e => exact .bind (Formula.ofExpression_fails cell _ e).ofKey fun _ => .ok _
  | _ => exact .ok _

/-- The conditional format of a rule for texts fails at the rule. -/
theorem ConditionalFormat.ofTextRule_fails (cell : FormulaCell) (path : Path) (rule : TextRule)
    (style : SheetStyle) : FailsUnder path (ofTextRule cell path rule style) := by
  cases rule with
  | custom e => exact .bind (Formula.ofExpression_fails cell _ e).ofKey fun _ => .ok _
  | _ => exact .ok _

/-- The validation of a lookup fails at the column that it names. -/
theorem DataValidation.ofLookup_fails (cell : FormulaCell) (path : Path) (values : ColumnSelector) :
    FailsUnder path (ofLookup cell path values) :=
  .bind (cell.selectorText_fails _ path) fun _ => .ok _

/-! ## Names, styles and themes -/

/-- The issue of a name without a value that is used at or under a path. -/
def Issue.NameFaultUnder (path : Path) (i : Issue) : Prop :=
  ∃ below kind fault, i = NameFault.issue (Kind.label kind) ⟨path.segments ++ below⟩ fault

namespace Issue.NameFaultUnder

variable {path : Path} {i : Issue}

/-- The issue of a name without a value stands where the name is used. -/
theorem here (kind : Kind) (path : Path) (fault : NameFault) :
    (fault.issue kind.label path).NameFaultUnder path :=
  ⟨[], kind, fault, by rw [List.append_nil]⟩

/-- A name that is used under a member is used under what holds it. -/
theorem ofKey {name : String} (h : i.NameFaultUnder (path.key name)) : i.NameFaultUnder path := by
  obtain ⟨below, kind, fault, rfl⟩ := h
  exact ⟨.key name :: below, kind, fault, by simp [Path.key]⟩

/-- The issue of a name stands under the path that the name is used under. -/
theorem under (h : i.NameFaultUnder path) : i.Under path := by
  obtain ⟨below, kind, fault, rfl⟩ := h
  refine ⟨below, ?_⟩
  cases fault <;> rfl

end Issue.NameFaultUnder

/-- All issues of some work are about names without a value that are used at or under a path. -/
abbrev Outcome.Naming {α : Type} (path : Path) (o : Outcome α) : Prop := o.All (Issue.NameFaultUnder path)

namespace Outcome.Naming

variable {α : Type} {path : Path} {o : Outcome α}

/-- Work that names under a member names under what holds it. -/
theorem ofKey {name : String} (h : o.Naming (path.key name)) : o.Naming path :=
  h.mono fun _ => Issue.NameFaultUnder.ofKey

/-- Work that is about names under a path reports under it. -/
theorem under (h : o.Naming path) : o.Under path := h.mono fun _ => Issue.NameFaultUnder.under

end Outcome.Naming

namespace Scope

/-- A reference has issues about its name only. -/
theorem valueOf_naming (s : Scope) (k : Kind) (path : Path) (r : Ref k.Value) :
    (s.valueOf k path r).Naming path := by
  cases r with
  | inline value => exact .pure _
  | named name =>
    refine .bind (.bind (.record _) fun _ => .ofExcept fun i hi => ?_) fun _ => .pure _
    cases hr : s.resolve k name with
    | ok found =>
      rw [hr] at hi
      cases hi
    | error fault =>
      rw [hr] at hi
      cases hi
      exact .here k path fault

/-- A border has issues about names only. -/
theorem border_naming (s : Scope) (path : Path) (b : Border) : (s.border path b).Naming path :=
  .bind (.forOption (fun c => (s.valueOf_naming .color _ c).ofKey) _) fun _ => .pure _

/-- The fields of a style have issues about names only. -/
theorem styleFields_naming (s : Scope) (path : Path) (t : Style) : (s.styleFields path t).Naming path :=
  .bind (.forOption (fun c => (s.valueOf_naming .color _ c).ofKey) _) fun _ =>
    .bind (.forOption (fun c => (s.valueOf_naming .color _ c).ofKey) _) fun _ =>
    .bind (.mapM (fun b => (s.border_naming _ b).ofKey) _) fun _ =>
    .bind (.mapM (fun b => (s.border_naming _ b).ofKey) _) fun _ => .pure _

/-- A style has issues about names only. -/
theorem style_naming (s : Scope) (path : Path) (t : Ref Style) : (s.style path t).Naming path := by
  refine .bind (s.valueOf_naming .style path t) fun value => ?_
  cases value with
  | some t => exact s.styleFields_naming path t
  | none => exact .pure _

/-- A style of a theme has issues about names only. -/
theorem bucket_naming (s : Scope) (path : Path) (t : Option (Ref Style)) :
    (s.bucket path t).Naming path := by
  cases t with
  | some t => exact s.style_naming path t
  | none => exact .pure _

/-- A theme's own fields fail only where they use names without a value. -/
theorem ownTheme_naming (s : Scope) (path : Path) (t : Theme) : (s.ownTheme path t).Naming path :=
  .bind (.forOption (fun c => (s.valueOf_naming .color _ c).ofKey) _) fun _ =>
    .bind (s.bucket_naming _ _).ofKey fun _ => .bind (s.bucket_naming _ _).ofKey fun _ =>
    .bind (s.bucket_naming _ _).ofKey fun _ => .pure _

end Scope

namespace Cascade

/-- The issue of a circle of themes stands at its path. -/
theorem circular_under (path : Path) (name : String) (depth : Nat) :
    (circular path name depth).Under path :=
  ⟨[], by simp [circular, Issue.processing, Issue.about]⟩

/-- An expansion reports at the theme's path or below it, if the work on its ancestors does. -/
theorem expand_under (s : Scope) (chain : List Origin) (ancestors : Outcome SheetTheme) (path : Path)
    (t : Ref Theme) (ha : ancestors.Under path) : (expand s chain ancestors path t).Under path := by
  revert ha
  refine expand.induct s
    (fun chain ancestors path t => ancestors.Under path → (expand s chain ancestors path t).Under path)
    (fun chain path i base ts => (inherited s chain path i base ts).Under path)
    ?inline ?named ?nil ?cons chain ancestors path t
  case inline =>
    intro chain ancestors path t ih ha
    rw [expand]
    exact .bind ha fun base => .bind (ih base).ofKey fun _ =>
      .bind (s.ownTheme_naming path t).under fun _ => .pure _
  case named =>
    intro chain ancestors path name ih ha
    rw [expand]
    refine .bind (.record _) fun _ => ?_
    split
    · rename_i site origin t found
      split
      · exact .bind (.report (circular_under _ _ _)) fun _ => .pure _
      · rename_i fresh
        exact .bind ha fun base => .bind (ih site origin t found fresh base).ofKey fun _ =>
          .bind (s.ownTheme_naming path t).under fun _ => .pure _
    · exact .bind (.report (Issue.NameFaultUnder.here .theme _ _).under) fun _ => .pure _
    · exact .bind (.report (Issue.NameFaultUnder.here .theme _ _).under) fun _ => .pure _
  case nil =>
    intro chain path i base
    rw [inherited]
    exact .pure _
  case cons =>
    intro chain path i base t ts iht ihts
    rw [inherited]
    exact .bind (iht (.pure _)).ofIndex fun theme => ihts theme

/-- A theme reports under its path. -/
theorem resolve_under (s : Scope) (path : Path) (t : Ref Theme) : (resolve s path t).Under path :=
  expand_under s [] _ path t (.pure _)

end Cascade

/-! ## Data types -/

namespace BehaviorContext

variable {ρ : Type}

/-- A conditional style reports under its path. -/
theorem conditional_under (ctx : BehaviorContext) (path : Path)
    (build : Path → ρ → SheetStyle → Except Issue ConditionalFormat)
    (hb : ∀ path r style, FailsUnder path (build path r style)) (c : ConditionalStyle ρ) :
    (ctx.conditional path build c).Under path :=
  .bind (ctx.scope.style_naming _ c.apply).ofKey.under fun style => .ofExcept (hb _ c.rule style).ofKey

/-- Conditional styles report under their list. -/
theorem conditionals_under (ctx : BehaviorContext) (path : Path)
    (build : Path → ρ → SheetStyle → Except Issue ConditionalFormat)
    (hb : ∀ path r style, FailsUnder path (build path r style)) (i : Nat)
    (cs : List (ConditionalStyle ρ)) : (ctx.conditionals path build i cs).Under path := by
  induction cs generalizing i with
  | nil => exact .pure _
  | cons c cs ih =>
    exact .bind (ctx.conditional_under _ build hb c).ofIndex fun _ => .bind (ih (i + 1)) fun _ => .pure _

/-- The marks of an enumeration report under their list. -/
theorem enumConditionals_under (ctx : BehaviorContext) (path : Path) (i : Nat) (items : List EnumItem) :
    (ctx.enumConditionals path i items).Under path := by
  induction items generalizing i with
  | nil => exact .pure _
  | cons item items ih =>
    refine .bind ?_ fun _ => .bind (ih (i + 1)) fun _ => .pure _
    exact Outcome.Under.ofIndex (.forOption (fun style =>
      .bind (ctx.scope.style_naming _ style).ofKey.under fun _ => .pure _) item.style?)

/-- A validation reports at its rule. -/
theorem validation_under (path : Path) (build : ρ → Except Issue DataValidation)
    (hb : ∀ r, FailsUnder path (build r)) (rule : Option ρ) : (validation build rule).Under path :=
  .forOption (fun r => .ofExcept (hb r)) rule

/-- A format code reports under its data type. -/
theorem formatCode_under (ctx : BehaviorContext) (k : Kind) (path : Path) (code : k.Value → String)
    (format : Option (Ref k.Value)) : (ctx.formatCode k path code format).Under path :=
  .forOption (fun f => .bind (ctx.scope.valueOf_naming k _ f).ofKey.under fun _ => .pure _) format

/-- The styles of texts report under their data type. -/
theorem textStyles_under (ctx : BehaviorContext) (path : Path)
    (styles : List (ConditionalStyle TextRule)) : (ctx.textStyles path styles).Under path :=
  (ctx.conditionals_under _ _ (ConditionalFormat.ofTextRule_fails ctx.cell) 0 styles).ofKey

/-- The styles of ordered values report under their data type. -/
theorem orderedStyles_under {α : Type} [Bound α] (hb : Bound.Reports α) (ctx : BehaviorContext)
    (path : Path) (styles : List (ConditionalStyle (OrderedRule α))) :
    (ctx.orderedStyles path styles).Under path :=
  (ctx.conditionals_under _ _ (fun path rule _ => (rule.formulas_fails hb ctx.cell path).map) 0
    styles).ofKey

/-- A data type reports under its path. -/
theorem ofType_under (ctx : BehaviorContext) (path : Path) (t : DataType) :
    (ctx.ofType path t).Under path := by
  cases t with
  | text t =>
    exact .bind (validation_under _ _ (DataValidation.ofTextRule_fails ctx.cell _) t.rule).ofKey fun _ =>
      .bind (ctx.textStyles_under path t.styles) fun _ => .pure _
  | enumeration t =>
    exact .bind (ctx.enumConditionals_under _ 0 t.values).ofKey fun _ => .pure _
  | lookup t =>
    exact .bind (.ofExcept (DataValidation.ofLookup_fails ctx.cell _ t.values).ofKey) fun _ =>
      .bind (ctx.textStyles_under path t.styles) fun _ => .pure _
  | numeric t =>
    exact .bind (validation_under _ _
        (fun rule => (rule.formulas_fails Bound.reports_float ctx.cell _).map) t.rule).ofKey fun _ =>
      .bind (ctx.orderedStyles_under Bound.reports_float path t.styles) fun _ =>
      .bind (ctx.formatCode_under .numeric path _ t.format) fun _ => .pure _
  | temporal t =>
    exact .bind (validation_under _ _
        (fun rule => (rule.formulas_fails Bound.reports_temporal ctx.cell _).map) t.rule).ofKey fun _ =>
      .bind (ctx.orderedStyles_under Bound.reports_temporal path t.styles) fun _ =>
      .bind (ctx.formatCode_under .temporal path _ t.format) fun _ => .pure _

/-- A reference to a data type reports under its path. -/
theorem resolve_under (ctx : BehaviorContext) (path : Path) (t : Ref DataType) :
    (ctx.resolve path t).Under path := by
  refine .bind (ctx.scope.valueOf_naming .dataType path t).under fun value => ?_
  cases value with
  | some t => exact .bind (ctx.ofType_under path t) fun _ => .pure _
  | none => exact .pure _

end BehaviorContext

/-! ## Levels of a book -/

/-- The kept columns of a group on a page are placed. -/
def Group.Placed (index : ColumnIndex) (page : String) (g : Group) : Prop :=
  ∀ c ∈ keepFirst Column.name [] g.columns, (index.get? ⟨page, g.name, c.name⟩).isSome

/-- The kept columns of the kept groups of a page are placed. -/
def Page.Placed (index : ColumnIndex) (p : Page) : Prop :=
  ∀ g ∈ keepFirst Group.name [] p.groups, g.Placed index p.name

namespace Compile

/-- The theme of a level reports under its member. -/
theorem levelTheme_under (around : SheetTheme) (s : Scope) (path : Path) (t : Option (Ref Theme)) :
    (levelTheme around s path t).Under (path.key "theme") := by
  cases t with
  | some t => exact .bind (Cascade.resolve_under s _ t) fun _ => .pure _
  | none => exact .pure _

/-- A column value reports under its path. -/
theorem value_under (cell : FormulaCell) (path : Path) (e : Expression) : (value cell path e).Under path := by
  refine .bind (.ofExcept (Formula.ofExpression_fails cell path e)) fun formula => ?_
  split
  · exact .bind (.record _) fun _ => .pure _
  · exact .pure _

/-- A column that is placed reports under its members only. -/
theorem column_reports (index : ColumnIndex) (page group : String) (around : Scope) (theme : SheetTheme)
    (site : Site) (path : Path) {c : Column} (hp : (index.get? ⟨page, group, c.name⟩).isSome) {i : Issue}
    (hi : i ∈ (column index page group around theme site path c).issues) :
    ∃ name, i.Under (path.key name) := by
  obtain ⟨placement, hget⟩ := Option.isSome_iff_exists.1 hp
  unfold column at hi
  simp only [Outcome.issues_bind, Outcome.issues_record, List.nil_append, List.mem_append] at hi
  obtain hi | hi := hi
  · exact ⟨"theme", levelTheme_under _ _ _ _ i hi⟩
  · rw [hget] at hi
    simp only [Outcome.issues_bind, Outcome.issues_pure, List.append_nil, List.mem_append] at hi
    obtain hi | hi := hi
    · refine ⟨"type", ?_⟩
      exact Outcome.All.bind (BehaviorContext.resolve_under _ _ _) (fun _ => .pure _) i hi
    · exact ⟨"value", Outcome.All.forOption (fun e => value_under _ _ e) _ i hi⟩

/-- Every issue of placed columns stands under a member of one of them. -/
theorem columns_reports (index : ColumnIndex) (page group : String) (around : Scope) (theme : SheetTheme)
    (site : Site) (path : Path) {seen : List String} {k : Nat} {cs : List Column}
    (hp : ∀ c ∈ keepFirst Column.name seen cs, (index.get? ⟨page, group, c.name⟩).isSome) {i : Issue}
    (hi : i ∈ (columns index page group around theme site path seen k cs).issues) :
    ∃ k name, i.Under ((path.index k).key name) := by
  induction cs generalizing seen k with
  | nil => cases hi
  | cons c cs ih =>
    rw [columns] at hi
    rw [keepFirst] at hp
    split at hi
    · rename_i hseen
      rw [if_pos hseen] at hp
      exact ih hp hi
    · rename_i hseen
      rw [if_neg hseen] at hp
      simp only [Outcome.issues_bind, Outcome.issues_pure, List.append_nil, List.mem_append] at hi
      obtain hi | hi := hi
      · exact ⟨k, column_reports _ _ _ _ _ _ _ (hp c List.mem_cons_self) hi⟩
      · exact ih (fun d hd => hp d (List.mem_cons_of_mem _ hd)) hi

/-- A group reports under its theme and under members of its columns. -/
theorem group_reports (index : ColumnIndex) (page : String) (around : Scope) (theme : SheetTheme)
    (site : Site) (path : Path) {g : Group}
    (hp : g.Placed index page) {i : Issue}
    (hi : i ∈ (group index page around theme site path g).issues) :
    i.Under (path.key "theme") ∨ ∃ k name, i.Under (((path.key "columns").index k).key name) := by
  unfold group at hi
  simp only [Outcome.issues_bind, Outcome.issues_record, Outcome.issues_pure, List.nil_append,
    List.append_nil, List.mem_append] at hi
  obtain hi | hi := hi
  · exact .inl (levelTheme_under _ _ _ _ i hi)
  · exact .inr (columns_reports _ _ _ _ _ _ _ hp hi)

/-- Groups report under their names and themes and under members of their columns. -/
theorem groups_reports (index : ColumnIndex) (page : String) (around : Scope) (theme : SheetTheme)
    (site : Site) (path : Path) {seen : List String} {j : Nat} {gs : List Group}
    (hp : ∀ g ∈ keepFirst Group.name seen gs, g.Placed index page) {i : Issue}
    (hi : i ∈ (groups index page around theme site path seen j gs).issues) :
    ∃ j, i.Under ((path.index j).key "name") ∨ i.Under ((path.index j).key "theme") ∨
      ∃ k name, i.Under ((((path.index j).key "columns").index k).key name) := by
  induction gs generalizing seen j with
  | nil => cases hi
  | cons g gs ih =>
    rw [groups] at hi
    rw [keepFirst] at hp
    split at hi
    · rename_i hseen
      rw [if_pos hseen] at hp
      rw [Outcome.issues_bind, Outcome.issues_report, List.mem_append, List.mem_singleton] at hi
      obtain rfl | hi := hi
      · exact ⟨j, .inl (.processing _ _)⟩
      · exact ih hp hi
    · rename_i hseen
      rw [if_neg hseen] at hp
      simp only [Outcome.issues_bind, Outcome.issues_pure, List.append_nil, List.mem_append] at hi
      obtain hi | hi := hi
      · exact ⟨j, .inr (group_reports _ _ _ _ _ _ (hp g List.mem_cons_self) hi)⟩
      · exact ih (fun h hh => hp h (List.mem_cons_of_mem _ hh)) hi

/-- A page reports under its theme and inside its groups. -/
theorem page_reports (index : ColumnIndex) (around : Scope) (theme : SheetTheme) (site : Site)
    (path : Path) {p : Page} (hp : p.Placed index) {i : Issue}
    (hi : i ∈ (page index around theme site path p).issues) :
    i.Under (path.key "theme") ∨ ∃ j, i.Under (((path.key "groups").index j).key "name") ∨
      i.Under (((path.key "groups").index j).key "theme") ∨
      ∃ k name, i.Under (((((path.key "groups").index j).key "columns").index k).key name) := by
  unfold page at hi
  simp only [Outcome.issues_bind, Outcome.issues_record, Outcome.issues_pure, List.nil_append,
    List.append_nil, List.mem_append] at hi
  obtain hi | hi := hi
  · exact .inl (levelTheme_under _ _ _ _ i hi)
  · exact .inr (groups_reports _ _ _ _ _ _ hp hi)

/-- Pages report under their names and themes and inside their groups. -/
theorem pages_reports (index : ColumnIndex) (around : Scope) (theme : SheetTheme) (path : Path)
    {seen : List String} {n : Nat} {ps : List Page}
    (hp : ∀ p ∈ keepFirst Page.name seen ps, p.Placed index) {i : Issue}
    (hi : i ∈ (pages index around theme path seen n ps).issues) :
    ∃ n, i.Under ((path.index n).key "name") ∨ i.Under ((path.index n).key "theme") ∨
      ∃ j, i.Under ((((path.index n).key "groups").index j).key "name") ∨
        i.Under ((((path.index n).key "groups").index j).key "theme") ∨
        ∃ k name, i.Under ((((((path.index n).key "groups").index j).key "columns").index k).key name) := by
  induction ps generalizing seen n with
  | nil => cases hi
  | cons p ps ih =>
    rw [pages] at hi
    rw [keepFirst] at hp
    split at hi
    · rename_i hseen
      rw [if_pos hseen] at hp
      rw [Outcome.issues_bind, Outcome.issues_report, List.mem_append, List.mem_singleton] at hi
      obtain rfl | hi := hi
      · exact ⟨n, .inl (.processing _ _)⟩
      · exact ih hp hi
    · rename_i hseen
      rw [if_neg hseen] at hp
      simp only [Outcome.issues_bind, Outcome.issues_pure, List.append_nil, List.mem_append] at hi
      obtain hi | hi := hi
      · exact ⟨n, .inr (page_reports _ _ _ _ _ (hp p List.mem_cons_self) hi)⟩
      · exact ih (fun q hq => hp q (List.mem_cons_of_mem _ hq)) hi

end Compile

end Workbook
