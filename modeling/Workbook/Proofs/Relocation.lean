import Workbook.Behaviors
import Workbook.Proofs.Outcomes

/-!
# Work below a path

Work is told where it stands only for the sake of its issues. Done below another path it makes the same,
and each issue stands below that path where it stood before. The laws are here one for each way to compose
work, for work with issues and for results that may fail with one, and then for references, styles and the
expansion of themes, for formulas, and for the rules of data types.
-/

namespace Workbook

/-! ## Paths below a path -/

namespace Path

/-- A path that goes on from the end of another. -/
def join (p q : Path) : Path := ⟨p.segments ++ q.segments⟩

variable (p q : Path)

theorem join_root : p.join .root = p := by
  rw [join, root, List.append_nil]

theorem join_assoc (r : Path) : (p.join q).join r = p.join (q.join r) := by
  simp only [join, List.append_assoc]

theorem key_join (name : String) : (p.join q).key name = p.join (q.key name) := by
  simp only [key, join, List.append_assoc]

theorem index_join (n : Nat) : (p.join q).index n = p.join (q.index n) := by
  simp only [index, join, List.append_assoc]

end Path

/-- A place in a tree that stands below a path of a greater tree. -/
def Place.below (p : Path) : Place → Place
  | .node q => .node (p.join q)
  | .source location length => .source location length

/-- An issue about a tree that stands below a path of a greater tree. -/
def Issue.below (p : Path) (i : Issue) : Issue := { i with place := i.place.below p }

/-- The issue of a name without a value moves with its path. -/
theorem NameFault.issue_join (fault : NameFault) (kind : String) (p q : Path) :
    fault.issue kind (p.join q) = (fault.issue kind q).below p := by
  cases fault <;> rfl

/-- The issue of a circle of themes moves with its path. -/
theorem Cascade.circular_join (p q : Path) (name : String) (depth : Nat) :
    circular (p.join q) name depth = (circular q name depth).below p := rfl

/-! ## Results that may fail -/

/-- A result that fails below a path as it fails by itself. -/
def FailsBelow {α : Type} (r : Path → Except Issue α) : Prop :=
  ∀ p q, r (p.join q) = (r q).mapError (Issue.below p)

namespace FailsBelow

variable {α β : Type} {r : Path → Except Issue α}

theorem ok (a : α) : FailsBelow fun _ => (.ok a : Except Issue α) := fun _ _ => rfl

/-- A failure with an issue that moves with its path fails below a path as by itself. -/
theorem error {issue : Path → Issue} (h : ∀ p q, issue (p.join q) = (issue q).below p) :
    FailsBelow fun q => (.error (issue q) : Except Issue α) := by
  intro p q
  dsimp only
  rw [h]
  rfl

/-- An issue of processing moves with its path. -/
theorem processing (message : String) :
    FailsBelow fun q => (.error (.processing message q) : Except Issue α) :=
  error fun _ _ => rfl

/-- What fails below a path does so at a member. -/
theorem key (h : FailsBelow r) (name : String) : FailsBelow fun q => r (q.key name) := by
  intro p q
  dsimp only
  rw [Path.key_join]
  exact h p _

/-- What fails below a path does so at an item. -/
theorem index (h : FailsBelow r) (n : Nat) : FailsBelow fun q => r (q.index n) := by
  intro p q
  dsimp only
  rw [Path.index_join]
  exact h p _

/-- Steps that fail below a path do so one after the other. -/
theorem bind {f : Path → α → Except Issue β} (h : FailsBelow r) (hf : ∀ a, FailsBelow fun q => f q a) :
    FailsBelow fun q => r q >>= f q := by
  intro p q
  dsimp only
  rw [h]
  cases r q with
  | error i => rfl
  | ok a => exact hf a p q

theorem map (h : FailsBelow r) (f : α → β) : FailsBelow fun q => (r q).map f := by
  intro p q
  dsimp only
  rw [h]
  cases r q <;> rfl

theorem mapM {f : Path → α → Except Issue β} (hf : ∀ a, FailsBelow fun q => f q a) (as : List α) :
    FailsBelow fun q => as.mapM (f q) := by
  induction as with
  | nil => exact ok []
  | cons a rest ih =>
    simp only [List.mapM_cons]
    exact bind (hf a) fun _ => bind ih fun _ => ok _

end FailsBelow

/-! ## Work with issues -/

/-- An outcome whose issues stand below a path. -/
def Outcome.below {α : Type} (p : Path) (o : Outcome α) : Outcome α :=
  { o with issues := o.issues.map (Issue.below p) }

/-- Work that makes below a path what it makes by itself, and reports it below that path. -/
def Outcome.Relocates {α : Type} (work : Path → Outcome α) : Prop :=
  ∀ p q, work (p.join q) = (work q).below p

namespace Outcome.Relocates

variable {α β : Type} {work : Path → Outcome α}

theorem pure (a : α) : Relocates fun _ => (Pure.pure a : Outcome α) := fun _ _ => rfl

theorem record (e : Entry) : Relocates fun _ => Outcome.record e := fun _ _ => rfl

/-- A report of an issue that moves with its path moves with it. -/
theorem report {issue : Path → Issue} (h : ∀ p q, issue (p.join q) = (issue q).below p) :
    Relocates fun q => Outcome.report (issue q) := by
  intro p q
  dsimp only
  rw [h]
  rfl

/-- A result that fails below a path relocates. -/
theorem ofExcept {r : Path → Except Issue α} (h : FailsBelow r) :
    Relocates fun q => Outcome.ofExcept (r q) := by
  intro p q
  dsimp only
  rw [h]
  cases r q <;> rfl

/-- Work that relocates does so at a member. -/
theorem key (h : Relocates work) (name : String) : Relocates fun q => work (q.key name) := by
  intro p q
  dsimp only
  rw [Path.key_join]
  exact h p _

/-- Work that relocates does so at an item. -/
theorem index (h : Relocates work) (n : Nat) : Relocates fun q => work (q.index n) := by
  intro p q
  dsimp only
  rw [Path.index_join]
  exact h p _

/-- Parts of work that relocate do so one after the other. -/
theorem bind {f : Path → α → Outcome β} (h : Relocates work) (hf : ∀ a, Relocates fun q => f q a) :
    Relocates fun q => work q >>= f q := by
  intro p q
  have hnext : f (p.join q) (work q).value = (f q (work q).value).below p := hf _ p q
  change Outcome.bind (work (p.join q)) (f (p.join q)) = (Outcome.bind (work q) (f q)).below p
  rw [h]
  simp only [Outcome.bind, below, hnext, List.map_append]

/-- Work on a value that may be missing relocates if the work does. -/
theorem forOption {f : Path → α → Outcome (Option β)} (hf : ∀ a, Relocates fun q => f q a)
    (o : Option α) : Relocates fun q => Outcome.forOption (f q) o := by
  cases o with
  | none => exact pure none
  | some a => exact hf a

theorem mapM {f : Path → α → Outcome β} (hf : ∀ a, Relocates fun q => f q a) (o : Option α) :
    Relocates fun q => o.mapM (f q) := by
  cases o with
  | none => exact pure none
  | some a => exact bind (hf a) fun _ => pure _

/-- What is made does not depend on the path. -/
theorem value_eq (h : Relocates work) (p q : Path) : (work p).value = (work q).value := by
  have toRoot (p : Path) : (work p).value = (work .root).value := by
    have hp := congrArg Outcome.value (h p .root)
    rwa [Path.join_root] at hp
  rw [toRoot p, toRoot q]

/-- The issues are those of the work by itself, below the path. -/
theorem issues_eq (h : Relocates work) (p : Path) :
    (work p).issues = (work .root).issues.map (Issue.below p) := by
  have hp := congrArg Outcome.issues (h p .root)
  rwa [Path.join_root] at hp

end Outcome.Relocates

open Outcome (Relocates)

/-! ## References, styles and themes -/

namespace Scope

variable (s : Scope)

/-- The value of a reference relocates. -/
theorem valueOf_relocates (k : Kind) (r : Ref k.Value) : Relocates fun q => s.valueOf k q r := by
  cases r with
  | inline value => exact .pure _
  | named name =>
    refine .bind (.bind (.record _) fun _ => .ofExcept ?_) fun _ => .pure _
    cases s.resolve k name with
    | ok found => exact .ok found
    | error fault => exact .error fun p q => fault.issue_join k.label p q

/-- A color relocates. -/
theorem color_relocates (c : Ref Color) : Relocates fun q => s.color q c := s.valueOf_relocates .color c

/-- A border relocates. -/
theorem border_relocates (b : Border) : Relocates fun q => s.border q b :=
  .bind (.forOption (fun c => (s.color_relocates c).key "color") b.color) fun _ => .pure _

/-- The fields of a style relocate. -/
theorem styleFields_relocates (t : Style) : Relocates fun q => s.styleFields q t :=
  .bind (.forOption (fun c => (s.color_relocates c).key "fore") t.fore) fun _ =>
    .bind (.forOption (fun c => (s.color_relocates c).key "back") t.back) fun _ =>
    .bind (.mapM (fun b => (s.border_relocates b).key "beneath") t.beneath) fun _ =>
    .bind (.mapM (fun b => (s.border_relocates b).key "between") t.between) fun _ => .pure _

/-- A style relocates. -/
theorem style_relocates (t : Ref Style) : Relocates fun q => s.style q t := by
  refine .bind (s.valueOf_relocates .style t) fun value => ?_
  cases value with
  | some t => exact s.styleFields_relocates t
  | none => exact .pure _

/-- A style of a theme relocates. -/
theorem bucket_relocates (t : Option (Ref Style)) : Relocates fun q => s.bucket q t := by
  cases t with
  | some t => exact s.style_relocates t
  | none => exact .pure _

/-- The own fields of a theme relocate. -/
theorem ownTheme_relocates (t : Theme) : Relocates fun q => s.ownTheme q t :=
  .bind (.forOption (fun c => (s.color_relocates c).key "tab") t.tab) fun _ =>
    .bind ((s.bucket_relocates t.group).key "group") fun _ =>
    .bind ((s.bucket_relocates t.header).key "header") fun _ =>
    .bind ((s.bucket_relocates t.data).key "data") fun _ => .pure _

end Scope

namespace Cascade

/-- The expansion of a theme without ancestors makes the same everywhere. -/
theorem expand_relocates (s : Scope) (chain : List Origin) (t : Ref Theme) :
    Relocates fun q => expand s chain (return {}) q t := by
  -- The recursion of the expansion, for all paths at once; its own path plays no part.
  refine expand.induct s
    (fun chain _ _ t => Relocates fun q => expand s chain (return {}) q t)
    (fun chain _ i base ts => Relocates fun q => inherited s chain q i base ts)
    ?inline ?named ?nil ?cons chain (return {}) .root t
  case inline =>
    intro chain _ _ t ih
    simp only [expand]
    exact .bind (.pure _) fun base => .bind ((ih base).key "inherits") fun _ =>
      .bind (s.ownTheme_relocates t) fun _ => .pure _
  case named =>
    intro chain _ _ name ih
    simp only [expand]
    refine .bind (.record _) fun _ => ?_
    split
    · rename_i site origin t found
      split
      · exact .bind (.report fun p q => circular_join p q _ _) fun _ => .pure _
      · rename_i fresh
        exact .bind (.pure _) fun base => .bind ((ih site origin t found fresh base).key "inherits") fun _ =>
          .bind (s.ownTheme_relocates t) fun _ => .pure _
    · exact .bind (.report fun p q => NameFault.issue_join _ _ p q) fun _ => .pure _
    · exact .bind (.report fun p q => NameFault.issue_join _ _ p q) fun _ => .pure _
  case nil =>
    intro chain _ i base
    simp only [inherited]
    exact .pure _
  case cons =>
    intro chain _ i base t ts iht ihts
    simp only [inherited]
    exact .bind (iht.index i) fun theme => ihts theme

end Cascade

/-! ## Formulas -/

/-- The place of the own column fails below a path as by itself. -/
theorem Vantage.ownPlacement_failsBelow (v : Vantage) : FailsBelow fun q => v.ownPlacement q := by
  unfold ownPlacement
  cases v.columns.get? v.key with
  | some p => exact .ok p
  | none => exact .processing _

/-- The place of a named column fails below a path as by itself. -/
theorem Vantage.placement_failsBelow (v : Vantage) (c : ColumnSelector) :
    FailsBelow fun q => v.placement c q := by
  unfold placement
  dsimp only
  cases v.columns.get? (v.keyOf c) with
  | some p => exact .ok p
  | none => exact .processing _

/-- Reading a row fails below a path as by itself. -/
theorem CellUnit.parse_failsBelow (unit : String) : FailsBelow fun q => CellUnit.parse unit q := by
  unfold CellUnit.parse
  cases CellUnit.ofChars? unit.toList with
  | some u => exact .ok u
  | none => exact .processing _

namespace Selector

/-- Choosing a column fails below a path as by itself. -/
theorem resolveColumn_failsBelow (v : Vantage) (t : ColumnTarget) :
    FailsBelow fun q => resolveColumn v q t := by
  cases t with
  | own => exact v.ownPlacement_failsBelow.map _
  | column c => exact ((v.placement_failsBelow c).key "column").map _

/-- Choosing rows fails below a path as by itself. -/
theorem resolveRows_failsBelow (column : CellUnit) (header : Nat) (t : RowTarget) :
    FailsBelow fun q => resolveRows column header q t := by
  cases t with
  | own => exact .ok _
  | all => exact .ok _
  | units rows =>
    cases rows with
    | single u => exact .bind (CellUnit.parse_failsBelow u) fun _ => .ok _
    | range a b =>
      exact .bind ((CellUnit.parse_failsBelow a).key "from") fun _ =>
        .bind ((CellUnit.parse_failsBelow b).key "to") fun _ => .ok _

/-- The address of a selector fails below a path as by itself. -/
theorem resolve_failsBelow (v : Vantage) (s : Selector) : FailsBelow fun q => resolve v q s := by
  cases s with
  | own => exact .ok _
  | target cells =>
    exact .bind (resolveColumn_failsBelow v cells.column) fun _ =>
      .bind ((resolveRows_failsBelow _ _ cells.rows).key "rows") fun _ => .ok _

end Selector

/-- The text of a selector fails below a path as by itself. -/
theorem FormulaCell.selectorText_failsBelow (cell : FormulaCell) (s : Selector) :
    FailsBelow fun q => cell.selectorText s q := by
  refine .bind (s.resolve_failsBelow cell.vantage) fun address => ?_
  cases address.render cell.column cell.row with
  | ok text => exact .ok text
  | error fault => exact .processing fault.message

namespace Formula

/-- The formula of a number fails below a path as by itself. -/
theorem numberLiteral_failsBelow (x : Float) : FailsBelow fun q => numberLiteral x q := by
  unfold numberLiteral
  cases x.isFinite with
  | true => exact .ok _
  | false => exact .processing _

/-- A template fails below a path as by itself. -/
theorem template_failsBelow (cell : FormulaCell) (text : String) (vars : List (String × Selector)) :
    FailsBelow fun q => template cell q text vars := by
  refine .bind (.mapM (fun part => ?_) _) fun _ => .ok _
  cases part with
  | char c => exact .ok _
  | place name s => exact (((cell.selectorText_failsBelow s).key name).key "vars").map _

mutual

/-- The formula of an expression fails below a path as by itself. -/
theorem ofExpression_failsBelow (cell : FormulaCell) :
    ∀ e : Expression, FailsBelow fun q => ofExpression cell q e
  | .text s => .ok _
  | .number x => numberLiteral_failsBelow x
  | .boolean b => .ok _
  | .compound operator items => by
    simp only [ofExpression]
    have hitems := (operands_failsBelow cell items 0).key "items"
    cases items.isEmpty with
    | true => exact .bind (.error fun _ _ => rfl) fun _ => .bind hitems fun _ => .ok _
    | false => exact .bind hitems fun _ => .ok _
  | .negated item => by
    simp only [ofExpression]
    exact .bind ((ofExpression_failsBelow cell item).key "item") fun _ => .ok _
  | .function name items => by
    simp only [ofExpression]
    exact .bind ((arguments_failsBelow cell items 0).key "items") fun _ => .ok _
  | .selector s => by
    simp only [ofExpression]
    exact (cell.selectorText_failsBelow s).key "from"
  | .template text vars => by
    simp only [ofExpression]
    exact template_failsBelow cell text vars

theorem operands_failsBelow (cell : FormulaCell) :
    ∀ (es : List Expression) (i : Nat), FailsBelow fun q => operands cell q i es
  | [], _ => .ok _
  | e :: es, i => by
    simp only [operands]
    exact .bind ((ofExpression_failsBelow cell e).index i) fun _ =>
      .bind (operands_failsBelow cell es (i + 1)) fun _ => .ok _

theorem arguments_failsBelow (cell : FormulaCell) :
    ∀ (es : List Expression) (i : Nat), FailsBelow fun q => arguments cell q i es
  | [], _ => .ok _
  | e :: es, i => by
    simp only [arguments]
    exact .bind ((ofExpression_failsBelow cell e).index i) fun _ =>
      .bind (arguments_failsBelow cell es (i + 1)) fun _ => .ok _
end

end Formula

/-! ## Rules -/

/-- The formulas of values fail below a path as they fail by themselves. -/
def Bound.FailBelow (α : Type) [Bound α] : Prop := ∀ v : α, FailsBelow fun q => Bound.formula v q

/-- The formulas of numbers fail below a path as by themselves. -/
theorem Bound.failBelow_float : Bound.FailBelow Float := Formula.numberLiteral_failsBelow

/-- The formulas of moments fail below a path as by themselves. -/
theorem Bound.failBelow_temporal : Bound.FailBelow TemporalValue := by
  intro v
  change FailsBelow fun q => TemporalValue.formula v q
  unfold TemporalValue.formula
  cases Moment.ofText? v.text with
  | some m => exact .ok m.formula
  | none => exact .processing _

/-- The formulas of a rule for ordered values fail below a path as by themselves. -/
theorem OrderedRule.formulas_failsBelow {α : Type} [Bound α] (hb : Bound.FailBelow α) (cell : FormulaCell)
    (rule : OrderedRule α) : FailsBelow fun q => rule.formulas cell q := by
  cases rule with
  | comparison test value => exact .bind ((hb value).key "value") fun _ => .ok _
  | range test low high => exact .bind ((hb _).key "low") fun _ => .bind ((hb _).key "high") fun _ => .ok _
  | custom e => exact .bind ((Formula.ofExpression_failsBelow cell e).key "expression") fun _ => .ok _

/-- The validation of a rule for texts fails below a path as by itself. -/
theorem DataValidation.ofTextRule_failsBelow (cell : FormulaCell) (rule : TextRule) :
    FailsBelow fun q => ofTextRule cell q rule := by
  cases rule with
  | custom e => exact .bind ((Formula.ofExpression_failsBelow cell e).key "expression") fun _ => .ok _
  | _ => exact .ok _

/-- The conditional format of a rule for texts fails below a path as by itself. -/
theorem ConditionalFormat.ofTextRule_failsBelow (cell : FormulaCell) (rule : TextRule) (style : SheetStyle) :
    FailsBelow fun q => ofTextRule cell q rule style := by
  cases rule with
  | custom e => exact .bind ((Formula.ofExpression_failsBelow cell e).key "expression") fun _ => .ok _
  | _ => exact .ok _

/-- The validation of a lookup fails below a path as by itself. -/
theorem DataValidation.ofLookup_failsBelow (cell : FormulaCell) (values : ColumnSelector) :
    FailsBelow fun q => ofLookup cell q values :=
  .bind (cell.selectorText_failsBelow _) fun _ => .ok _

end Workbook
