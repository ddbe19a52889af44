import Workbook.Proofs.Declarations
import Workbook.Proofs.Relocation

/-!
# The parts of a data type

A data type says which cells are valid, how some of them are marked, and how they are shown. The three parts
are resolved apart from each other: each output is that of its own part, and the issues are those of the
parts one after another. Marks are resolved apart from each other, too. The formats are those of the marks
whose rules succeed, in the order of the marks, and a mark reports the same wherever it stands in its list,
below its own number.
-/

namespace Workbook

namespace DataType

/-- What decides which cells are valid. -/
inductive RulePart where
  | text (rule : Option TextRule)
  | number (rule : Option (OrderedRule Float))
  | moment (rule : Option (OrderedRule TemporalValue))
  /-- The names of an enumeration. -/
  | names (names : List String)
  /-- The column that a lookup takes its values from. -/
  | column (values : ColumnSelector)

/-- What marks some of the cells: a conditional style, or a member of an enumeration. -/
inductive Mark where
  | text (c : ConditionalStyle TextRule)
  | number (c : ConditionalStyle (OrderedRule Float))
  | moment (c : ConditionalStyle (OrderedRule TemporalValue))
  | member (item : EnumItem)

/-- How the cells are shown. -/
inductive FormatPart where
  | plain
  | number (format : Option (Ref NumericFormat))
  | moment (format : Option (Ref TemporalFormat))

/-- The part of a data type that decides which cells are valid. -/
def rulePart : DataType → RulePart
  | .text t => .text t.rule
  | .enumeration t => .names (t.values.map EnumItem.name)
  | .lookup t => .column t.values
  | .numeric t => .number t.rule
  | .temporal t => .moment t.rule

/-- The marks of a data type. -/
def marks : DataType → List Mark
  | .text t => t.styles.map .text
  | .enumeration t => t.values.map .member
  | .lookup t => t.styles.map .text
  | .numeric t => t.styles.map .number
  | .temporal t => t.styles.map .moment

/-- The member of a data type that holds its marks. -/
def marksMember : DataType → String
  | .enumeration _ => "values"
  | .text _ | .lookup _ | .numeric _ | .temporal _ => "styles"

/-- The part of a data type that shows its cells. -/
def formatPart : DataType → FormatPart
  | .text _ | .enumeration _ | .lookup _ => .plain
  | .numeric t => .number t.format
  | .temporal t => .moment t.format

namespace Mark

/-- The style of a mark. Members of an enumeration may have none. -/
def style? : Mark → Option (Ref Style)
  | .text c => some c.apply
  | .number c => some c.apply
  | .moment c => some c.apply
  | .member item => item.style?

/-- The member of a mark that holds its style. -/
def styleMember : Mark → String
  | .member _ => "style"
  | .text _ | .number _ | .moment _ => "apply"

/-- The conditional format that the rule of a mark makes with a style. A member of an enumeration tests for
its name. -/
def build (cell : FormulaCell) (path : Path) : Mark → SheetStyle → Except Issue ConditionalFormat
  | .text c, style => ConditionalFormat.ofTextRule cell path c.rule style
  | .number c, style => ConditionalFormat.ofOrderedRule cell path c.rule style
  | .moment c, style => ConditionalFormat.ofOrderedRule cell path c.rule style
  | .member item, style => .ok (.ofFormulas ⟨some .equal, Formula.textLiteral item.name, none⟩ style)

/-- The rule of a mark has its formulas. -/
def succeeds (cell : FormulaCell) (m : Mark) : Bool := (m.build cell .root {}).toOption.isSome

end Mark

/-- The marks of a data type that have a style. -/
def styledMarks (t : DataType) : List Mark := t.marks.filter (·.style?.isSome)

end DataType

open DataType (RulePart Mark FormatPart)

namespace BehaviorContext

variable (ctx : BehaviorContext)

/-- The validation of a part that decides which cells are valid. -/
def rulePart (path : Path) : RulePart → Outcome (Option DataValidation)
  | .text rule => validation (DataValidation.ofTextRule ctx.cell (path.key "rule")) rule
  | .number rule => validation (DataValidation.ofOrderedRule .decimal ctx.cell (path.key "rule")) rule
  | .moment rule => validation (DataValidation.ofOrderedRule .date ctx.cell (path.key "rule")) rule
  | .names names => return some { kind := .list, showDropdown := true, listValues := some names }
  | .column values => Outcome.ofExcept (DataValidation.ofLookup ctx.cell (path.key "values") values)

/-- The conditional format of a mark. -/
def mark (path : Path) (m : Mark) : Outcome (Option ConditionalFormat) :=
  Outcome.forOption (fun style => do
    let style ← ctx.scope.style (path.key m.styleMember) style
    Outcome.ofExcept (m.build ctx.cell (path.key "rule") style)) m.style?

/-- The format code of a part that shows the cells. -/
def formatPart (path : Path) : FormatPart → Outcome (Option String)
  | .plain => return none
  | .number format => ctx.formatCode .numeric path NumericFormat.pattern format
  | .moment format => ctx.formatCode .temporal path TemporalFormat.pattern format

/-- The conditional formats of some marks. -/
def markFormats (ms : List Mark) : List ConditionalFormat := ms.filterMap fun m => (ctx.mark .root m).value

/-- The issues of some marks, the first of which has a number in their list. -/
def markIssues (path : Path) (i : Nat) (ms : List Mark) : List Issue :=
  (ms.zipIdx i).flatMap fun m => (ctx.mark .root m.1).issues.map (Issue.below (path.index m.2))

end BehaviorContext

/-! ## Parts below a path -/

/-- A result has a value below every path or below none. -/
theorem FailsBelow.toOption_eq {α : Type} {r : Path → Except Issue α} (h : FailsBelow r) (p q : Path) :
    (r p).toOption = (r q).toOption := by
  have toRoot (p : Path) : (r p).toOption = (r .root).toOption := by
    have hp := h p .root
    rw [Path.join_root] at hp
    rw [hp]
    cases r .root <;> rfl
  rw [toRoot p, toRoot q]

open Outcome (Relocates)

/-- What fails in building a mark fails at the same place below any path. -/
theorem DataType.Mark.build_failsBelow (cell : FormulaCell) (m : Mark) (style : SheetStyle) :
    FailsBelow fun q => m.build cell q style := by
  cases m with
  | text c => exact ConditionalFormat.ofTextRule_failsBelow cell c.rule style
  | number c => exact (c.rule.formulas_failsBelow Bound.failBelow_float cell).map _
  | moment c => exact (c.rule.formulas_failsBelow Bound.failBelow_temporal cell).map _
  | member item => exact .ok _

/-- Whether the rule of a mark succeeds does not depend on its style. -/
theorem DataType.Mark.isSome_build (cell : FormulaCell) (m : Mark) (path : Path) (style : SheetStyle) :
    (m.build cell path style).toOption.isSome = m.succeeds cell := by
  rw [(m.build_failsBelow cell style).toOption_eq path .root, succeeds]
  have ordered {α : Type} [Bound α] (rule : OrderedRule α) (style : SheetStyle) :
      (ConditionalFormat.ofOrderedRule cell .root rule style).toOption.isSome =
        (rule.formulas cell .root).toOption.isSome := by
    rw [ConditionalFormat.ofOrderedRule, toOption_map, Option.isSome_map]
  cases m with
  | text c =>
    obtain ⟨rule, apply⟩ := c
    cases rule with
    | custom e =>
      simp only [build, ConditionalFormat.ofTextRule, toOption_bind]
      cases (Formula.ofExpression cell (Path.root.key "expression") e).toOption <;> rfl
    | _ => rfl
  | number c => rw [build, build, ordered, ordered]
  | moment c => rw [build, build, ordered, ordered]
  | member item => rfl

namespace BehaviorContext

variable (ctx : BehaviorContext)

/-- The part that decides which cells are valid does the same below any path. -/
theorem rulePart_relocates (part : RulePart) : Relocates fun q => ctx.rulePart q part := by
  cases part with
  | text rule =>
    exact .forOption (fun r => .ofExcept ((DataValidation.ofTextRule_failsBelow ctx.cell r).key "rule")) rule
  | number rule =>
    exact .forOption (fun r => .ofExcept
      (((r.formulas_failsBelow Bound.failBelow_float ctx.cell).map _).key "rule")) rule
  | moment rule =>
    exact .forOption (fun r => .ofExcept
      (((r.formulas_failsBelow Bound.failBelow_temporal ctx.cell).map _).key "rule")) rule
  | names names => exact .pure _
  | column values => exact .ofExcept ((DataValidation.ofLookup_failsBelow ctx.cell values).key "values")

/-- A mark does the same below any path. -/
theorem mark_relocates (m : Mark) : Relocates fun q => ctx.mark q m :=
  .forOption (fun style => .bind ((ctx.scope.style_relocates style).key m.styleMember) fun _ =>
    .ofExcept ((m.build_failsBelow ctx.cell _).key "rule")) m.style?

/-- The part that shows the cells does the same below any path. -/
theorem formatPart_relocates (part : FormatPart) : Relocates fun q => ctx.formatPart q part := by
  cases part with
  | plain => exact .pure _
  | number format =>
    exact .forOption (fun f => .bind ((ctx.scope.valueOf_relocates .numeric f).key "format") fun _ => .pure _)
      format
  | moment format =>
    exact .forOption (fun f => .bind ((ctx.scope.valueOf_relocates .temporal f).key "format") fun _ => .pure _)
      format

/-! ## Lists of marks -/

/-- The conditional formats of some marks and more of them are side by side. -/
theorem markFormats_append (ms ns : List Mark) :
    ctx.markFormats (ms ++ ns) = ctx.markFormats ms ++ ctx.markFormats ns :=
  List.filterMap_append

/-- The issues of some marks and more of them are side by side, and the later marks are counted on. -/
theorem markIssues_append (path : Path) (i : Nat) (ms ns : List Mark) :
    ctx.markIssues path i (ms ++ ns) = ctx.markIssues path i ms ++ ctx.markIssues path (i + ms.length) ns := by
  rw [markIssues, List.zipIdx_append, List.flatMap_append]
  rfl

/-- Marks that are resolved one after another, each with its number. -/
theorem markFormats_markIssues {α : Type} (path : Path) (toMark : α → Mark)
    {run : Nat → List α → Outcome (List ConditionalFormat)} (hnil : ∀ i, run i [] = return [])
    (hcons : ∀ i a as, run i (a :: as) = do
      let format ← ctx.mark (path.index i) (toMark a)
      let rest ← run (i + 1) as
      return format.toList ++ rest) (i : Nat) (as : List α) :
    (run i as).value = ctx.markFormats (as.map toMark) ∧
      (run i as).issues = ctx.markIssues path i (as.map toMark) := by
  induction as generalizing i with
  | nil =>
    rw [hnil]
    exact ⟨rfl, rfl⟩
  | cons a as ih =>
    obtain ⟨value, issues⟩ := ih (i + 1)
    have relocates := ctx.mark_relocates (toMark a)
    rw [hcons, List.map_cons]
    constructor
    · simp only [Outcome.value_bind, Outcome.value_pure]
      rw [value, relocates.value_eq (path.index i) .root, markFormats, markFormats, List.filterMap_cons]
      cases (ctx.mark .root (toMark a)).value <;> rfl
    · simp only [Outcome.issues_bind, Outcome.issues_pure, List.append_nil]
      rw [issues, relocates.issues_eq (path.index i)]
      rfl

/-- What the rule of a mark makes with the style of the mark. -/
theorem value_mark (m : Mark) :
    (ctx.mark .root m).value = m.style?.bind fun style =>
      (m.build ctx.cell (Path.root.key "rule")
        (ctx.scope.style (Path.root.key m.styleMember) style).value).toOption := by
  rw [mark]
  cases m.style? with
  | none => rfl
  | some style => rw [Outcome.forOption, Outcome.value_bind, Outcome.value_ofExcept, Option.bind_some]

/-- A mark makes a format exactly when it has a style and its rule succeeds. -/
theorem isSome_mark (m : Mark) :
    (ctx.mark .root m).value.isSome = (m.style?.isSome && m.succeeds ctx.cell) := by
  rw [ctx.value_mark]
  cases m.style? with
  | none => rfl
  | some style => rw [Option.bind_some, m.isSome_build, Option.isSome_some, Bool.true_and]

/-- Marks without a style make no format. -/
theorem markFormats_styled (ms : List Mark) :
    ctx.markFormats (ms.filter (·.style?.isSome)) = ctx.markFormats ms := by
  rw [markFormats, List.filterMap_filter]
  refine List.filterMap_congr fun m _ => ?_
  have made := ctx.isSome_mark m
  cases style : m.style? with
  | none =>
    rw [style, Option.isSome_none, Bool.false_and, Option.isSome_eq_false_iff,
      Option.isNone_iff_eq_none] at made
    rw [made]
    rfl
  | some style => rfl

/-- The formats of some marks are those of the marks whose rules succeed, in order. -/
theorem map_some_markFormats (ms : List Mark) :
    (ctx.markFormats ms).map some =
      (ms.filter fun m => m.style?.isSome && m.succeeds ctx.cell).map fun m => (ctx.mark .root m).value := by
  induction ms with
  | nil => rfl
  | cons m ms ih =>
    have made := ctx.isSome_mark m
    rw [markFormats, List.filterMap_cons, List.filter_cons, ← made]
    cases value : (ctx.mark .root m).value with
    | none => exact ih
    | some format =>
      rw [Option.isSome_some, if_pos rfl, List.map_cons, List.map_cons, value]
      exact congrArg _ ih

/-! ## Data types -/

/-- The styles of texts are marks at the member `styles`. -/
theorem textStyles_marks (path : Path) (styles : List (ConditionalStyle TextRule)) :
    (ctx.textStyles path styles).value = ctx.markFormats (styles.map .text) ∧
      (ctx.textStyles path styles).issues = ctx.markIssues (path.key "styles") 0 (styles.map .text) :=
  ctx.markFormats_markIssues _ .text (fun _ => rfl) (fun _ _ _ => rfl) 0 styles

theorem numberStyles_marks (path : Path) (styles : List (ConditionalStyle (OrderedRule Float))) :
    (ctx.orderedStyles path styles).value = ctx.markFormats (styles.map .number) ∧
      (ctx.orderedStyles path styles).issues = ctx.markIssues (path.key "styles") 0 (styles.map .number) :=
  ctx.markFormats_markIssues _ .number (fun _ => rfl) (fun _ _ _ => rfl) 0 styles

theorem momentStyles_marks (path : Path) (styles : List (ConditionalStyle (OrderedRule TemporalValue))) :
    (ctx.orderedStyles path styles).value = ctx.markFormats (styles.map .moment) ∧
      (ctx.orderedStyles path styles).issues = ctx.markIssues (path.key "styles") 0 (styles.map .moment) :=
  ctx.markFormats_markIssues _ .moment (fun _ => rfl) (fun _ _ _ => rfl) 0 styles

/-- The members of an enumeration are marks at the list that holds them. -/
theorem enumConditionals_marks (path : Path) (items : List EnumItem) :
    (ctx.enumConditionals path 0 items).value = ctx.markFormats (items.map .member) ∧
      (ctx.enumConditionals path 0 items).issues = ctx.markIssues path 0 (items.map .member) :=
  ctx.markFormats_markIssues path .member (fun _ => rfl) (fun _ _ _ => rfl) 0 items

/-- The outputs and the issues of a data type, part by part. -/
theorem ofType_parts (path : Path) (t : DataType) :
    (ctx.ofType path t).value = ⟨(ctx.rulePart path t.rulePart).value, ctx.markFormats t.marks,
      (ctx.formatPart path t.formatPart).value⟩ ∧
    (ctx.ofType path t).issues = (ctx.rulePart path t.rulePart).issues ++
      (ctx.markIssues (path.key t.marksMember) 0 t.marks ++ (ctx.formatPart path t.formatPart).issues) := by
  cases t with
  | text t =>
    obtain ⟨value, issues⟩ := ctx.textStyles_marks path t.styles
    simp only [ofType, Outcome.value_bind, Outcome.issues_bind, value, issues]
    exact ⟨rfl, rfl⟩
  | enumeration t =>
    obtain ⟨value, issues⟩ := ctx.enumConditionals_marks (path.key "values") t.values
    simp only [ofType, Outcome.value_bind, Outcome.issues_bind, value, issues]
    exact ⟨rfl, rfl⟩
  | lookup t =>
    obtain ⟨value, issues⟩ := ctx.textStyles_marks path t.styles
    simp only [ofType, Outcome.value_bind, Outcome.issues_bind, value, issues]
    exact ⟨rfl, rfl⟩
  | numeric t =>
    obtain ⟨value, issues⟩ := ctx.numberStyles_marks path t.styles
    simp only [ofType, Outcome.value_bind, Outcome.issues_bind, Outcome.issues_pure, List.append_nil, value,
      issues]
    exact ⟨rfl, rfl⟩
  | temporal t =>
    obtain ⟨value, issues⟩ := ctx.momentStyles_marks path t.styles
    simp only [ofType, Outcome.value_bind, Outcome.issues_bind, Outcome.issues_pure, List.append_nil, value,
      issues]
    exact ⟨rfl, rfl⟩

/-- The behavior of a declared data type, part by part. -/
theorem value_resolve (path : Path) {r : Ref DataType} {t : DataType}
    (h : ctx.scope.valueOf? .dataType r = some t) :
    (ctx.resolve path r).value = some {
      validation := (ctx.rulePart .root t.rulePart).value
      conditionals := ctx.markFormats t.styledMarks
      format := (ctx.formatPart .root t.formatPart).value } := by
  rw [(ctx.resolve_of_some path h).1, (ctx.ofType_parts path t).1,
    (ctx.rulePart_relocates t.rulePart).value_eq path .root,
    (ctx.formatPart_relocates t.formatPart).value_eq path .root, DataType.styledMarks, ctx.markFormats_styled]

/-- The parts of a data type are resolved apart from each other. The validation is that of its rule, of its
names or of its column, the conditional formats are those of its marks, and the format code is that of its
format. So another data type with one of these parts in common has the output of that part in common,
whatever becomes of the other parts. The issues are those of the parts in this order. In the list of marks
the formats and issues of any stretch are its own, the issues below the numbers of the stretch, and the
formats are in the order of the marks that have a style and whose rules succeed. -/
theorem parts_resolve_independently (path : Path) {r : Ref DataType} {t : DataType}
    (h : ctx.scope.valueOf? .dataType r = some t) :
    (ctx.resolve path r).value = some {
      validation := (ctx.rulePart .root t.rulePart).value
      conditionals := ctx.markFormats t.styledMarks
      format := (ctx.formatPart .root t.formatPart).value } ∧
    (ctx.resolve path r).issues = (ctx.rulePart path t.rulePart).issues ++
      (ctx.markIssues (path.key t.marksMember) 0 t.marks ++ (ctx.formatPart path t.formatPart).issues) ∧
    (∀ path' r' t', ctx.scope.valueOf? .dataType r' = some t' →
      ∃ b b', (ctx.resolve path r).value = some b ∧ (ctx.resolve path' r').value = some b' ∧
        (t'.rulePart = t.rulePart → b'.validation = b.validation) ∧
        (t'.styledMarks = t.styledMarks → b'.conditionals = b.conditionals) ∧
        (t'.formatPart = t.formatPart → b'.format = b.format)) ∧
    (∀ before ms after, t.marks = before ++ (ms ++ after) →
      ctx.markFormats t.styledMarks =
        ctx.markFormats before ++ (ctx.markFormats ms ++ ctx.markFormats after) ∧
      ∀ q, ctx.markIssues q 0 t.marks = ctx.markIssues q 0 before ++
        (ctx.markIssues q before.length ms ++ ctx.markIssues q (before.length + ms.length) after)) ∧
    (ctx.markFormats t.styledMarks).map some =
      (t.styledMarks.filter (·.succeeds ctx.cell)).map fun m => (ctx.mark .root m).value := by
  refine ⟨ctx.value_resolve path h, ?_, ?_, ?_, ?_⟩
  · rw [(ctx.resolve_of_some path h).2, (ctx.ofType_parts path t).2]
  · intro path' r' t' h'
    refine ⟨_, _, ctx.value_resolve path h, ctx.value_resolve path' h', ?_, ?_, ?_⟩
    · intro same
      rw [same]
    · intro same
      rw [same]
    · intro same
      rw [same]
  · intro before ms after split
    refine ⟨?_, fun q => ?_⟩
    · rw [DataType.styledMarks, ctx.markFormats_styled, split, ctx.markFormats_append, ctx.markFormats_append]
    · rw [split, ctx.markIssues_append, ctx.markIssues_append, Nat.zero_add]
  · rw [ctx.map_some_markFormats]
    refine congrArg (List.map _) (List.filter_congr fun m hm => ?_)
    rw [(List.mem_filter.1 hm).2, Bool.true_and]

/-- A context without columns and definitions. -/
def bareContext : BehaviorContext := ⟨⟨⟨{}, ⟨"Stock", "Items", "note"⟩⟩, 0, 1⟩, .root none {}⟩

/-- Notes with a rule that fails, a mark that fails in its rule and its style, and a mark that is made. -/
def brokenNotes : DataType := .text {
  rule := some (.custom (.compound .add []))
  styles := [⟨.custom (.compound .add []), .named "ghost"⟩, ⟨.is "late", .inline { bold := some true }⟩] }

/-- Of the broken notes the mark that can be made is made, and the other parts are reported. -/
theorem parts_resolve_independently_brokenNotes :
    bareContext.scope.valueOf? .dataType (.inline brokenNotes) = some brokenNotes ∧
    (bareContext.resolve .root (.inline brokenNotes)).value = some {
      conditionals := [.ofFormulas ⟨some .equal, Formula.textLiteral "late", none⟩ { bold := some true }] } ∧
    (bareContext.resolve .root (.inline brokenNotes)).issues.map Issue.place = [
      .node ⟨[.key "rule", .key "expression"]⟩,
      .node ⟨[.key "styles", .index 0, .key "apply"]⟩,
      .node ⟨[.key "styles", .index 0, .key "rule", .key "expression"]⟩] := by
  have found : bareContext.scope.valueOf? .dataType (.inline brokenNotes) = some brokenNotes := rfl
  obtain ⟨value, issues, -⟩ := bareContext.parts_resolve_independently .root found
  refine ⟨found, value.trans rfl, ?_⟩
  rw [issues]
  decide +kernel

end BehaviorContext

end Workbook
