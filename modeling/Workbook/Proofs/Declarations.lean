import Workbook.Proofs.Repeats

/-!
# Everything declared is in the output or reported

What a column declares is its value and, through its data type, a rule, the columns whose values it holds,
conditional styles, and a format. Each of them is made, or there is an issue under its own path, and never
both. Values and issues leave the parts of a column on different ways, so this is proved part by part and
carried outward: first for a reference, a rule and a list of styles, then for a data type, then for a kept
column of a whole book. A compilation without issues has lost nothing.
-/

namespace Workbook

/-- Something declared is made without an issue, or it is not made and there is one issue. -/
def PresentOrReported {α : Type} (made : Option α) (issues : List Issue) : Prop :=
  (made.isSome ∧ issues = []) ∨ (made = none ∧ ∃ i, issues = [i])

namespace PresentOrReported

variable {α : Type} {made : Option α} {issues : List Issue}

/-- Without issues a part is present. -/
theorem present (h : PresentOrReported made issues) (hnil : issues = []) : made.isSome := by
  obtain ⟨hmade, _⟩ | ⟨_, i, hi⟩ := h
  · exact hmade
  · cases hi.symm.trans hnil

/-- A part that is made or fails is present or reported. -/
theorem ofExcept (r : Except Issue α) :
    PresentOrReported (Outcome.ofExcept r).value (Outcome.ofExcept r).issues := by
  cases r with
  | ok a => exact .inl ⟨rfl, rfl⟩
  | error i => exact .inr ⟨rfl, i, rfl⟩

end PresentOrReported

/-! ## References -/

namespace Scope

/-- The value of a reference, if it has one. -/
def valueOf? (s : Scope) (k : Kind) : Ref k.Value → Option k.Value
  | .inline value => some value
  | .named name => (s.resolve k name).toOption.map Found.value

/-- Looking a reference up finds the value that it has. -/
theorem value_valueOf (s : Scope) (k : Kind) (path : Path) (r : Ref k.Value) :
    (s.valueOf k path r).value = s.valueOf? k r := by
  cases r with
  | inline value => rfl
  | named name =>
    unfold valueOf lookup valueOf?
    simp only [Outcome.value_bind, Outcome.value_pure, Outcome.value_ofExcept]
    cases s.resolve k name <;> rfl

/-- Looking a name up reports why it has no value. -/
theorem issues_valueOf_named (s : Scope) (k : Kind) (path : Path) (name : String) :
    (s.valueOf k path (.named name)).issues =
      match s.resolve k name with
      | .ok _ => []
      | .error fault => [fault.issue k.label path] := by
  change (Outcome.ofExcept ((s.resolve k name).mapError _)).issues ++ [] = _
  cases s.resolve k name <;> rfl

/-- A reference with a value is resolved without an issue. -/
theorem issues_valueOf_of_some {s : Scope} {k : Kind} {r : Ref k.Value} {value : k.Value}
    (h : s.valueOf? k r = some value) (path : Path) : (s.valueOf k path r).issues = [] := by
  cases r with
  | inline value => rfl
  | named name =>
    change (s.resolve k name).toOption.map Found.value = some value at h
    rw [issues_valueOf_named]
    cases hr : s.resolve k name with
    | ok found => rfl
    | error fault =>
      rw [hr] at h
      cases h

/-- A reference without a value is reported where it stands. -/
theorem issues_valueOf_of_none {s : Scope} {k : Kind} {r : Ref k.Value} (h : s.valueOf? k r = none)
    (path : Path) : ∃ i, (s.valueOf k path r).issues = [i] ∧ i.place = .node path := by
  cases r with
  | inline value => cases h
  | named name =>
    change (s.resolve k name).toOption.map Found.value = none at h
    rw [issues_valueOf_named]
    cases hr : s.resolve k name with
    | ok found =>
      rw [hr] at h
      cases h
    | error fault => exact ⟨fault.issue k.label path, rfl, by cases fault <;> rfl⟩

end Scope

/-! ## What data types declare -/

namespace DataType

/-- The data type has a rule for its cells. -/
def hasRule : DataType → Bool
  | .text t => t.rule.isSome
  | .numeric t => t.rule.isSome
  | .temporal t => t.rule.isSome
  | .enumeration _ | .lookup _ => false

/-- The data type takes its values from another column. -/
def isLookup : DataType → Bool
  | .lookup _ => true
  | .text _ | .enumeration _ | .numeric _ | .temporal _ => false

/-- The number of conditional styles, for data types that have a list of them. -/
def styleCount? : DataType → Option Nat
  | .text t => some t.styles.length
  | .lookup t => some t.styles.length
  | .numeric t => some t.styles.length
  | .temporal t => some t.styles.length
  | .enumeration _ => none

/-- The data type has a format. -/
def hasFormat : DataType → Bool
  | .numeric t => t.format.isSome
  | .temporal t => t.format.isSome
  | .text _ | .enumeration _ | .lookup _ => false

end DataType

/-- The names of the members of an enumeration. -/
def EnumType.names (t : EnumType) : List String :=
  t.values.map fun
    | .bare name => name
    | .styled name _ => name

/-- The names of the members that are declared with a style. -/
def EnumType.styledNames (t : EnumType) : List String :=
  t.values.filterMap fun
    | .styled name (some _) => some name
    | .styled _ none => none
    | .bare _ => none

/-- An enumeration is made when its names are offered as the valid values and each member with a style has a
condition that tests for it. -/
structure EnumType.Made (t : EnumType) (behavior : Behavior) : Prop where
  validation : behavior.validation =
    some { kind := .list, allowBlank := true, showDropdown := true, listValues := some t.names }
  conditionals : behavior.conditionals.map (fun f => (f.kind, f.operator, f.formula1, f.formula2)) =
    t.styledNames.map fun name => (.cellIs, some .equal, some (Formula.textLiteral name), none)

/-- Everything that a data type at a path declares is in the behavior or among the issues. -/
structure DataType.AccountedFor (t : DataType) (path : Path) (issues : List Issue) (behavior : Behavior) :
    Prop where
  rule : t.hasRule → PresentOrReported behavior.validation (issuesUnder (path.key "rule") issues)
  lookup : t.isLookup → PresentOrReported behavior.validation (issuesUnder (path.key "values") issues)
  enumeration : ∀ e, t = .enumeration e → e.Made behavior
  /-- Conditions and issues about rules of styles are as many as styles. -/
  styles : ∀ n, t.styleCount? = some n →
    behavior.conditionals.length + (issuesUnderItems (path.key "styles") "rule" issues).length = n
  format : t.hasFormat → PresentOrReported behavior.format (issuesUnder (path.key "format") issues)

/-- Everything that a data type declares is in the behavior. -/
structure DataType.Shown (t : DataType) (behavior : Behavior) : Prop where
  rule : t.hasRule → behavior.validation.isSome
  lookup : t.isLookup → behavior.validation.isSome
  enumeration : ∀ e, t = .enumeration e → e.Made behavior
  styles : ∀ n, t.styleCount? = some n → behavior.conditionals.length = n
  format : t.hasFormat → behavior.format.isSome

namespace DataType.AccountedFor

variable {t : DataType} {path : Path} {issues more : List Issue} {behavior : Behavior}

/-- Only issues under the path of the data type matter. -/
theorem congr (h : t.AccountedFor path issues behavior)
    (hissues : ∀ q, path.Within q → issuesUnder q more = issuesUnder q issues) :
    t.AccountedFor path more behavior := by
  have hmember (name : String) : path.Within (path.key name) := (Path.Within.refl _).ofKey
  refine ⟨fun hr => ?_, fun hl => ?_, h.enumeration, fun n hn => ?_, fun hf => ?_⟩
  · rw [hissues _ (hmember _)]
    exact h.rule hr
  · rw [hissues _ (hmember _)]
    exact h.lookup hl
  · rw [← issuesUnderItems_issuesUnder, hissues _ (hmember _), issuesUnderItems_issuesUnder]
    exact h.styles n hn
  · rw [hissues _ (hmember _)]
    exact h.format hf

/-- Without issues everything is in the behavior. -/
theorem shown (h : t.AccountedFor path [] behavior) : t.Shown behavior where
  rule hr := (h.rule hr).present rfl
  lookup hl := (h.lookup hl).present rfl
  enumeration := h.enumeration
  styles n hn := h.styles n hn
  format hf := (h.format hf).present rfl

end DataType.AccountedFor

/-! ## The parts of a behavior -/

namespace BehaviorContext

variable {ρ : Type} (ctx : BehaviorContext)

/-- The validation of a declared rule is present or reported. -/
theorem validation_accounted (build : ρ → Except Issue DataValidation) {rule : Option ρ}
    (h : rule.isSome) :
    PresentOrReported (validation build rule).value (validation build rule).issues := by
  obtain ⟨r, rfl⟩ := Option.isSome_iff_exists.1 h
  exact .ofExcept (build r)

/-- The format code of a declared format is present or reported. -/
theorem formatCode_accounted (k : Kind) (path : Path) (code : k.Value → String)
    {format : Option (Ref k.Value)} (h : format.isSome) :
    PresentOrReported (ctx.formatCode k path code format).value
      (ctx.formatCode k path code format).issues := by
  obtain ⟨f, rfl⟩ := Option.isSome_iff_exists.1 h
  change PresentOrReported ((ctx.scope.valueOf k _ f).value.map code)
    ((ctx.scope.valueOf k _ f).issues ++ [])
  rw [ctx.scope.value_valueOf, List.append_nil]
  cases hv : ctx.scope.valueOf? k f with
  | some value => exact .inl ⟨rfl, Scope.issues_valueOf_of_some hv _⟩
  | none =>
    obtain ⟨i, hi, _⟩ := Scope.issues_valueOf_of_none hv (path.key "format")
    exact .inr ⟨rfl, i, hi⟩

/-- A conditional style is made, or its rule is reported. -/
theorem conditional_accounted (path : Path)
    (build : Path → ρ → SheetStyle → Except Issue ConditionalFormat)
    (hb : ∀ path r style, FailsUnder path (build path r style)) (n : Nat) (c : ConditionalStyle ρ) :
    (ctx.conditional (path.index n) build c).value.toList.length +
      (issuesUnderItems path "rule" (ctx.conditional (path.index n) build c).issues).length = 1 := by
  have happly : issuesUnderItems path "rule"
      (ctx.scope.style ((path.index n).key "apply") c.apply).issues = [] := by
    refine issuesUnderItems_of_none fun i hi m hrule => ?_
    have hstyle := (ctx.scope.style_naming _ c.apply).under i hi
    have hnumber : n = m := hstyle.ofKey.index_inj hrule.ofKey
    subst hnumber
    exact absurd (hstyle.key_inj hrule) (by decide)
  unfold conditional
  simp only [Outcome.value_bind, Outcome.issues_bind, issuesUnderItems_append, happly, List.nil_append]
  generalize hr : build ((path.index n).key "rule") c.rule _ = r
  cases r with
  | ok format => rfl
  | error i =>
    have hunder : ∀ j ∈ [i], j.Under ((path.index n).key "rule") := by
      intro j hj
      rw [List.mem_singleton.1 hj]
      exact hb _ _ _ i hr
    change 0 + (issuesUnderItems path "rule" [i]).length = 1
    rw [issuesUnderItems_of_all n hunder]
    rfl

/-- Conditions and issues about rules of styles are as many as styles. -/
theorem conditionals_accounted (path : Path)
    (build : Path → ρ → SheetStyle → Except Issue ConditionalFormat)
    (hb : ∀ path r style, FailsUnder path (build path r style)) (n : Nat)
    (cs : List (ConditionalStyle ρ)) :
    (ctx.conditionals path build n cs).value.length +
      (issuesUnderItems path "rule" (ctx.conditionals path build n cs).issues).length = cs.length := by
  induction cs generalizing n with
  | nil => rfl
  | cons c cs ih =>
    have hfirst := ctx.conditional_accounted path build hb n c
    have hrest := ih (n + 1)
    unfold conditionals
    simp only [Outcome.value_bind, Outcome.issues_bind, Outcome.value_pure, Outcome.issues_pure,
      List.append_nil, issuesUnderItems_append, List.length_append, List.length_cons]
    omega

/-- Each member with a style has a condition that tests for it. -/
theorem enumConditionals_made (path : Path) (n : Nat) (items : List EnumItem) :
    (ctx.enumConditionals path n items).value.map
        (fun f => (f.kind, f.operator, f.formula1, f.formula2)) =
      (EnumType.styledNames ⟨items⟩).map fun name =>
        (.cellIs, some .equal, some (Formula.textLiteral name), none) := by
  induction items generalizing n with
  | nil => rfl
  | cons item items ih =>
    unfold enumConditionals enumConditional
    simp only [Outcome.value_bind, Outcome.value_pure, List.map_append, ih]
    cases item with
    | bare name => rfl
    | styled name style =>
      cases style with
      | none => rfl
      | some style => rfl

/-- The values of the list that an enumeration is validated by are its names. -/
theorem ofEnum_eq_names (items : List EnumItem) : DataValidation.ofEnum items =
    { kind := .list, allowBlank := true, showDropdown := true, listValues := some (EnumType.names ⟨items⟩) } := by
  have hnames : items.map EnumItem.name = EnumType.names ⟨items⟩ :=
    List.map_congr_left fun item _ => by cases item <;> rfl
  rw [DataValidation.ofEnum, hnames]

/-- What a text type or a lookup declares as styles is made or reported. -/
theorem textStyles_accounted (path : Path) (styles : List (ConditionalStyle TextRule)) :
    (ctx.textStyles path styles).value.length +
      (issuesUnderItems (path.key "styles") "rule" (ctx.textStyles path styles).issues).length =
        styles.length :=
  ctx.conditionals_accounted _ _ (ConditionalFormat.ofTextRule_fails ctx.cell) 0 styles

/-- What a type of ordered values declares as styles is made or reported. -/
theorem orderedStyles_accounted {α : Type} [Bound α] (hb : Bound.Reports α) (path : Path)
    (styles : List (ConditionalStyle (OrderedRule α))) :
    (ctx.orderedStyles path styles).value.length +
      (issuesUnderItems (path.key "styles") "rule" (ctx.orderedStyles path styles).issues).length =
        styles.length :=
  ctx.conditionals_accounted _ _ (fun path rule _ => (rule.formulas_fails hb ctx.cell path).map) 0 styles

/-- The three parts of a behavior report under different members of the data type. -/
structure PartIssues (path : Path) (member : String) (validation styles format : List Issue) : Prop where
  validation : ∀ i ∈ validation, i.Under (path.key member)
  styles : ∀ i ∈ styles, i.Under (path.key "styles")
  format : ∀ i ∈ format, i.Under (path.key "format")
  notStyles : member ≠ "styles"
  notFormat : member ≠ "format"

namespace PartIssues

variable {path : Path} {member : String} {validation styles format : List Issue}

/-- Under the member of the rule stand the issues of the validation. -/
theorem underMember (h : PartIssues path member validation styles format) :
    issuesUnder (path.key member) (validation ++ (styles ++ format)) = validation := by
  have hstyles : issuesUnder (path.key member) styles = [] :=
    issuesUnder_of_none fun i hi hm => h.notStyles (hm.key_inj (h.styles i hi))
  have hformat : issuesUnder (path.key member) format = [] :=
    issuesUnder_of_none fun i hi hm => h.notFormat (hm.key_inj (h.format i hi))
  rw [issuesUnder_append, issuesUnder_append, issuesUnder_of_all h.validation, hstyles, hformat,
    List.append_nil, List.append_nil]

/-- Under the rules of the styles stand issues of the styles only. -/
theorem underStyles (h : PartIssues path member validation styles format) :
    issuesUnderItems (path.key "styles") "rule" (validation ++ (styles ++ format)) =
      issuesUnderItems (path.key "styles") "rule" styles := by
  have hvalidation : issuesUnderItems (path.key "styles") "rule" validation = [] :=
    issuesUnderItems_of_none fun i hi _ hr =>
      h.notStyles ((h.validation i hi).key_inj hr.ofKey.ofIndex)
  have hformat : issuesUnderItems (path.key "styles") "rule" format = [] :=
    issuesUnderItems_of_none fun i hi _ hr =>
      absurd ((h.format i hi).key_inj hr.ofKey.ofIndex) (by decide)
  rw [issuesUnderItems_append, issuesUnderItems_append, hvalidation, hformat, List.nil_append,
    List.append_nil]

/-- Under the member of the format stand the issues of the format. -/
theorem underFormat (h : PartIssues path member validation styles format) :
    issuesUnder (path.key "format") (validation ++ (styles ++ format)) = format := by
  have hvalidation : issuesUnder (path.key "format") validation = [] :=
    issuesUnder_of_none fun i hi hf => h.notFormat ((h.validation i hi).key_inj hf)
  have hstyles : issuesUnder (path.key "format") styles = [] :=
    issuesUnder_of_none fun i hi hf => absurd ((h.styles i hi).key_inj hf) (by decide)
  rw [issuesUnder_append, issuesUnder_append, hvalidation, hstyles, issuesUnder_of_all h.format,
    List.nil_append, List.nil_append]

end PartIssues

variable (path : Path)

/-- The parts of a type of texts report at their own members. -/
theorem partIssues_text (t : TextType) :
    PartIssues path "rule" (validation (DataValidation.ofTextRule ctx.cell (path.key "rule")) t.rule).issues
      (ctx.textStyles path t.styles).issues [] where
  validation := validation_under _ _ (DataValidation.ofTextRule_fails ctx.cell _) t.rule
  styles := ctx.conditionals_under _ _ (ConditionalFormat.ofTextRule_fails ctx.cell) 0 t.styles
  format i hi := by cases hi
  notStyles := by decide
  notFormat := by decide

/-- The parts of a lookup report at their own members. -/
theorem partIssues_lookup (t : LookupType) :
    PartIssues path "values"
      (Outcome.ofExcept (DataValidation.ofLookup ctx.cell (path.key "values") t.values)).issues
      (ctx.textStyles path t.styles).issues [] where
  validation := Outcome.All.ofExcept (DataValidation.ofLookup_fails ctx.cell _ t.values)
  styles := ctx.conditionals_under _ _ (ConditionalFormat.ofTextRule_fails ctx.cell) 0 t.styles
  format i hi := by cases hi
  notStyles := by decide
  notFormat := by decide

/-- The parts of a type of ordered values report at their own members. -/
theorem partIssues_ordered {α : Type} [Bound α] (hb : Bound.Reports α) (kind : ValidationKind)
    (rule : Option (OrderedRule α)) (styles : List (ConditionalStyle (OrderedRule α))) (k : Kind)
    (code : k.Value → String) (format : Option (Ref k.Value)) :
    PartIssues path "rule"
      (validation (DataValidation.ofOrderedRule kind ctx.cell (path.key "rule")) rule).issues
      (ctx.orderedStyles path styles).issues (ctx.formatCode k path code format).issues where
  validation := validation_under _ _ (fun rule => (rule.formulas_fails hb ctx.cell _).map) rule
  styles := ctx.conditionals_under _ _ (fun path rule _ => (rule.formulas_fails hb ctx.cell path).map) 0
    styles
  format := Outcome.All.forOption
    (fun f => .bind (ctx.scope.valueOf_naming k _ f).under fun _ => .pure _) format
  notStyles := by decide
  notFormat := by decide

/-- What a type of ordered values declares is made or reported, where the issues are those of its rule, its
styles and its format. -/
theorem ordered_accounted {α : Type} [Bound α] (hb : Bound.Reports α) (kind : ValidationKind)
    (rule : Option (OrderedRule α)) (styles : List (ConditionalStyle (OrderedRule α))) (k : Kind)
    (code : k.Value → String) (format : Option (Ref k.Value)) {issues : List Issue}
    (hissues : issues =
      (validation (DataValidation.ofOrderedRule kind ctx.cell (path.key "rule")) rule).issues ++
        ((ctx.orderedStyles path styles).issues ++ ((ctx.formatCode k path code format).issues ++ []))) :
    (rule.isSome → PresentOrReported
      (validation (DataValidation.ofOrderedRule kind ctx.cell (path.key "rule")) rule).value
      (issuesUnder (path.key "rule") issues)) ∧
    (ctx.orderedStyles path styles).value.length +
      (issuesUnderItems (path.key "styles") "rule" issues).length = styles.length ∧
    (format.isSome → PresentOrReported (ctx.formatCode k path code format).value
      (issuesUnder (path.key "format") issues)) := by
  have parts := ctx.partIssues_ordered path hb kind rule styles k code format
  rw [List.append_nil] at hissues
  rw [hissues, parts.underMember, parts.underStyles, parts.underFormat]
  exact ⟨fun hr => validation_accounted _ hr, ctx.orderedStyles_accounted hb path styles,
    fun hf => ctx.formatCode_accounted k path code hf⟩

/-- Everything that a data type declares is in its behavior or reported. -/
theorem ofType_accounted (t : DataType) :
    t.AccountedFor path (ctx.ofType path t).issues (ctx.ofType path t).value := by
  cases t with
  | text t =>
    have parts := ctx.partIssues_text path t
    refine { rule := fun hr => ?_, lookup := nofun, enumeration := nofun, styles := ?_, format := nofun }
    · have hrule := validation_accounted (DataValidation.ofTextRule ctx.cell (path.key "rule")) hr
      rwa [← parts.underMember] at hrule
    · rintro _ ⟨⟩
      have hstyles := ctx.textStyles_accounted path t.styles
      rwa [← parts.underStyles] at hstyles
  | enumeration t =>
    refine { rule := nofun, lookup := nofun, enumeration := ?_, styles := nofun, format := nofun }
    rintro _ ⟨⟩
    exact ⟨congrArg some (ofEnum_eq_names t.values), ctx.enumConditionals_made _ 0 t.values⟩
  | lookup t =>
    have parts := ctx.partIssues_lookup path t
    refine { rule := nofun, lookup := fun _ => ?_, enumeration := nofun, styles := ?_, format := nofun }
    · have hvalues := PresentOrReported.ofExcept
        (DataValidation.ofLookup ctx.cell (path.key "values") t.values)
      rwa [← parts.underMember] at hvalues
    · rintro _ ⟨⟩
      have hstyles := ctx.textStyles_accounted path t.styles
      rwa [← parts.underStyles] at hstyles
  | numeric t =>
    obtain ⟨hrule, hstyles, hformat⟩ := ctx.ordered_accounted path Bound.reports_float .decimal t.rule
      t.styles .numeric NumericFormat.pattern t.format rfl
    refine { rule := hrule, lookup := nofun, enumeration := nofun, styles := ?_, format := hformat }
    rintro _ ⟨⟩
    exact hstyles
  | temporal t =>
    obtain ⟨hrule, hstyles, hformat⟩ := ctx.ordered_accounted path Bound.reports_temporal .date t.rule
      t.styles .temporal TemporalFormat.pattern t.format rfl
    refine { rule := hrule, lookup := nofun, enumeration := nofun, styles := ?_, format := hformat }
    rintro _ ⟨⟩
    exact hstyles

/-- A data type with a value has a behavior, and only the issues of its making. -/
theorem resolve_of_some {r : Ref DataType} {t : DataType}
    (h : ctx.scope.valueOf? .dataType r = some t) :
    (ctx.resolve path r).value = some (ctx.ofType path t).value ∧
      (ctx.resolve path r).issues = (ctx.ofType path t).issues := by
  have hvalue : (ctx.scope.valueOf .dataType path r).value = some t := by rw [ctx.scope.value_valueOf, h]
  unfold resolve
  simp only [Outcome.value_bind, Outcome.issues_bind, hvalue, Scope.issues_valueOf_of_some h]
  exact ⟨rfl, Outcome.issues_map some (ctx.ofType path t)⟩

/-- A data type without a value has no behavior and is reported where it stands. -/
theorem resolve_of_none {r : Ref DataType} (h : ctx.scope.valueOf? .dataType r = none) :
    (ctx.resolve path r).value = none ∧
      ∃ i, (ctx.resolve path r).issues = [i] ∧ i.place = .node path := by
  have hvalue : (ctx.scope.valueOf .dataType path r).value = none := by rw [ctx.scope.value_valueOf, h]
  obtain ⟨i, hi, hplace⟩ := Scope.issues_valueOf_of_none h path
  unfold resolve
  simp only [Outcome.value_bind, Outcome.issues_bind, hvalue, hi]
  exact ⟨rfl, i, rfl, hplace⟩

end BehaviorContext

/-! ## Kept columns -/

/-- What the cells of a column do. A column without a behavior has nothing of the kind. -/
def SheetColumn.cells (c : SheetColumn) : Behavior := c.behavior.getD {}

/-- A behavior that declares nothing is left out, and nothing is lost. -/
theorem Behavior.getD_filter (o : Option Behavior) :
    (o.filter (!·.isEmpty)).getD {} = o.getD {} := by
  cases o with
  | none => rfl
  | some behavior =>
    cases hempty : behavior.isEmpty with
    | false => rw [Option.filter_some_pos (by rw [hempty]; rfl)]
    | true =>
      rw [Option.filter_some_neg (by rw [hempty]; decide)]
      rw [isEmpty, Bool.and_eq_true, Bool.and_eq_true, Option.isNone_iff_eq_none, List.isEmpty_iff,
        Option.isNone_iff_eq_none] at hempty
      obtain ⟨⟨hvalidation, hconditionals⟩, hformat⟩ := hempty
      cases behavior
      cases hvalidation
      cases hconditionals
      cases hformat
      rfl

namespace KeptColumn

variable {b : Book}

/-- Everything that a kept column declares is in a column of the output or among some issues. -/
structure AccountedFor (c : KeptColumn b) (options : CompileOptions) (issues : List Issue)
    (sheet : SheetColumn) : Prop where
  value : c.column.value.isSome →
    PresentOrReported sheet.valueExpression (issuesUnder (c.path.key "value") issues)
  noType : (c.scope options).valueOf? .dataType c.column.dataType = none →
    sheet.behavior = none ∧ ∃ i ∈ issues, i.place = .node (c.path.key "type")
  type : ∀ t, (c.scope options).valueOf? .dataType c.column.dataType = some t →
    t.AccountedFor (c.path.key "type") issues sheet.cells

/-- Everything that a kept column declares is in a column of the output. -/
structure Shown (c : KeptColumn b) (options : CompileOptions) (sheet : SheetColumn) : Prop where
  value : c.column.value.isSome → sheet.valueExpression.isSome
  type : ∃ t, (c.scope options).valueOf? .dataType c.column.dataType = some t ∧ t.Shown sheet.cells

/-- Without issues nothing that a column declares is missing. -/
theorem AccountedFor.shown {c : KeptColumn b} {options : CompileOptions} {sheet : SheetColumn}
    (h : c.AccountedFor options [] sheet) : c.Shown options sheet where
  value hv := (h.value hv).present rfl
  type := by
    cases ht : (c.scope options).valueOf? .dataType c.column.dataType with
    | none =>
      obtain ⟨_, i, hi, _⟩ := h.noType ht
      cases hi
    | some t => exact ⟨t, rfl, (h.type t ht).shown⟩

variable (c : KeptColumn b) (options : CompileOptions)

/-- The formula of a declared value is made or reported. -/
theorem valueWork_accounted (h : c.column.value.isSome) :
    PresentOrReported c.valueWork.value c.valueWork.issues := by
  obtain ⟨e, he⟩ := Option.isSome_iff_exists.1 h
  unfold valueWork
  rw [he]
  unfold Outcome.forOption Compile.value
  simp only [Outcome.value_bind, Outcome.issues_bind]
  cases Formula.ofExpression c.cell (c.path.key "value") e with
  | ok formula => exact .inl ⟨rfl, rfl⟩
  | error i => exact .inr ⟨rfl, i, rfl⟩

/-- What the cells of a kept column do is what its data type says. -/
theorem cells_sheet {t : DataType} (h : (c.scope options).valueOf? .dataType c.column.dataType = some t) :
    (c.sheet options).cells =
      (BehaviorContext.ofType ⟨c.cell, c.scope options⟩ (c.path.key "type") t).value := by
  obtain ⟨hvalue, -⟩ :=
    BehaviorContext.resolve_of_some ⟨c.cell, c.scope options⟩ (c.path.key "type") h
  change (Option.filter _ (BehaviorContext.resolve _ _ _).value).getD {} = _
  rw [Behavior.getD_filter, hvalue]
  rfl

/-- What a kept column declares is in the column that it becomes, or it is reported. -/
theorem accountedFor_book :
    c.AccountedFor options (Compile.book options b).issues (c.sheet options) where
  value h := by
    have hunder : c.valueWork.Under (c.path.key "value") := .forOption (Compile.value_under _ _) _
    rw [c.issuesUnder_value options (Path.Within.refl _), issuesUnder_of_all hunder]
    exact c.valueWork_accounted h
  noType h := by
    obtain ⟨hvalue, i, hissues, hplace⟩ :=
      BehaviorContext.resolve_of_none ⟨c.cell, c.scope options⟩ (c.path.key "type") h
    have hbehavior : (c.sheet options).behavior = none := by
      change Option.filter _ (BehaviorContext.resolve _ _ _).value = none
      rw [hvalue]
      rfl
    refine ⟨hbehavior, i, ?_, hplace⟩
    have hi : i ∈ issuesUnder (c.path.key "type") (c.behaviorWork options).issues := by
      refine mem_issuesUnder.2 ⟨List.mem_append_left _ ?_, [], by rw [hplace, List.append_nil]⟩
      rw [hissues]
      exact List.mem_singleton_self i
    rw [← c.issuesUnder_type options (Path.Within.refl _)] at hi
    exact (mem_issuesUnder.1 hi).1
  type t h := by
    obtain ⟨-, hissues⟩ :=
      BehaviorContext.resolve_of_some ⟨c.cell, c.scope options⟩ (c.path.key "type") h
    rw [c.cells_sheet options h]
    refine (BehaviorContext.ofType_accounted _ _ t).congr fun q hq => ?_
    rw [c.issuesUnder_type options hq, ← hissues]
    exact congrArg (issuesUnder q) (List.append_nil _)

end KeptColumn

/-- A kept column becomes a column of the output under its titles, and everything that it declares is
there or is reported under its own path. So a compilation without issues has the pages, groups and columns
of the book in their order, each column with everything that it declares. -/
theorem declared_present_or_reported (options : CompileOptions) (b : Book) :
    (∀ c : KeptColumn b, ∃ sheet, (Compilation.compile options b).book.column? c.key = some sheet ∧
      c.AccountedFor options (Compilation.compile options b).issues sheet) ∧
    ((Compilation.compile options b).issues = [] →
      (Compilation.compile options b).book.pages.map SheetPage.outline = b.pages.map Page.outline ∧
      ∀ (i j k : Nat) (page : Page) (group : Group) (column : Column), b.pages[i]? = some page →
        page.groups[j]? = some group → group.columns[k]? = some column →
        ∃ c : KeptColumn b, c.path = columnPath i j k ∧ c.column = column ∧
          ∃ sheet, (Compilation.compile options b).book.column? c.key = some sheet ∧
            c.Shown options sheet) := by
  have accounted : ∀ c : KeptColumn b,
      c.AccountedFor options (Compilation.compile options b).issues (c.sheet options) :=
    fun c => c.accountedFor_book options
  refine ⟨fun c => ⟨_, c.column?_book options, accounted c⟩, fun hnil => ?_⟩
  refine ⟨Compile.outline_of_issues hnil, fun i j k page group column hp hg hc => ?_⟩
  obtain ⟨c, hpath, hcolumn⟩ := (Compile.distinct_of_issues hnil).exists_keptColumn hp hg hc
  have hshown := accounted c
  rw [hnil] at hshown
  exact ⟨c, hpath, hcolumn, _, c.column?_book options, hshown.shown⟩

end Workbook
