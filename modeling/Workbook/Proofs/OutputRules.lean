import Workbook.Proofs.Levels

/-!
# The shape of output rules

Whoever reads the output may rely on the shape of its rules: which of operator, formulas and list values
are there follows from the kind of a validation or a condition. This holds because every rule is read as an
operator with formulas first. Such a reading has a second formula exactly for a range, and validations and
conditions are made from it in one way each; the others are lists, and conditions that test for a text.

The statements go outward from the readings of rules over validations and conditions to behaviors, and from
there to all columns of an output book.
-/

namespace Workbook

/-! ## Well-formed rules -/

namespace CellOperator

/-- The operator compares with two bounds. -/
def IsRange (o : CellOperator) : Prop := o = .between ∨ o = .notBetween

/-- The operator looks for a text in a cell. -/
def MatchesText (o : CellOperator) : Prop := o = .contains ∨ o = .beginsWith ∨ o = .endsWith

end CellOperator

/-- There is a second formula exactly when there is an operator that takes two. -/
def PairsFormulas (operator : Option CellOperator) (formula2 : Option String) : Prop :=
  formula2.isSome ↔ ∃ o, operator = some o ∧ o.IsRange

/-- A list is given by its values or by a formula. -/
structure DataValidation.IsList (d : DataValidation) : Prop where
  operator : d.operator = none
  formula2 : d.formula2 = none
  dropdown : d.showDropdown = true
  one : d.listValues.isSome ↔ d.formula1 = none

/-- A custom validation is a formula of its own. -/
structure DataValidation.IsCustom (d : DataValidation) : Prop where
  operator : d.operator = none
  formula1 : d.formula1.isSome
  formula2 : d.formula2 = none

/-- A comparison has an operator and the formulas that it takes. Only texts are matched. -/
structure DataValidation.IsComparison (d : DataValidation) : Prop where
  operator : d.operator.isSome
  formula1 : d.formula1.isSome
  formula2 : PairsFormulas d.operator d.formula2
  matching : ∀ o, d.operator = some o → o.MatchesText → d.kind = .text

/-- The parts of a validation are those of its kind. -/
structure DataValidation.WellFormed (d : DataValidation) : Prop where
  list : d.kind = .list → d.IsList
  custom : d.kind = .custom → d.IsCustom
  comparison : d.kind = .text ∨ d.kind = .decimal ∨ d.kind = .date → d.IsComparison
  unlisted : d.kind ≠ .list → d.listValues = none ∧ d.showDropdown = false

/-- The parts of a conditional format are those of its kind. -/
structure ConditionalFormat.WellFormed (f : ConditionalFormat) : Prop where
  formula1 : f.formula1.isSome
  operator : f.operator.isSome ↔ f.kind = .cellIs
  formula2 : PairsFormulas f.operator f.formula2

/-- The rules of a behavior are well formed, and it declares something. -/
structure Behavior.WellFormed (b : Behavior) : Prop where
  validation : ∀ d, b.validation = some d → d.WellFormed
  conditionals : ∀ f ∈ b.conditionals, f.WellFormed
  nonEmpty : b.validation ≠ none ∨ b.conditionals ≠ [] ∨ b.format ≠ none

/-- A behavior that is not empty has one of its three parts. -/
theorem Behavior.exists_part_of_isEmpty {b : Behavior} (h : b.isEmpty = false) :
    b.validation ≠ none ∨ b.conditionals ≠ [] ∨ b.format ≠ none := by
  simp only [isEmpty, Bool.and_eq_false_iff, Option.isNone_eq_false_iff, List.isEmpty_eq_false_iff,
    Option.isSome_iff_ne_none, or_assoc] at h
  exact h

/-- The behaviors of all columns are well formed. -/
def SheetBook.WellFormed (b : SheetBook) : Prop :=
  ∀ page ∈ b.pages, ∀ group ∈ page.groups, ∀ column ∈ group.columns,
    ∀ behavior, column.behavior = some behavior → behavior.WellFormed

/-! ## Rules as operators with formulas -/

/-- No comparison has an operator of ranges. -/
theorem Comparison.not_isRange (c : Comparison) : ¬c.operator.IsRange := by
  cases c <;> rintro (h | h) <;> cases h

/-- No comparison has an operator that matches text. -/
theorem Comparison.not_matchesText (c : Comparison) : ¬c.operator.MatchesText := by
  cases c <;> rintro (h | h | h) <;> cases h

/-- Tests of ranges have an operator of ranges. -/
theorem RangeTest.isRange (t : RangeTest) : t.operator.IsRange := by
  cases t
  · exact .inl rfl
  · exact .inr rfl

/-- No test of ranges has an operator that matches text. -/
theorem RangeTest.not_matchesText (t : RangeTest) : ¬t.operator.MatchesText := by
  cases t <;> rintro (h | h | h) <;> cases h

/-- Without an operator there is no second formula. -/
theorem pairsFormulas_none : PairsFormulas none none := by
  simp [PairsFormulas]

/-- An operator that is not one of ranges has no second formula. -/
theorem pairsFormulas_single {o : CellOperator} (h : ¬o.IsRange) : PairsFormulas (some o) none := by
  simpa [PairsFormulas] using h

/-- An operator of ranges has a second formula. -/
theorem pairsFormulas_range {o : CellOperator} (h : o.IsRange) (g : String) :
    PairsFormulas (some o) (some g) := by
  simpa [PairsFormulas] using h

/-- The formulas of a rule fit its operator, which matches no texts. -/
structure RuleFormulas.OfOrdered (f : RuleFormulas) : Prop where
  pairs : PairsFormulas f.operator f.formula2
  unmatched : ∀ o, f.operator = some o → ¬o.MatchesText

/-- The formulas of a rule for ordered values are those of such a rule. -/
theorem OrderedRule.ofOrdered_formulas {α : Type} [Bound α] {cell : FormulaCell} {path : Path}
    {rule : OrderedRule α} {f : RuleFormulas} (h : rule.formulas cell path = .ok f) : f.OfOrdered := by
  cases rule with
  | comparison test value =>
    obtain ⟨first, -, h⟩ := bind_eq_ok h
    cases h
    exact ⟨pairsFormulas_single test.not_isRange, fun o ho => by cases ho; exact test.not_matchesText⟩
  | range test low high =>
    obtain ⟨first, -, h⟩ := bind_eq_ok h
    obtain ⟨second, -, h⟩ := bind_eq_ok h
    cases h
    exact ⟨pairsFormulas_range test.isRange _, fun o ho => by cases ho; exact test.not_matchesText⟩
  | custom e =>
    obtain ⟨first, -, h⟩ := bind_eq_ok h
    cases h
    exact ⟨pairsFormulas_none, fun o ho => by cases ho⟩

/-! ## Validations -/

namespace DataValidation

variable {kind : ValidationKind} {cell : FormulaCell} {path : Path} {d : DataValidation}

/-- A validation of a rule has an operator and formulas, or it is a custom one. -/
theorem wellFormed_ofFormulas {f : RuleFormulas} (hkind : kind = .text ∨ kind = .decimal ∨ kind = .date)
    (pairs : PairsFormulas f.operator f.formula2)
    (matching : ∀ o, f.operator = some o → o.MatchesText → kind = .text) :
    (ofFormulas kind f).WellFormed := by
  obtain ⟨operator, formula1, formula2⟩ := f
  cases operator with
  | none =>
    have hsecond : formula2 = none := by
      rw [← Option.not_isSome_iff_eq_none]
      intro hsome
      obtain ⟨o, ho, -⟩ := pairs.1 hsome
      cases ho
    exact {
      list := nofun
      custom := fun _ => ⟨rfl, rfl, hsecond⟩
      comparison := by rintro (h | h | h) <;> cases h
      unlisted := fun _ => ⟨rfl, rfl⟩ }
  | some o =>
    exact {
      list := fun h => by obtain rfl | rfl | rfl := hkind <;> cases h
      custom := fun h => by obtain rfl | rfl | rfl := hkind <;> cases h
      comparison := fun _ => ⟨rfl, rfl, pairs, matching⟩
      unlisted := fun _ => ⟨rfl, rfl⟩ }

/-- The validation of a rule for ordered values is well formed. -/
theorem wellFormed_ofOrderedRule {α : Type} [Bound α] {rule : OrderedRule α}
    (hkind : kind = .text ∨ kind = .decimal ∨ kind = .date)
    (h : ofOrderedRule kind cell path rule = .ok d) : d.WellFormed := by
  unfold ofOrderedRule at h
  cases hf : rule.formulas cell path with
  | error i =>
    rw [hf] at h
    cases h
  | ok f =>
    rw [hf] at h
    cases h
    have hordered := OrderedRule.ofOrdered_formulas hf
    exact wellFormed_ofFormulas hkind hordered.pairs fun o ho hm => absurd hm (hordered.unmatched o ho)

/-- The validation of a rule for texts is well formed. -/
theorem wellFormed_ofTextRule {rule : TextRule} (h : ofTextRule cell path rule = .ok d) :
    d.WellFormed := by
  -- no rule over texts has two bounds
  have htext {o : CellOperator} (ho : ¬o.IsRange) (value : String) :
      (ofFormulas .text ⟨some o, value, none⟩).WellFormed :=
    wellFormed_ofFormulas (.inl rfl) (pairsFormulas_single ho) fun _ _ _ => rfl
  cases rule with
  | custom e =>
    obtain ⟨f, -, h⟩ := bind_eq_ok h
    cases h
    exact wellFormed_ofFormulas (.inl rfl) pairsFormulas_none fun _ _ _ => rfl
  | _ =>
    cases h
    refine htext ?_ _
    rintro (h | h) <;> cases h

/-- A validation by a list is given by exactly one of values and a formula. -/
theorem wellFormed_list {values : Option (List String)} {formula : Option String}
    (one : values.isSome ↔ formula = none) :
    WellFormed { kind := .list, showDropdown := true, listValues := values, formula1 := formula } where
  list _ := ⟨rfl, rfl, rfl, one⟩
  custom := nofun
  comparison := by rintro (h | h | h) <;> cases h
  unlisted h := absurd rfl h

/-- The validation of an enumeration is well formed. -/
theorem wellFormed_ofEnum (items : List EnumItem) : (ofEnum items).WellFormed :=
  wellFormed_list (by simp)

/-- The validation of a lookup is well formed. -/
theorem wellFormed_ofLookup {values : ColumnSelector} (h : ofLookup cell path values = .ok d) :
    d.WellFormed := by
  obtain ⟨range, -, h⟩ := bind_eq_ok h
  cases h
  exact wellFormed_list (by simp)

end DataValidation

/-! ## Conditional formats -/

namespace ConditionalFormat

variable {cell : FormulaCell} {path : Path} {style : SheetStyle} {format : ConditionalFormat}

/-- A conditional format with formulas is well formed if they go with the operator. -/
theorem wellFormed_ofFormulas {f : RuleFormulas} (pairs : PairsFormulas f.operator f.formula2) :
    (ofFormulas f style).WellFormed where
  formula1 := rfl
  operator := by
    unfold ofFormulas
    cases f.operator <;> simp
  formula2 := pairs

/-- A conditional format with a text is well formed. -/
theorem wellFormed_ofText {kind : ConditionKind} (hkind : kind ≠ .cellIs) (value : String) :
    (ofText kind value style).WellFormed where
  formula1 := rfl
  operator := iff_of_false nofun hkind
  formula2 := pairsFormulas_none

/-- The conditional format of a rule for ordered values is well formed. -/
theorem wellFormed_ofOrderedRule {α : Type} [Bound α] {rule : OrderedRule α}
    (h : ofOrderedRule cell path rule style = .ok format) : format.WellFormed := by
  unfold ofOrderedRule at h
  cases hf : rule.formulas cell path with
  | error i =>
    rw [hf] at h
    cases h
  | ok f =>
    rw [hf] at h
    cases h
    exact wellFormed_ofFormulas (OrderedRule.ofOrdered_formulas hf).pairs

/-- The condition that a cell is a text. -/
theorem wellFormed_equal (value : String) : (ofFormulas ⟨some .equal, value, none⟩ style).WellFormed :=
  wellFormed_ofFormulas (pairsFormulas_single Comparison.equal.not_isRange)

/-- The conditional format of a rule for texts is well formed. -/
theorem wellFormed_ofTextRule {rule : TextRule} (h : ofTextRule cell path rule style = .ok format) :
    format.WellFormed := by
  cases rule with
  | is value =>
    cases h
    exact wellFormed_equal _
  | custom e =>
    obtain ⟨f, -, h⟩ := bind_eq_ok h
    cases h
    exact wellFormed_ofFormulas pairsFormulas_none
  | contains value | begins value | ends value =>
    cases h
    exact wellFormed_ofText (by decide) value

end ConditionalFormat

/-! ## Behaviors -/

namespace BehaviorContext

variable {ρ : Type} (ctx : BehaviorContext) (path : Path)

/-- Conditional styles give well-formed conditions if their rules do, whichever of them fail. -/
theorem wellFormed_conditionals {build : Path → ρ → SheetStyle → Except Issue ConditionalFormat}
    (hbuild : ∀ {path rule style f}, build path rule style = .ok f → f.WellFormed)
    (styles : List (ConditionalStyle ρ)) (i : Nat) :
    ∀ f ∈ (ctx.conditionals path build i styles).value, f.WellFormed := by
  induction styles generalizing i with
  | nil => exact fun f hf => absurd hf List.not_mem_nil
  | cons c rest ih =>
    intro f hf
    obtain hf | hf := List.mem_append.1 hf
    · have hmade : (Outcome.ofExcept (build _ c.rule _)).value = some f := Option.mem_toList.1 hf
      rw [Outcome.value_ofExcept] at hmade
      exact hbuild (eq_ok_of_toOption hmade)
    · exact ih (i + 1) f hf

/-- The styles of texts make conditional formats that are well formed. -/
theorem wellFormed_textStyles (styles : List (ConditionalStyle TextRule)) :
    ∀ f ∈ (ctx.textStyles path styles).value, f.WellFormed :=
  ctx.wellFormed_conditionals _ ConditionalFormat.wellFormed_ofTextRule styles 0

/-- The styles of ordered values make conditional formats that are well formed. -/
theorem wellFormed_orderedStyles {α : Type} [Bound α] (styles : List (ConditionalStyle (OrderedRule α))) :
    ∀ f ∈ (ctx.orderedStyles path styles).value, f.WellFormed :=
  ctx.wellFormed_conditionals _ ConditionalFormat.wellFormed_ofOrderedRule styles 0

/-- The members of an enumeration make conditional formats that are well formed. -/
theorem wellFormed_enumConditionals (items : List EnumItem) (i : Nat) :
    ∀ f ∈ (ctx.enumConditionals path i items).value, f.WellFormed := by
  induction items generalizing i with
  | nil => exact fun f hf => absurd hf List.not_mem_nil
  | cons item rest ih =>
    intro f hf
    obtain hf | hf := List.mem_append.1 hf
    · rw [Option.mem_toList, enumConditional] at hf
      cases hstyle : item.style? with
      | none =>
        rw [hstyle] at hf
        cases hf
      | some style =>
        rw [hstyle] at hf
        cases hf
        exact ConditionalFormat.wellFormed_equal _
    · exact ih (i + 1) f hf

/-- A validation is well formed if every rule makes one that is. -/
theorem wellFormed_validation {build : ρ → Except Issue DataValidation}
    (hbuild : ∀ {rule d}, build rule = .ok d → d.WellFormed) (rule : Option ρ) :
    ∀ d, (validation build rule).value = some d → d.WellFormed := by
  intro d hd
  cases rule with
  | none => cases hd
  | some rule =>
    rw [validation, Outcome.forOption, Outcome.value_ofExcept] at hd
    exact hbuild (eq_ok_of_toOption hd)

/-- The rules of a data type are well formed in its behavior, whichever parts of it fail. -/
theorem wellFormed_ofType (t : DataType) (hne : (ctx.ofType path t).value.isEmpty = false) :
    (ctx.ofType path t).value.WellFormed := by
  have hne := Behavior.exists_part_of_isEmpty hne
  cases t with
  | text t =>
    exact ⟨wellFormed_validation DataValidation.wellFormed_ofTextRule t.rule,
      ctx.wellFormed_textStyles path t.styles, hne⟩
  | enumeration t =>
    refine ⟨fun d hd => ?_, ctx.wellFormed_enumConditionals _ t.values 0, hne⟩
    cases hd
    exact DataValidation.wellFormed_ofEnum t.values
  | lookup t =>
    refine ⟨fun d hd => ?_, ctx.wellFormed_textStyles path t.styles, hne⟩
    exact DataValidation.wellFormed_ofLookup (eq_ok_of_toOption ((Outcome.value_ofExcept _).symm.trans hd))
  | numeric t =>
    exact ⟨wellFormed_validation (DataValidation.wellFormed_ofOrderedRule (.inr (.inl rfl))) t.rule,
      ctx.wellFormed_orderedStyles path t.styles, hne⟩
  | temporal t =>
    exact ⟨wellFormed_validation (DataValidation.wellFormed_ofOrderedRule (.inr (.inr rfl))) t.rule,
      ctx.wellFormed_orderedStyles path t.styles, hne⟩

end BehaviorContext

/-- A behavior that a column shows is well formed. -/
theorem Compile.wellFormed_behavior {ctx : BehaviorContext} {path : Path} {t : Ref DataType}
    {behavior : Behavior} (h : (Compile.behavior ctx path t).value = some behavior) :
    behavior.WellFormed := by
  obtain ⟨hmade, hne⟩ := Option.filter_eq_some_iff.1 h
  have hne : behavior.isEmpty = false := by simpa using hne
  unfold BehaviorContext.resolve at hmade
  rw [Outcome.value_bind] at hmade
  cases hvalue : (ctx.scope.valueOf .dataType path t).value with
  | none =>
    rw [hvalue] at hmade
    cases hmade
  | some t =>
    rw [hvalue] at hmade
    cases hmade
    exact ctx.wellFormed_ofType path t hne

/-- Every rule of an output book has the parts that its kind asks for and no others, and no behavior is
empty, whatever is wrong with the book that was compiled. -/
theorem output_rules_wellFormed (options : CompileOptions) (b : Book) :
    (Compilation.compile options b).book.WellFormed := by
  intro page hpage group hgroup column hcolumn behavior hbehavior
  obtain ⟨p, rfl⟩ := Compile.exists_keptPage options hpage
  obtain ⟨g, rfl, rfl⟩ := p.exists_keptGroup options hgroup
  obtain ⟨c, rfl, rfl⟩ := g.exists_keptColumn options hcolumn
  exact Compile.wellFormed_behavior hbehavior

end Workbook
