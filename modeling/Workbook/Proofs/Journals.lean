import Workbook.Compilation
import Workbook.Proofs.Outcomes

/-!
# Journals of the work inside a level

A level of a book works out its theme, and a column also how its cells behave. All that this work writes
into the journal are the names it asks for, and it asks the scope of its level only. The parts of a book are
recorded outside of it.
-/

namespace Workbook

/-- All that some work writes into the journal are questions about a scope. -/
def Outcome.Consults {α : Type} (s : Scope) (o : Outcome α) : Prop :=
  ∀ e ∈ o.journal, ∃ k name, e = .lookup s k name

namespace Outcome.Consults

variable {α β : Type} {s : Scope}

theorem pure (a : α) : (Pure.pure a : Outcome α).Consults s := nofun

theorem report (i : Issue) : (Outcome.report i).Consults s := nofun

/-- Looking up a name asks the scope for it. -/
theorem lookup (k : Kind) (name : String) : (record (.lookup s k name)).Consults s := by
  intro e he
  exact ⟨k, name, List.mem_singleton.1 he⟩

/-- Work asks what its parts ask. -/
theorem bind {a : Outcome α} {f : α → Outcome β} (ha : a.Consults s) (hf : ∀ x, (f x).Consults s) :
    (a >>= f).Consults s := by
  intro e he
  obtain he | he := List.mem_append.1 he
  · exact ha e he
  · exact hf a.value e he

theorem ofExcept (r : Except Issue α) : (Outcome.ofExcept r).Consults s := by
  cases r with
  | ok a => exact pure _
  | error i => nofun

/-- Work on a value that may be missing asks what the work asks. -/
theorem forOption {f : α → Outcome (Option β)} (hf : ∀ a, (f a).Consults s) (o : Option α) :
    (Outcome.forOption f o).Consults s := by
  cases o with
  | none => exact pure _
  | some a => exact hf a

theorem mapM {f : α → Outcome β} (hf : ∀ a, (f a).Consults s) (o : Option α) : (o.mapM f).Consults s := by
  cases o with
  | none => exact pure _
  | some a => exact bind (hf a) fun _ => pure _

end Outcome.Consults

/-! ## Styles and themes -/

namespace Scope

variable (s : Scope)

/-- The value of a reference asks its scope only. -/
theorem valueOf_consults (k : Kind) (path : Path) (r : Ref k.Value) : (s.valueOf k path r).Consults s := by
  cases r with
  | inline value => exact .pure _
  | named name => exact .bind (.bind (.lookup k name) fun _ => .ofExcept _) fun _ => .pure _

/-- A border asks its scope only. -/
theorem border_consults (path : Path) (b : Border) : (s.border path b).Consults s :=
  .bind (.forOption (fun c => s.valueOf_consults .color _ c) _) fun _ => .pure _

/-- The fields of a style ask their scope only. -/
theorem styleFields_consults (path : Path) (t : Style) : (s.styleFields path t).Consults s :=
  .bind (.forOption (fun c => s.valueOf_consults .color _ c) _) fun _ =>
    .bind (.forOption (fun c => s.valueOf_consults .color _ c) _) fun _ =>
    .bind (.mapM (fun b => s.border_consults _ b) _) fun _ =>
    .bind (.mapM (fun b => s.border_consults _ b) _) fun _ => .pure _

/-- A style asks its scope only. -/
theorem style_consults (path : Path) (t : Ref Style) : (s.style path t).Consults s := by
  refine .bind (s.valueOf_consults .style path t) fun value => ?_
  cases value with
  | some t => exact s.styleFields_consults path t
  | none => exact .pure _

/-- The style of a part of a page asks its scope only. -/
theorem bucket_consults (path : Path) (t : Option (Ref Style)) : (s.bucket path t).Consults s := by
  cases t with
  | some t => exact s.style_consults path t
  | none => exact .pure _

/-- The own fields of a theme ask their scope only. -/
theorem ownTheme_consults (path : Path) (t : Theme) : (s.ownTheme path t).Consults s :=
  .bind (.forOption (fun c => s.valueOf_consults .color _ c) _) fun _ =>
    .bind (s.bucket_consults _ _) fun _ => .bind (s.bucket_consults _ _) fun _ =>
    .bind (s.bucket_consults _ _) fun _ => .pure _

end Scope

/-- An expansion consults its scope, if the work on its ancestors does. -/
theorem Cascade.expand_consults (s : Scope) (chain : List Origin) (ancestors : Outcome SheetTheme)
    (path : Path) (t : Ref Theme) (ha : ancestors.Consults s) :
    (expand s chain ancestors path t).Consults s := by
  revert ha
  refine expand.induct s
    (fun chain ancestors path t => ancestors.Consults s → (expand s chain ancestors path t).Consults s)
    (fun chain path i base ts => (inherited s chain path i base ts).Consults s)
    ?inline ?named ?nil ?cons chain ancestors path t
  case inline =>
    intro chain ancestors path t ih ha
    rw [expand]
    exact .bind ha fun base => .bind (ih base) fun _ => .bind (s.ownTheme_consults path t) fun _ => .pure _
  case named =>
    intro chain ancestors path name ih ha
    rw [expand]
    refine .bind (.lookup .theme name) fun _ => ?_
    split
    · rename_i site origin t found
      split
      · exact .bind (.report _) fun _ => .pure _
      · rename_i fresh
        exact .bind ha fun base => .bind (ih site origin t found fresh base) fun _ =>
          .bind (s.ownTheme_consults path t) fun _ => .pure _
    · exact .bind (.report _) fun _ => .pure _
    · exact .bind (.report _) fun _ => .pure _
  case nil =>
    intro chain path i base
    rw [inherited]
    exact .pure _
  case cons =>
    intro chain path i base t ts iht ihts
    rw [inherited]
    exact .bind (iht (.pure _)) fun theme => ihts theme

/-! ## Behaviors -/

namespace BehaviorContext

variable {ρ : Type} (ctx : BehaviorContext)

/-- A conditional style asks its scope only. -/
theorem conditional_consults (path : Path)
    (build : Path → ρ → SheetStyle → Except Issue ConditionalFormat) (c : ConditionalStyle ρ) :
    (ctx.conditional path build c).Consults ctx.scope :=
  .bind (ctx.scope.style_consults _ c.apply) fun _ => .ofExcept _

/-- Conditional styles ask their scope only. -/
theorem conditionals_consults (path : Path)
    (build : Path → ρ → SheetStyle → Except Issue ConditionalFormat) (i : Nat)
    (cs : List (ConditionalStyle ρ)) : (ctx.conditionals path build i cs).Consults ctx.scope := by
  induction cs generalizing i with
  | nil => exact .pure _
  | cons c cs ih =>
    exact .bind (ctx.conditional_consults _ build c) fun _ => .bind (ih (i + 1)) fun _ => .pure _

/-- The marks of an enumeration ask their scope only. -/
theorem enumConditionals_consults (path : Path) (i : Nat) (items : List EnumItem) :
    (ctx.enumConditionals path i items).Consults ctx.scope := by
  induction items generalizing i with
  | nil => exact .pure _
  | cons item items ih =>
    refine .bind ?_ fun _ => .bind (ih (i + 1)) fun _ => .pure _
    exact .forOption (fun style => .bind (ctx.scope.style_consults _ style) fun _ => .pure _) item.style?

/-- A validation asks nothing. -/
theorem validation_consults {s : Scope} (build : ρ → Except Issue DataValidation) (rule : Option ρ) :
    (validation build rule).Consults s :=
  .forOption (fun r => .ofExcept (build r)) rule

/-- A format code asks its scope only. -/
theorem formatCode_consults (k : Kind) (path : Path) (code : k.Value → String)
    (format : Option (Ref k.Value)) : (ctx.formatCode k path code format).Consults ctx.scope :=
  .forOption (fun f => .bind (ctx.scope.valueOf_consults k _ f) fun _ => .pure _) format

/-- A data type asks its scope only. -/
theorem ofType_consults (path : Path) (t : DataType) : (ctx.ofType path t).Consults ctx.scope := by
  cases t with
  | text t =>
    exact .bind (validation_consults _ t.rule) fun _ =>
      .bind (ctx.conditionals_consults _ _ 0 t.styles) fun _ => .pure _
  | enumeration t => exact .bind (ctx.enumConditionals_consults _ 0 t.values) fun _ => .pure _
  | lookup t =>
    exact .bind (.ofExcept _) fun _ => .bind (ctx.conditionals_consults _ _ 0 t.styles) fun _ => .pure _
  | numeric t =>
    exact .bind (validation_consults _ t.rule) fun _ =>
      .bind (ctx.conditionals_consults _ _ 0 t.styles) fun _ =>
      .bind (ctx.formatCode_consults .numeric _ _ t.format) fun _ => .pure _
  | temporal t =>
    exact .bind (validation_consults _ t.rule) fun _ =>
      .bind (ctx.conditionals_consults _ _ 0 t.styles) fun _ =>
      .bind (ctx.formatCode_consults .temporal _ _ t.format) fun _ => .pure _

/-- A reference to a data type asks its scope only. -/
theorem resolve_consults (path : Path) (t : Ref DataType) : (ctx.resolve path t).Consults ctx.scope := by
  refine .bind (ctx.scope.valueOf_consults .dataType path t) fun value => ?_
  cases value with
  | some t => exact .bind (ctx.ofType_consults path t) fun _ => .pure _
  | none => exact .pure _

end BehaviorContext

namespace Compile

/-- The theme of a level asks its scope only. -/
theorem levelTheme_consults (around : SheetTheme) (s : Scope) (path : Path) (t : Option (Ref Theme)) :
    (levelTheme around s path t).Consults s := by
  cases t with
  | some t => exact .bind (Cascade.expand_consults s [] _ _ t (.pure _)) fun _ => .pure _
  | none => exact .pure _

/-- The behavior of a column asks its scope only. -/
theorem behavior_consults (ctx : BehaviorContext) (path : Path) (t : Ref DataType) :
    (behavior ctx path t).Consults ctx.scope :=
  .bind (ctx.resolve_consults path t) fun _ => .pure _

end Compile

end Workbook
