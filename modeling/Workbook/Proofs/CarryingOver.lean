import Workbook.Proofs.Declarations
import Workbook.Proofs.Inlining
import Workbook.Proofs.PageIndependence

/-!
# Work that carries over

Work that meets no problem gives the same when it is done again where more is known: in a scope with the
same definitions and at least the same standard libraries, and on a part of a book in which some names
are replaced by their values. Every function of the compilation keeps this relation between two runs, from
the value of a reference up to a book; nothing is claimed of a run that reports an issue.

Themes need one fact more. A theme in place of its name is no definition that can be met again, so fewer
themes are being expanded, and where no theme came back before none does now.
-/

namespace Workbook

/-! ## Outcomes without issues -/

/-- If some work meets no problem then other work meets none, and makes something that is related. -/
def Outcome.CarriesOver {α β : Type} (R : α → β → Prop) (o : Outcome α) (o' : Outcome β) : Prop :=
  o.issues = [] → o'.issues = [] ∧ R o.value o'.value

namespace Outcome.CarriesOver

variable {α β γ δ : Type} {P : α → β → Prop} {R : γ → δ → Prop}

/-- Work that carries over goes on with work that carries over. -/
theorem bind {a : Outcome α} {b : Outcome β} {f : α → Outcome γ} {g : β → Outcome δ}
    (h : CarriesOver P a b) (hf : ∀ x y, P x y → CarriesOver R (f x) (g y)) :
    CarriesOver R (a >>= f) (b >>= g) := by
  intro hnil
  rw [issues_bind, List.append_eq_nil_iff] at hnil
  obtain ⟨hb, hvalue⟩ := h hnil.1
  obtain ⟨hg, hresult⟩ := hf _ _ hvalue hnil.2
  exact ⟨by rw [issues_bind, hb, hg, List.append_nil], hresult⟩

/-- The next piece of work after pieces that make the same. -/
theorem bind_eq {a a' : Outcome α} {f : α → Outcome γ} {g : α → Outcome δ} (h : CarriesOver Eq a a')
    (hf : ∀ x, CarriesOver R (f x) (g x)) : CarriesOver R (a >>= f) (a' >>= g) :=
  bind h fun x _ hxy => hxy ▸ hf x

theorem refl (o : Outcome α) : CarriesOver Eq o o := fun hnil => ⟨hnil, rfl⟩

/-- What is only recorded does not matter. -/
theorem record {e e' : Entry} {f : Unit → Outcome α} {g : Unit → Outcome β}
    (h : CarriesOver P (f ()) (g ())) :
    CarriesOver P (Outcome.record e >>= f) (Outcome.record e' >>= g) := h

/-- Work on a name, which is recorded, carries over to work on a value. -/
theorem record_left {e : Entry} {f : Unit → Outcome α} {o : Outcome β} (h : CarriesOver P (f ()) o) :
    CarriesOver P (Outcome.record e >>= f) o := h

/-- Work that reports an issue promises nothing. -/
theorem report {i : Issue} {f : Unit → Outcome α} {o : Outcome β} :
    CarriesOver P (Outcome.report i >>= f) o := fun hnil => by cases hnil

theorem map {a a' : Outcome α} (f : α → γ) (h : CarriesOver Eq a a') :
    CarriesOver Eq (f <$> a) (f <$> a') := by
  intro hnil
  rw [issues_map] at hnil
  obtain ⟨ha, hvalue⟩ := h hnil
  exact ⟨by rw [issues_map, ha], by rw [value_map, value_map, hvalue]⟩

/-- Work on a value that may be missing carries over to work on a related one. -/
theorem forOption {f : α → Outcome (Option γ)} {g : β → Outcome (Option γ)} {o : Option α} {o' : Option β}
    (ho : Option.Rel P o o') (hf : ∀ a b, P a b → CarriesOver Eq (f a) (g b)) :
    CarriesOver Eq (Outcome.forOption f o) (Outcome.forOption g o') := by
  cases ho with
  | none => exact refl _
  | some h => exact hf _ _ h

/-- Work on each of at most one value carries over to work on a related one. -/
theorem mapM {f : α → Outcome γ} {g : β → Outcome γ} {o : Option α} {o' : Option β}
    (ho : Option.Rel P o o') (hf : ∀ a b, P a b → CarriesOver Eq (f a) (g b)) :
    CarriesOver Eq (o.mapM f) (o'.mapM g) := by
  cases ho with
  | none => exact refl _
  | some h => exact bind_eq (hf _ _ h) fun _ => refl _

end Outcome.CarriesOver

open Outcome (CarriesOver)

/-! ## Scopes that know more -/

/-- Another scope sees the same definitions, and its standard libraries have everything that those of the
scope have. -/
structure Scope.CoveredBy (s s' : Scope) : Prop where
  layers : ∀ k, s'.layers k = s.layers k
  standard : ∀ k name value, s.standard k name = some value → s'.standard k name = some value

namespace Scope

variable {s s' : Scope}

namespace CoveredBy

theorem refl (s : Scope) : s.CoveredBy s where
  layers _ := rfl
  standard _ _ _ h := h

/-- A scope still covers another with the same definitions on top of both. -/
theorem overlay (h : s.CoveredBy s') (site : Site) (definitions : Option Definitions) :
    (s.overlay site definitions).CoveredBy (s'.overlay site definitions) where
  layers k := by rw [layers_overlay, layers_overlay, h.layers]
  standard k := by
    rw [standard_overlay, standard_overlay]
    exact h.standard k

/-- A name with a value has the same value where more is known. -/
theorem resolve (h : s.CoveredBy s') {k : Kind} {name : String} {found : Found k.Value}
    (hs : s.resolve k name = .ok found) : s'.resolve k name = .ok found := by
  unfold Scope.resolve at hs ⊢
  rw [h.layers]
  cases hw : (s.layers k).walk [] name with
  | value site origin value =>
    rw [Layers.resolve_of_value hw] at hs ⊢
    exact hs
  | circular names =>
    rw [Layers.resolve_of_circular hw] at hs
    cases hs
  | missing names last =>
    rw [Layers.resolve_of_missing hw] at hs ⊢
    cases hl : s.standard k last with
    | none =>
      rw [hl] at hs
      cases hs
    | some value =>
      rw [hl] at hs
      rw [h.standard k last value hl]
      exact hs

end CoveredBy

/-- A name whose innermost definition is written in place means what is written there. -/
theorem Means.of_inline {k : Kind} {name : String} {site : Site} {value : k.Value}
    (h : (s.layers k).find? name = some (site, .inline value)) : s.Means k name value :=
  ⟨_, Layers.resolve_of_value (Layers.walk_inline List.not_mem_nil h), rfl⟩

/-- An alias of such a name means the same. -/
theorem Means.of_named {k : Kind} {name next : String} {aliasSite site : Site} {value : k.Value}
    (h : (s.layers k).find? name = some (aliasSite, .named next)) (hne : next ≠ name)
    (hnext : (s.layers k).find? next = some (site, .inline value)) : s.Means k name value := by
  have fresh : next ∉ [] ++ [name] := fun hmem => hne (List.mem_singleton.1 hmem)
  have hwalk := (Layers.walk_named List.not_mem_nil h).trans (Layers.walk_inline fresh hnext)
  exact ⟨_, Layers.resolve_of_value hwalk, rfl⟩

/-- No theme is in a standard library, so a theme with a value is written in a definition. -/
theorem Means.walk_theme {name : String} {t : Theme} (h : s.Means .theme name t) :
    ∃ site origin, s.themes.walk [] name = .value site origin t := by
  obtain ⟨found, h, rfl⟩ := h
  change s.themes.resolve (s.standard .theme) name = .ok found at h
  cases hw : s.themes.walk [] name with
  | value site origin value =>
    rw [Layers.resolve_of_value hw] at h
    cases h
    exact ⟨site, origin, rfl⟩
  | circular names =>
    rw [Layers.resolve_of_circular hw] at h
    cases h
  | missing names last =>
    rw [Layers.resolve_of_missing hw] at h
    cases h

/-! ## References, colors and styles -/

/-- The value of a reference carries over to a reference with names replaced. -/
theorem valueOf_carriesOver (h : s.CoveredBy s') {k : Kind} {inside : k.Value → k.Value → Prop}
    (hrefl : ∀ a, inside a a) (path : Path) {r r' : Ref k.Value} (hr : Ref.Inlined (s.Means k) inside r r') :
    CarriesOver (Option.Rel inside) (s.valueOf k path r) (s'.valueOf k path r') := by
  intro hnil
  cases hr with
  | within hab => exact ⟨rfl, .some hab⟩
  | copied means copy =>
    obtain ⟨found, hs, rfl⟩ := means
    refine ⟨rfl, ?_⟩
    rw [value_valueOf, valueOf?, hs]
    exact .some copy
  | same name =>
    rw [issues_valueOf_named] at hnil ⊢
    rw [value_valueOf, value_valueOf, valueOf?, valueOf?]
    cases hs : s.resolve k name with
    | error fault =>
      rw [hs] at hnil
      cases hnil
    | ok found =>
      rw [h.resolve hs]
      exact ⟨rfl, .some (hrefl _)⟩

/-- Values that hold no references are the same. -/
theorem valueOf_carriesOver_eq (h : s.CoveredBy s') {k : Kind} (path : Path) {r r' : Ref k.Value}
    (hr : Ref.Inlined (s.Means k) Eq r r') : CarriesOver Eq (s.valueOf k path r) (s'.valueOf k path r') := by
  intro hnil
  obtain ⟨hissues, hvalue⟩ := valueOf_carriesOver h (fun _ => rfl) path hr hnil
  refine ⟨hissues, ?_⟩
  generalize (s.valueOf k path r).value = o, (s'.valueOf k path r').value = o' at hvalue ⊢
  cases hvalue with
  | none => rfl
  | some heq => rw [heq]

/-- A border carries over to the same one with names replaced. -/
theorem border_carriesOver (h : s.CoveredBy s') (path : Path) {b b' : Border} (hb : Border.Inlined s b b') :
    CarriesOver Eq (s.border path b) (s'.border path b') := by
  unfold border
  rw [hb.style]
  exact .bind_eq (.forOption hb.color fun _ _ => valueOf_carriesOver_eq h _) fun _ => .refl _

/-- The fields of a style carry over to those of the same style with names replaced. -/
theorem styleFields_carriesOver (h : s.CoveredBy s') (path : Path) {t t' : Style}
    (ht : Style.Inlined s t t') : CarriesOver Eq (s.styleFields path t) (s'.styleFields path t') := by
  unfold styleFields
  rw [ht.bold, ht.italic]
  refine .bind_eq (.forOption ht.fore fun _ _ => valueOf_carriesOver_eq h _) fun fore => ?_
  refine .bind_eq (.forOption ht.back fun _ _ => valueOf_carriesOver_eq h _) fun back => ?_
  refine .bind_eq (.mapM ht.beneath fun _ _ => border_carriesOver h _) fun beneath => ?_
  exact .bind_eq (.mapM ht.between fun _ _ => border_carriesOver h _) fun between => .refl _

/-- A style carries over to the same one with names replaced. -/
theorem style_carriesOver (h : s.CoveredBy s') (path : Path) {t t' : Ref Style}
    (ht : Ref.Inlined (s.Means .style) (Style.Inlined s) t t') : CarriesOver Eq (s.style path t) (s'.style path t') := by
  refine .bind (valueOf_carriesOver h Style.Inlined.refl path ht) fun value value' hvalue => ?_
  cases hvalue with
  | none => exact .refl _
  | some hfields => exact styleFields_carriesOver h path hfields

/-- The style of a part of a page carries over to the same one with names replaced. -/
theorem bucket_carriesOver (h : s.CoveredBy s') (path : Path) {t t' : Option (Ref Style)}
    (ht : Option.Rel (Ref.Inlined (s.Means .style) (Style.Inlined s)) t t') :
    CarriesOver Eq (s.bucket path t) (s'.bucket path t') := by
  cases ht with
  | none => exact .refl _
  | some ht => exact style_carriesOver h path ht

/-- The own fields of a theme carry over to those of the same theme with names replaced. -/
theorem ownTheme_carriesOver (h : s.CoveredBy s') (path : Path) {t t' : Theme} (ht : Theme.Inlined s t t') :
    CarriesOver Eq (s.ownTheme path t) (s'.ownTheme path t') := by
  obtain ⟨_, tab, group, header, data⟩ := ht
  refine .bind_eq (.forOption tab fun _ _ => valueOf_carriesOver_eq h _) fun tab => ?_
  refine .bind_eq (bucket_carriesOver h _ group) fun group => ?_
  refine .bind_eq (bucket_carriesOver h _ header) fun header => ?_
  exact .bind_eq (bucket_carriesOver h _ data) fun data => .refl _

end Scope

/-! ## Themes -/

namespace Cascade

variable {s s' : Scope}

/-- Of the definitions that are being expanded in one run, all are in the other. -/
def NoMore (chain' chain : List Origin) : Prop :=
  ∀ site name, Origin.definition site name ∈ chain' → Origin.definition site name ∈ chain

/-- A chain holds no more definitions than another after both take one more. -/
theorem NoMore.append {chain' chain : List Origin} (h : NoMore chain' chain) (o : Origin) :
    NoMore (chain' ++ [o]) (chain ++ [o]) := by
  intro site name hmem
  rw [List.mem_append] at hmem ⊢
  exact hmem.imp_left (h site name)

/-- A theme that is written in place is no definition that could be met again. -/
theorem NoMore.append_inline {chain' chain : List Origin} (h : NoMore chain' chain) (o : Origin) :
    NoMore (chain' ++ [.inline]) (chain ++ [o]) := by
  intro site name hmem
  rw [List.mem_append, List.mem_singleton] at hmem
  obtain hmem | hinline := hmem
  · exact List.mem_append_left _ (h site name hmem)
  · cases hinline

/-- What a name of a theme expands to, by the end of the search for it. -/
theorem expand_named (s : Scope) (chain : List Origin) (ancestors : Outcome SheetTheme) (path : Path)
    (name : String) :
    expand s chain ancestors path (.named name) = (do
      Outcome.record (.lookup s .theme name)
      match s.themes.walk [] name with
      | .value site origin t =>
        if Origin.definition site origin ∈ chain then
          Outcome.report (circular path name chain.length)
          return {}
        else
          let base ← ancestors
          let base ← inherited s (chain ++ [.definition site origin]) (path.key "inherits") 0 base t.inherits
          let own ← s.ownTheme path t
          return base.overlay own
      | .circular names =>
        Outcome.report ((NameFault.circular names).issue Kind.theme.label path)
        return {}
      | .missing names last =>
        Outcome.report ((NameFault.unknown names last).issue Kind.theme.label path)
        return {}) := by
  rw [expand]
  congr 1
  funext _
  split <;> rename_i found <;> simp only [found, dite_eq_ite]

/-- A theme that is laid over its inherited themes, and these over its ancestors, carries over if all of them
do. -/
theorem overlaid_carriesOver (h : s.CoveredBy s') (path : Path) {ancestors ancestors' : Outcome SheetTheme}
    {under under' : SheetTheme → Outcome SheetTheme} {t t' : Theme} (ha : CarriesOver Eq ancestors ancestors')
    (hunder : ∀ base, CarriesOver Eq (under base) (under' base)) (ht : Theme.Inlined s t t') :
    CarriesOver Eq
      (do let base ← ancestors; let base ← under base; let own ← s.ownTheme path t; return base.overlay own)
      (do let base ← ancestors'; let base ← under' base; let own ← s'.ownTheme path t'
          return base.overlay own) :=
  .bind_eq ha fun base => .bind_eq (hunder base) fun _ =>
    .bind_eq (Scope.ownTheme_carriesOver h path ht) fun _ => .refl _

/-- An expansion carries over while no more definitions are being expanded. -/
theorem expand_carriesOver (h : s.CoveredBy s') (chain : List Origin) (ancestors : Outcome SheetTheme)
    (path : Path) (t : Ref Theme) {chain' : List Origin} {ancestors' : Outcome SheetTheme} {t' : Ref Theme}
    (hchain : NoMore chain' chain) (ha : CarriesOver Eq ancestors ancestors')
    (ht : Ref.Inlined (s.Means .theme) (Theme.Inlined s) t t') :
    CarriesOver Eq (expand s chain ancestors path t) (expand s' chain' ancestors' path t') := by
  revert chain' ancestors' t' hchain ha ht
  refine expand.induct s
    (fun chain ancestors path t => ∀ {chain' : List Origin} {ancestors' : Outcome SheetTheme}
      {t' : Ref Theme}, NoMore chain' chain → CarriesOver Eq ancestors ancestors' →
      Ref.Inlined (s.Means .theme) (Theme.Inlined s) t t' →
      CarriesOver Eq (expand s chain ancestors path t) (expand s' chain' ancestors' path t'))
    (fun chain path i base ts => ∀ {chain' : List Origin} {ts' : List (Ref Theme)}, NoMore chain' chain →
      List.Forall₂ (Ref.Inlined (s.Means .theme) (Theme.Inlined s)) ts ts' →
      CarriesOver Eq (inherited s chain path i base ts) (inherited s' chain' path i base ts'))
    ?inline ?named ?nil ?cons chain ancestors path t
  case inline =>
    intro chain ancestors path t ih chain' ancestors' t' hchain ha ht
    cases ht with
    | within ht =>
      rw [expand, expand]
      exact overlaid_carriesOver h path ha (fun base => ih base (hchain.append _) ht.inherits) ht
  case named =>
    intro chain ancestors path name ih chain' ancestors' t' hchain ha ht
    rw [expand_named]
    cases ht with
    | same =>
      have hthemes : s'.themes = s.themes := h.layers .theme
      rw [expand_named, hthemes]
      refine .record ?_
      cases hwalk : s.themes.walk [] name with
      | circular names => exact .report
      | missing names last => exact .report
      | value site origin t =>
        have hsame : Theme.Inlined s t t := .refl t
        dsimp only
        split
        · exact .report
        · rename_i fresh
          rw [if_neg fun again => fresh (hchain site origin again)]
          exact overlaid_carriesOver h path ha
            (fun base => ih site origin t hwalk fresh base (hchain.append _) hsame.inherits) hsame
    | @copied _ t _ means copy =>
      obtain ⟨site, origin, hwalk⟩ := means.walk_theme
      rw [expand, hwalk]
      refine .record_left ?_
      dsimp only
      split
      · exact .report
      · rename_i fresh
        -- the copy is expanded as a theme that is written in place, so its chain gets no definition
        exact overlaid_carriesOver h path ha
          (fun base => ih site origin t hwalk fresh base (hchain.append_inline _) copy.inherits) copy
  case nil =>
    intro chain path i base chain' ts' _ hts
    cases hts
    rw [inherited, inherited]
    exact .refl _
  case cons =>
    intro chain path i base t ts iht ihts chain' ts' hchain hts
    cases hts with
    | cons ht hts =>
      rw [inherited, inherited]
      exact .bind_eq (iht hchain (.refl _) ht) fun theme => ihts theme hchain hts

/-- A theme carries over. -/
theorem resolve_carriesOver (h : s.CoveredBy s') (path : Path) {t t' : Ref Theme}
    (ht : Ref.Inlined (s.Means .theme) (Theme.Inlined s) t t') :
    CarriesOver Eq (resolve s path t) (resolve s' path t') :=
  expand_carriesOver h [] (pure {}) path t (fun _ _ again => again) (.refl _) ht

end Cascade

/-! ## Data types -/

namespace BehaviorContext

variable {ρ : Type} {ctx ctx' : BehaviorContext}

/-- Another context is for the same cell, and its scope knows more. -/
structure CoveredBy (ctx ctx' : BehaviorContext) : Prop where
  cell : ctx'.cell = ctx.cell
  scope : ctx.scope.CoveredBy ctx'.scope

/-- A conditional style carries over to the same one with names replaced. -/
theorem conditional_carriesOver (h : ctx.CoveredBy ctx') (path : Path)
    (build : Path → ρ → SheetStyle → Except Issue ConditionalFormat) {c c' : ConditionalStyle ρ}
    (hc : ConditionalStyle.Inlined ctx.scope c c') :
    CarriesOver Eq (ctx.conditional path build c) (ctx'.conditional path build c') := by
  unfold conditional
  rw [hc.rule]
  exact .bind_eq (Scope.style_carriesOver h.scope _ hc.apply) fun style => .refl _

/-- Conditional styles carry over to the same ones with names replaced. -/
theorem conditionals_carriesOver (h : ctx.CoveredBy ctx') (path : Path)
    (build : Path → ρ → SheetStyle → Except Issue ConditionalFormat) (i : Nat)
    {cs cs' : List (ConditionalStyle ρ)} (hcs : List.Forall₂ (ConditionalStyle.Inlined ctx.scope) cs cs') :
    CarriesOver Eq (ctx.conditionals path build i cs) (ctx'.conditionals path build i cs') := by
  induction hcs generalizing i with
  | nil => exact .refl _
  | cons hc _ ih =>
    exact .bind_eq (conditional_carriesOver h _ build hc) fun format => .bind_eq (ih (i + 1)) fun rest =>
      .refl _

/-- The mark of a member of an enumeration carries over to the same one with names replaced. -/
theorem enumConditional_carriesOver (h : ctx.CoveredBy ctx') (path : Path) {item item' : EnumItem}
    (hitem : EnumItem.Inlined ctx.scope item item') :
    CarriesOver Eq (ctx.enumConditional path item) (ctx'.enumConditional path item') := by
  unfold enumConditional
  rw [hitem.name]
  exact .forOption hitem.style fun _ _ hstyle =>
    .bind_eq (Scope.style_carriesOver h.scope _ hstyle) fun style => .refl _

/-- The marks of an enumeration carry over to the same ones with names replaced. -/
theorem enumConditionals_carriesOver (h : ctx.CoveredBy ctx') (path : Path) (i : Nat)
    {items items' : List EnumItem} (hitems : List.Forall₂ (EnumItem.Inlined ctx.scope) items items') :
    CarriesOver Eq (ctx.enumConditionals path i items) (ctx'.enumConditionals path i items') := by
  induction hitems generalizing i with
  | nil => exact .refl _
  | cons hitem _ ih =>
    exact .bind_eq (enumConditional_carriesOver h _ hitem) fun format => .bind_eq (ih (i + 1)) fun rest =>
      .refl _

/-- The styles of texts carry over to the same ones with names replaced. -/
theorem textStyles_carriesOver (h : ctx.CoveredBy ctx') (path : Path)
    {cs cs' : List (ConditionalStyle TextRule)}
    (hcs : List.Forall₂ (ConditionalStyle.Inlined ctx.scope) cs cs') :
    CarriesOver Eq (ctx.textStyles path cs) (ctx'.textStyles path cs') := by
  unfold textStyles
  rw [h.cell]
  exact conditionals_carriesOver h _ _ 0 hcs

/-- The styles of ordered values carry over to the same ones with names replaced. -/
theorem orderedStyles_carriesOver {α : Type} [Bound α] (h : ctx.CoveredBy ctx') (path : Path)
    {cs cs' : List (ConditionalStyle (OrderedRule α))}
    (hcs : List.Forall₂ (ConditionalStyle.Inlined ctx.scope) cs cs') :
    CarriesOver Eq (ctx.orderedStyles path cs) (ctx'.orderedStyles path cs') := by
  unfold orderedStyles
  rw [h.cell]
  exact conditionals_carriesOver h _ _ 0 hcs

/-- A format code carries over to that of the same format with names replaced. -/
theorem formatCode_carriesOver (h : ctx.CoveredBy ctx') (k : Kind) (path : Path) (code : k.Value → String)
    {format format' : Option (Ref k.Value)}
    (hformat : Option.Rel (Ref.Inlined (ctx.scope.Means k) Eq) format format') :
    CarriesOver Eq (ctx.formatCode k path code format) (ctx'.formatCode k path code format') :=
  .forOption hformat fun _ _ hf => .bind_eq (Scope.valueOf_carriesOver_eq h.scope _ hf) fun _ => .refl _

/-- The members of an enumeration have the same names. -/
theorem ofEnum_eq {s : Scope} {items items' : List EnumItem}
    (hitems : List.Forall₂ (EnumItem.Inlined s) items items') :
    DataValidation.ofEnum items' = DataValidation.ofEnum items := by
  have hnames : items'.map EnumItem.name = items.map EnumItem.name := by
    induction hitems with
    | nil => rfl
    | cons hitem _ ih => rw [List.map_cons, List.map_cons, hitem.name, ih]
  rw [DataValidation.ofEnum, DataValidation.ofEnum, hnames]

/-- What a data type makes carries over to what it makes with names replaced. -/
theorem ofType_carriesOver (h : ctx.CoveredBy ctx') (path : Path) {t t' : DataType}
    (ht : DataType.Inlined ctx.scope t t') : CarriesOver Eq (ctx.ofType path t) (ctx'.ofType path t') := by
  cases ht with
  | text rule styles =>
    rw [ofType, ofType, h.cell, rule]
    exact .bind_eq (.refl _) fun validation => .bind_eq (textStyles_carriesOver h path styles) fun _ =>
      .refl _
  | enumeration values =>
    rw [ofType, ofType, ofEnum_eq values]
    exact .bind_eq (enumConditionals_carriesOver h _ 0 values) fun _ => .refl _
  | lookup values styles =>
    rw [ofType, ofType, h.cell, values]
    exact .bind_eq (.refl _) fun validation => .bind_eq (textStyles_carriesOver h path styles) fun _ =>
      .refl _
  | numeric rule styles format =>
    rw [ofType, ofType, h.cell, rule]
    exact .bind_eq (.refl _) fun validation => .bind_eq (orderedStyles_carriesOver h path styles) fun _ =>
      .bind_eq (formatCode_carriesOver h .numeric path _ format) fun _ => .refl _
  | temporal rule styles format =>
    rw [ofType, ofType, h.cell, rule]
    exact .bind_eq (.refl _) fun validation => .bind_eq (orderedStyles_carriesOver h path styles) fun _ =>
      .bind_eq (formatCode_carriesOver h .temporal path _ format) fun _ => .refl _

/-- What a reference to a data type makes carries over to what it makes with names replaced. -/
theorem resolve_carriesOver (h : ctx.CoveredBy ctx') (path : Path) {t t' : Ref DataType}
    (ht : Ref.Inlined (ctx.scope.Means .dataType) (DataType.Inlined ctx.scope) t t') :
    CarriesOver Eq (ctx.resolve path t) (ctx'.resolve path t') := by
  refine .bind (Scope.valueOf_carriesOver h.scope DataType.Inlined.refl path ht) fun value value' hvalue => ?_
  cases hvalue with
  | none => exact .refl _
  | some ht => exact .map _ (ofType_carriesOver h path ht)

end BehaviorContext

/-! ## The levels of a book -/

namespace Compile

variable {s s' : Scope}

/-- The theme of a level carries over to the same one with names replaced. -/
theorem levelTheme_carriesOver (h : s.CoveredBy s') (around : SheetTheme) (path : Path)
    {t t' : Option (Ref Theme)} (ht : ThemeInlined s t t') :
    CarriesOver Eq (levelTheme around s path t) (levelTheme around s' path t') := by
  cases ht with
  | none => exact .refl _
  | some ht => exact .bind_eq (Cascade.resolve_carriesOver h _ ht) fun own => .refl _

/-- A column carries over to the same one with names replaced. -/
theorem column_carriesOver (h : s.CoveredBy s') (index : ColumnIndex) (page group : String)
    (theme : SheetTheme) (site : Site) (path : Path) {c c' : Column} (hc : Column.Inlined s site c c') :
    CarriesOver Eq (column index page group s theme site path c)
      (column index page group s' theme site path c') := by
  have hscope := h.overlay site c.definitions
  unfold column
  rw [hc.name, hc.definitions, hc.value]
  refine .record (.bind_eq (levelTheme_carriesOver hscope theme path hc.theme) fun theme => ?_)
  dsimp only
  cases index.get? ⟨page, group, c.name⟩ with
  | none => exact .report
  | some placement =>
    let cell : FormulaCell := ⟨⟨index, ⟨page, group, c.name⟩⟩, placement.index, placement.headerRows⟩
    have hctx : BehaviorContext.CoveredBy ⟨cell, s.overlay site c.definitions⟩
        ⟨cell, s'.overlay site c.definitions⟩ := ⟨rfl, hscope⟩
    have hbehavior := BehaviorContext.resolve_carriesOver hctx (path.key "type") hc.dataType
    exact .bind_eq (.bind_eq hbehavior fun behavior => .refl _) fun behavior => .refl _

/-- The columns of a group carry over to the same ones with names replaced. -/
theorem columns_carriesOver (h : s.CoveredBy s') (index : ColumnIndex) (page group : String)
    (theme : SheetTheme) (site : Site) (path : Path) (seen : List String) {k : Nat} {cs cs' : List Column}
    (hcs : ItemsFrom (fun k => Column.Inlined s (site ++ [k])) k cs cs') :
    CarriesOver Eq (columns index page group s theme site path seen k cs)
      (columns index page group s' theme site path seen k cs') := by
  induction hcs generalizing seen with
  | nil => exact .refl _
  | cons hc _ ih =>
    rw [columns, columns, hc.name]
    split
    · exact ih seen
    · exact .bind_eq (column_carriesOver h index page group theme _ _ hc) fun sheet =>
        .bind_eq (ih _) fun rest => .refl _

/-- A group carries over to the same one with names replaced. -/
theorem group_carriesOver (h : s.CoveredBy s') (index : ColumnIndex) (page : String) (theme : SheetTheme)
    (site : Site) (path : Path) {g g' : Group} (hg : Group.Inlined s site g g') :
    CarriesOver Eq (group index page s theme site path g) (group index page s' theme site path g') := by
  have hscope := h.overlay site g.definitions
  unfold group
  rw [hg.name, hg.definitions]
  refine .record (.bind_eq (levelTheme_carriesOver hscope theme path hg.theme) fun theme => ?_)
  exact .bind_eq (columns_carriesOver hscope index page g.name theme site _ [] hg.columns) fun sheets =>
    .refl _

/-- The groups of a page carry over to the same ones with names replaced. -/
theorem groups_carriesOver (h : s.CoveredBy s') (index : ColumnIndex) (page : String) (theme : SheetTheme)
    (site : Site) (path : Path) (seen : List String) {j : Nat} {gs gs' : List Group}
    (hgs : ItemsFrom (fun j => Group.Inlined s (site ++ [j])) j gs gs') :
    CarriesOver Eq (groups index page s theme site path seen j gs)
      (groups index page s' theme site path seen j gs') := by
  induction hgs generalizing seen with
  | nil => exact .refl _
  | cons hg _ ih =>
    rw [groups, groups, hg.name]
    split
    · exact .report
    · exact .bind_eq (group_carriesOver h index page theme _ _ hg) fun sheet =>
        .bind_eq (ih _) fun rest => .refl _

/-- A page carries over to the same one with names replaced. -/
theorem page_carriesOver (h : s.CoveredBy s') (index : ColumnIndex) (theme : SheetTheme) (site : Site)
    (path : Path) {p p' : Page} (hp : Page.Inlined s site p p') :
    CarriesOver Eq (page index s theme site path p) (page index s' theme site path p') := by
  have hscope := h.overlay site p.definitions
  unfold page
  rw [hp.name, hp.definitions, hp.rows]
  refine .record (.bind_eq (levelTheme_carriesOver hscope theme path hp.theme) fun theme => ?_)
  exact .bind_eq (groups_carriesOver hscope index p.name theme site _ [] hp.groups) fun sheets =>
    .record (.refl _)

/-- The pages of a book carry over to the same ones with names replaced. -/
theorem pages_carriesOver (h : s.CoveredBy s') (index : ColumnIndex) (theme : SheetTheme) (path : Path)
    (seen : List String) {i : Nat} {ps ps' : List Page} (hps : ItemsFrom (fun i => Page.Inlined s [i]) i ps ps') :
    CarriesOver Eq (pages index s theme path seen i ps) (pages index s' theme path seen i ps') := by
  induction hps generalizing seen with
  | nil => exact .refl _
  | cons hp _ ih =>
    rw [pages, pages, hp.name]
    split
    · exact .report
    · exact .bind_eq (page_carriesOver h index theme _ _ hp) fun sheet =>
        .bind_eq (ih _) fun rest => .refl _

/-- A book without issues becomes the same with names replaced and with larger standard libraries. -/
theorem book_carriesOver {options options' : CompileOptions} {b b' : Book} (hb : Book.Inlined options b b')
    (h : (Scope.root b.definitions options).CoveredBy (Scope.root b.definitions options')) :
    CarriesOver Eq (book options b) (book options' b') := by
  unfold book
  rw [ColumnIndex.build_congr hb.outlines, ColumnIndex.firstSeen_congr hb.outlines, hb.definitions, hb.name]
  refine .record (.bind_eq (.refl _) fun _ => ?_)
  refine .bind_eq (levelTheme_carriesOver h {} _ hb.theme) fun theme => ?_
  exact .bind_eq (pages_carriesOver h _ theme _ [] hb.pages) fun sheets => .refl _

end Compile

end Workbook
