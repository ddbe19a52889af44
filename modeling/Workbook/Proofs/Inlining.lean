import Mathlib.Data.List.Forall2
import Mathlib.Data.Option.Basic
import Workbook.Proofs.Placement

/-!
# Copies in place of names

One book is another with some names replaced: where a name of a definition is used, a copy of the value
that it has there is written instead. Names may be replaced anywhere outside the definitions, at every
depth, and each is looked up in the scope of the level where it stands. A copy keeps the names that are
written inside the value, or has some of them replaced in the same way. The relations follow the tree of
a book from colors and styles up to pages.
-/

namespace Workbook

/-- A name has a value in a scope. -/
def Scope.Means (s : Scope) (k : Kind) (name : String) (value : k.Value) : Prop :=
  ∃ found, s.resolve k name = .ok found ∧ found.value = value

/-- A reference, and the same one with a copy of what its name means, or with some names replaced in what
it holds. What is inside a copy is related as well. -/
inductive Ref.Inlined {α : Type} (means : String → α → Prop) (inside : α → α → Prop) :
    Ref α → Ref α → Prop
  | same (name : String) : Inlined means inside (.named name) (.named name)
  | copied {name : String} {a b : α} (h : means name a) (copy : inside a b) :
    Inlined means inside (.named name) (.inline b)
  | within {a b : α} (h : inside a b) : Inlined means inside (.inline a) (.inline b)

variable (s : Scope)

/-! ## Styles and themes -/

/-- A border and the same one with names replaced. -/
structure Border.Inlined (b b' : Border) : Prop where
  style : b'.style = b.style
  color : Option.Rel (Ref.Inlined (s.Means .color) Eq) b.color b'.color

/-- A style and the same one with names replaced. -/
structure Style.Inlined (t t' : Style) : Prop where
  fore : Option.Rel (Ref.Inlined (s.Means .color) Eq) t.fore t'.fore
  back : Option.Rel (Ref.Inlined (s.Means .color) Eq) t.back t'.back
  bold : t'.bold = t.bold
  italic : t'.italic = t.italic
  beneath : Option.Rel (Border.Inlined s) t.beneath t'.beneath
  between : Option.Rel (Border.Inlined s) t.between t'.between

/-- A theme and the same one with names replaced, also in the themes that are written in place inside it. -/
inductive Theme.Inlined : Theme → Theme → Prop
  | mk {t t' : Theme}
    (inherits : List.Forall₂ (Ref.Inlined (s.Means .theme) Theme.Inlined) t.inherits t'.inherits)
    (tab : Option.Rel (Ref.Inlined (s.Means .color) Eq) t.tab t'.tab)
    (group : Option.Rel (Ref.Inlined (s.Means .style) (Style.Inlined s)) t.group t'.group)
    (header : Option.Rel (Ref.Inlined (s.Means .style) (Style.Inlined s)) t.header t'.header)
    (data : Option.Rel (Ref.Inlined (s.Means .style) (Style.Inlined s)) t.data t'.data) :
    Theme.Inlined t t'

/-- The themes that a theme inherits are the same with names replaced. -/
theorem Theme.Inlined.inherits {s : Scope} {t t' : Theme} (h : Theme.Inlined s t t') :
    List.Forall₂ (Ref.Inlined (s.Means .theme) (Theme.Inlined s)) t.inherits t'.inherits := by
  obtain ⟨inherits, _⟩ := h
  exact inherits

/-! ## Data types -/

/-- A conditional style and the same one with names replaced. -/
structure ConditionalStyle.Inlined {ρ : Type} (c c' : ConditionalStyle ρ) : Prop where
  rule : c'.rule = c.rule
  apply : Ref.Inlined (s.Means .style) (Style.Inlined s) c.apply c'.apply

/-- A member of an enumeration and the same one with names replaced. -/
structure EnumItem.Inlined (item item' : EnumItem) : Prop where
  name : item'.name = item.name
  style : Option.Rel (Ref.Inlined (s.Means .style) (Style.Inlined s)) item.style? item'.style?

/-- A data type and the same one with names replaced. -/
inductive DataType.Inlined : DataType → DataType → Prop
  | text {t t' : TextType} (rule : t'.rule = t.rule)
    (styles : List.Forall₂ (ConditionalStyle.Inlined s) t.styles t'.styles) :
    DataType.Inlined (.text t) (.text t')
  | enumeration {t t' : EnumType} (values : List.Forall₂ (EnumItem.Inlined s) t.values t'.values) :
    DataType.Inlined (.enumeration t) (.enumeration t')
  | lookup {t t' : LookupType} (values : t'.values = t.values)
    (styles : List.Forall₂ (ConditionalStyle.Inlined s) t.styles t'.styles) :
    DataType.Inlined (.lookup t) (.lookup t')
  | numeric {t t' : NumericType} (rule : t'.rule = t.rule)
    (styles : List.Forall₂ (ConditionalStyle.Inlined s) t.styles t'.styles)
    (format : Option.Rel (Ref.Inlined (s.Means .numeric) Eq) t.format t'.format) :
    DataType.Inlined (.numeric t) (.numeric t')
  | temporal {t t' : TemporalType} (rule : t'.rule = t.rule)
    (styles : List.Forall₂ (ConditionalStyle.Inlined s) t.styles t'.styles)
    (format : Option.Rel (Ref.Inlined (s.Means .temporal) Eq) t.format t'.format) :
    DataType.Inlined (.temporal t) (.temporal t')

/-! ## The levels of a book -/

/-- The theme of a level and the same one with names replaced. -/
abbrev ThemeInlined : Option (Ref Theme) → Option (Ref Theme) → Prop :=
  Option.Rel (Ref.Inlined (s.Means .theme) (Theme.Inlined s))

/-- Lists whose items correspond one by one, by a relation that knows the number of an item. The number of
the first item is given. -/
inductive ItemsFrom {α : Type} (r : Nat → α → α → Prop) : Nat → List α → List α → Prop
  | nil {n : Nat} : ItemsFrom r n [] []
  | cons {n : Nat} {a b : α} {as bs : List α} (item : r n a b) (rest : ItemsFrom r (n + 1) as bs) :
    ItemsFrom r n (a :: as) (b :: bs)

/-- A column and the same one with names replaced, for a column on top of a scope. -/
structure Column.Inlined (site : Site) (c c' : Column) : Prop where
  name : c'.name = c.name
  definitions : c'.definitions = c.definitions
  theme : ThemeInlined (s.overlay site c.definitions) c.theme c'.theme
  dataType : Ref.Inlined ((s.overlay site c.definitions).Means .dataType)
    (DataType.Inlined (s.overlay site c.definitions)) c.dataType c'.dataType
  value : c'.value = c.value

/-- A group and the same one with names replaced. -/
structure Group.Inlined (site : Site) (g g' : Group) : Prop where
  name : g'.name = g.name
  definitions : g'.definitions = g.definitions
  theme : ThemeInlined (s.overlay site g.definitions) g.theme g'.theme
  columns : ItemsFrom (fun k => Column.Inlined (s.overlay site g.definitions) (site ++ [k])) 0 g.columns
    g'.columns

/-- A page and the same one with names replaced. -/
structure Page.Inlined (site : Site) (p p' : Page) : Prop where
  name : p'.name = p.name
  rows : p'.rows = p.rows
  definitions : p'.definitions = p.definitions
  theme : ThemeInlined (s.overlay site p.definitions) p.theme p'.theme
  groups : ItemsFrom (fun j => Group.Inlined (s.overlay site p.definitions) (site ++ [j])) 0 p.groups
    p'.groups

/-- A book and the same one with names replaced, each by its value in the scope of the level where it
stands. -/
structure Book.Inlined (options : CompileOptions) (b b' : Book) : Prop where
  name : b'.name = b.name
  definitions : b'.definitions = b.definitions
  theme : ThemeInlined (Scope.root b.definitions options) b.theme b'.theme
  pages : ItemsFrom (fun i => Page.Inlined (Scope.root b.definitions options) [i]) 0 b.pages b'.pages

/-! ## Nothing replaced -/

/-- A relation that holds of every value with itself does so where the value may be missing. -/
theorem Option.Rel.rfl_of {α : Type} {r : α → α → Prop} (h : ∀ a, r a a) (o : Option α) : Option.Rel r o o := by
  cases o with
  | none => exact .none
  | some a => exact .some (h a)

variable {s}

/-- No name of a reference need be replaced. -/
theorem Ref.Inlined.refl {α : Type} {means : String → α → Prop} {inside : α → α → Prop}
    (h : ∀ a, inside a a) (r : Ref α) : Ref.Inlined means inside r r := by
  cases r with
  | named name => exact .same name
  | inline a => exact .within (h a)

theorem Border.Inlined.refl (b : Border) : Border.Inlined s b b where
  style := rfl
  color := Option.Rel.rfl_of (Ref.Inlined.refl fun _ => rfl) _

theorem Style.Inlined.refl (t : Style) : Style.Inlined s t t where
  fore := Option.Rel.rfl_of (Ref.Inlined.refl fun _ => rfl) _
  back := Option.Rel.rfl_of (Ref.Inlined.refl fun _ => rfl) _
  bold := rfl
  italic := rfl
  beneath := Option.Rel.rfl_of .refl _
  between := Option.Rel.rfl_of .refl _

mutual

/-- No name of a theme need be replaced. -/
theorem Theme.Inlined.refl : ∀ t : Theme, Theme.Inlined s t t
  | ⟨inherits, _, _, _, _⟩ => by
    have hstyle (t : Ref Style) : Ref.Inlined (s.Means .style) (Style.Inlined s) t t := .refl .refl t
    exact .mk (Theme.Inlined.forall₂_refl inherits) (Option.Rel.rfl_of (Ref.Inlined.refl fun _ => rfl) _)
      (Option.Rel.rfl_of hstyle _) (Option.Rel.rfl_of hstyle _) (Option.Rel.rfl_of hstyle _)

theorem Theme.Inlined.forall₂_refl :
    ∀ ts : List (Ref Theme), List.Forall₂ (Ref.Inlined (s.Means .theme) (Theme.Inlined s)) ts ts
  | [] => .nil
  | .named name :: ts => .cons (.same name) (Theme.Inlined.forall₂_refl ts)
  | .inline t :: ts => .cons (.within (Theme.Inlined.refl t)) (Theme.Inlined.forall₂_refl ts)
end

theorem ConditionalStyle.Inlined.refl {ρ : Type} (c : ConditionalStyle ρ) :
    ConditionalStyle.Inlined s c c where
  rule := rfl
  apply := .refl Style.Inlined.refl _

theorem EnumItem.Inlined.refl (item : EnumItem) : EnumItem.Inlined s item item where
  name := rfl
  style := Option.Rel.rfl_of (Ref.Inlined.refl Style.Inlined.refl) _

/-- No name of a data type need be replaced. -/
theorem DataType.Inlined.refl (t : DataType) : DataType.Inlined s t t := by
  have hstyles {ρ : Type} (styles : List (ConditionalStyle ρ)) :
      List.Forall₂ (ConditionalStyle.Inlined s) styles styles :=
    List.forall₂_same.2 fun c _ => .refl c
  cases t with
  | text t => exact .text rfl (hstyles _)
  | enumeration t => exact .enumeration (List.forall₂_same.2 fun item _ => .refl item)
  | lookup t => exact .lookup rfl (hstyles _)
  | numeric t => exact .numeric rfl (hstyles _) (Option.Rel.rfl_of (Ref.Inlined.refl fun _ => rfl) _)
  | temporal t => exact .temporal rfl (hstyles _) (Option.Rel.rfl_of (Ref.Inlined.refl fun _ => rfl) _)

theorem ItemsFrom.refl {α : Type} {r : Nat → α → α → Prop} (h : ∀ n a, r n a a) (n : Nat) (as : List α) :
    ItemsFrom r n as as := by
  induction as generalizing n with
  | nil => exact .nil
  | cons a rest ih => exact .cons (h n a) (ih (n + 1))

theorem ThemeInlined.refl (t : Option (Ref Theme)) : ThemeInlined s t t :=
  Option.Rel.rfl_of (Ref.Inlined.refl Theme.Inlined.refl) t

theorem Column.Inlined.refl (site : Site) (c : Column) : Column.Inlined s site c c where
  name := rfl
  definitions := rfl
  theme := ThemeInlined.refl _
  dataType := .refl DataType.Inlined.refl _
  value := rfl

theorem Group.Inlined.refl (site : Site) (g : Group) : Group.Inlined s site g g where
  name := rfl
  definitions := rfl
  theme := ThemeInlined.refl _
  columns := .refl (fun k => Column.Inlined.refl (site ++ [k])) 0 _

theorem Page.Inlined.refl (site : Site) (p : Page) : Page.Inlined s site p p where
  name := rfl
  rows := rfl
  definitions := rfl
  theme := ThemeInlined.refl _
  groups := .refl (fun j => Group.Inlined.refl (site ++ [j])) 0 _

/-- No name of a book need be replaced. -/
theorem Book.Inlined.refl (options : CompileOptions) (b : Book) : Book.Inlined options b b where
  name := rfl
  definitions := rfl
  theme := ThemeInlined.refl _
  pages := .refl (fun i => Page.Inlined.refl [i]) 0 _

/-! ## Names of levels stay -/

/-- Something that a relation keeps is the same throughout lists whose items correspond. -/
theorem ItemsFrom.map_eq {α β : Type} {r : Nat → α → α → Prop} {f : α → β}
    (hf : ∀ n a b, r n a b → f b = f a) {n : Nat} {as bs : List α} (h : ItemsFrom r n as bs) :
    bs.map f = as.map f := by
  induction h with
  | nil => rfl
  | cons item rest ih => rw [List.map_cons, List.map_cons, hf _ _ _ item, ih]

/-- Pages, groups and columns keep their names. -/
theorem Book.Inlined.outlines {options : CompileOptions} {b b' : Book} (h : Book.Inlined options b b') :
    b'.pages.map Page.outline = b.pages.map Page.outline := by
  refine h.pages.map_eq fun _ p p' hp => Prod.ext hp.name ?_
  refine hp.groups.map_eq fun _ g g' hg => Prod.ext hg.name ?_
  exact hg.columns.map_eq fun _ c c' hc => hc.name

end Workbook
