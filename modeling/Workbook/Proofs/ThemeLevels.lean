import Mathlib.Data.List.Induction
import Workbook.Proofs.Levels

/-!
# Themes level by level

The theme around a page, a group or a column is folded on the way down, one level at a time, each level's
own theme resolved in the scope of that level. What comes out is the same as reading the own themes of all
levels side by side: for each field the last level that defines it decides. An outer level is resolved
before any inner level is looked at, so nothing that an inner level defines reaches it.
-/

namespace Workbook

/-! ## The last definition of a field -/

/-- The last value of some that may be absent. -/
def lastDefined {α : Type} (values : List (Option α)) : Option α := (values.filterMap id).getLast?

/-- One more value is the last, if it is defined. -/
theorem lastDefined_append {α : Type} (values : List (Option α)) (value : Option α) :
    lastDefined (values ++ [value]) = value.or (lastDefined values) := by
  rw [lastDefined, List.filterMap_append, List.getLast?_append]
  cases value <;> rfl

namespace SheetStyle

/-- The style whose fields are each defined by the last style that defines them. -/
def lastOf (styles : List SheetStyle) : SheetStyle where
  fore := lastDefined (styles.map fore)
  back := lastDefined (styles.map back)
  bold := lastDefined (styles.map bold)
  italic := lastDefined (styles.map italic)
  beneath := lastDefined (styles.map beneath)
  between := lastDefined (styles.map between)

/-- One more style is laid over the others. -/
theorem lastOf_append (styles : List SheetStyle) (later : SheetStyle) :
    lastOf (styles ++ [later]) = (lastOf styles).overlay later := by
  simp only [lastOf, overlay, List.map_append, List.map_cons, List.map_nil, lastDefined_append]

/-- An overlay defines nothing only if both styles define nothing. -/
theorem eq_empty_of_overlay {s later : SheetStyle} (h : s.overlay later = {}) : s = {} ∧ later = {} := by
  simp only [overlay, mk.injEq, Option.or_eq_none_iff] at h
  cases s
  cases later
  simp_all

/-- Styles that leave every field open define nothing together, and only these. -/
theorem lastOf_eq_empty {styles : List SheetStyle} : lastOf styles = {} ↔ ∀ s ∈ styles, s = {} := by
  induction styles using List.reverseRecOn with
  | nil => exact ⟨fun _ s hs => (nomatch hs), fun _ => rfl⟩
  | append_singleton styles later ih =>
    rw [lastOf_append]
    constructor
    · intro h s hs
      obtain ⟨hstyles, hlater⟩ := eq_empty_of_overlay h
      obtain hs | hs := List.mem_append.1 hs
      · exact ih.1 hstyles s hs
      · rw [List.mem_singleton.1 hs, hlater]
    · intro h
      rw [ih.2 fun s hs => h s (List.mem_append_left _ hs), h later (by simp)]
      rfl

end SheetStyle

/-- A style of the output is made of the styles of some levels: each of its fields is that of the last
level that defines it, and there is no style exactly when no level defines a field. -/
structure CascadeOf (styles : List SheetStyle) (shown : Option SheetStyle) : Prop where
  fields : shown.getD {} = .lastOf styles
  omitted : shown = none ↔ ∀ s ∈ styles, s = {}

/-- The style of the output for a bucket of the theme around a level. -/
theorem CascadeOf.ofNonEmpty {styles : List SheetStyle} {s : SheetStyle} (h : s = .lastOf styles) :
    CascadeOf styles s.nonEmpty? := by
  have hempty : s.isEmpty = true ↔ s = {} := beq_iff_eq
  unfold SheetStyle.nonEmpty?
  split
  · rename_i hs
    have hnone := hempty.1 hs
    rw [h] at hnone
    exact ⟨by rw [hnone]; rfl, by simpa using SheetStyle.lastOf_eq_empty.1 hnone⟩
  · rename_i hs
    refine ⟨h, by simp, fun hall => absurd (hempty.2 ?_) hs⟩
    rw [h, SheetStyle.lastOf_eq_empty.2 hall]

/-! ## Own themes -/

/-- A level's own theme in the scope of the level, which defines nothing when the level has none. -/
def Scope.levelOwn (s : Scope) (path : Path) (t : Option (Ref Theme)) : SheetTheme :=
  match t with
  | some t => (Cascade.resolve s (path.key "theme") t).value
  | none => {}

/-- The themes of some levels put together: each field is that of the last level that defines it. -/
def SheetTheme.lastOf (themes : List SheetTheme) : SheetTheme where
  tab := lastDefined (themes.map tab)
  group := .lastOf (themes.map group)
  header := .lastOf (themes.map header)
  data := .lastOf (themes.map data)

/-- One more theme lies over what the themes before it have put together. -/
theorem SheetTheme.lastOf_append (themes : List SheetTheme) (later : SheetTheme) :
    lastOf (themes ++ [later]) = (lastOf themes).overlay later := by
  simp only [lastOf, overlay, List.map_append, List.map_cons, List.map_nil, lastDefined_append,
    SheetStyle.lastOf_append]

/-- A level lays its own theme over the theme around it. -/
theorem Compile.value_levelTheme (themes : List SheetTheme) (s : Scope) (path : Path)
    (t : Option (Ref Theme)) :
    (levelTheme (.lastOf themes) s path t).value = .lastOf (themes ++ [s.levelOwn path t]) := by
  rw [SheetTheme.lastOf_append]
  cases t with
  | some t => rfl
  | none => rfl

section Levels

variable {b : Book} (options : CompileOptions)

/-- The own theme of a book. -/
def Book.ownTheme (b : Book) : SheetTheme := (b.scope options).levelOwn .root b.theme

/-- The own themes of the book and of a kept page, in this order. -/
def KeptPage.ownThemes (p : KeptPage b) : List SheetTheme :=
  [b.ownTheme options, (p.scope options).levelOwn p.path p.page.theme]

/-- The own themes of the book, of the page, and of a kept group, in this order. -/
def KeptGroup.ownThemes (g : KeptGroup b) : List SheetTheme :=
  g.toKeptPage.ownThemes options ++ [(g.scope options).levelOwn g.path g.group.theme]

/-- The own themes of the book, of the page, of the group, and of a kept column, in this order. -/
def KeptColumn.ownThemes (c : KeptColumn b) : List SheetTheme :=
  c.toKeptGroup.ownThemes options ++ [(c.scope options).levelOwn c.path c.column.theme]

/-- The theme of a book is put together of its own. -/
theorem Book.sheetTheme_eq (b : Book) : b.sheetTheme options = .lastOf [b.ownTheme options] :=
  Compile.value_levelTheme [] (b.scope options) .root b.theme

/-- The theme of a page is put together of the own themes down to the page. -/
theorem KeptPage.sheetTheme_eq (p : KeptPage b) : p.sheetTheme options = .lastOf (p.ownThemes options) := by
  rw [sheetTheme, b.sheetTheme_eq]
  exact Compile.value_levelTheme _ _ _ _

/-- The theme of a group is put together of the own themes down to the group. -/
theorem KeptGroup.sheetTheme_eq (g : KeptGroup b) :
    g.sheetTheme options = .lastOf (g.ownThemes options) := by
  rw [sheetTheme, g.toKeptPage.sheetTheme_eq]
  exact Compile.value_levelTheme _ _ _ _

/-- The theme of a column is put together of the own themes down to the column. -/
theorem KeptColumn.sheetTheme_eq (c : KeptColumn b) :
    c.sheetTheme options = .lastOf (c.ownThemes options) := by
  rw [sheetTheme, c.toKeptGroup.sheetTheme_eq]
  exact Compile.value_levelTheme _ _ _ _

/-- A page shows the tab color that is defined last. -/
theorem KeptPage.tabColor_work (p : KeptPage b) :
    (p.work options).value.tabColor = lastDefined ((p.ownThemes options).map SheetTheme.tab) :=
  congrArg SheetTheme.tab (p.sheetTheme_eq options)

/-- A group shows the style for groups that its levels put together. -/
theorem KeptGroup.titleStyle_work (g : KeptGroup b) :
    CascadeOf ((g.ownThemes options).map SheetTheme.group) (g.work options).value.titleStyle :=
  .ofNonEmpty (congrArg SheetTheme.group (g.sheetTheme_eq options))

/-- A column shows the style for headers that its levels put together. -/
theorem KeptColumn.titleStyle_sheet (c : KeptColumn b) :
    CascadeOf ((c.ownThemes options).map SheetTheme.header) (c.sheet options).titleStyle :=
  .ofNonEmpty (congrArg SheetTheme.header (c.sheetTheme_eq options))

/-- A column shows the style for data that its levels put together. -/
theorem KeptColumn.dataStyle_sheet (c : KeptColumn b) :
    CascadeOf ((c.ownThemes options).map SheetTheme.data) (c.sheet options).dataStyle :=
  .ofNonEmpty (congrArg SheetTheme.data (c.sheetTheme_eq options))

end Levels

/-! ## Inner levels do not matter -/

/-- Books that are alike apart from their pages. -/
structure Book.Alike (b b' : Book) : Prop where
  theme : b'.theme = b.theme
  definitions : b'.definitions = b.definitions

/-- Pages that are alike apart from their groups, with one number in books that are alike apart from their
pages. -/
structure KeptPage.Alike {b b' : Book} (p : KeptPage b) (p' : KeptPage b') : Prop where
  book : b.Alike b'
  number : p'.pageNumber = p.pageNumber
  theme : p'.page.theme = p.page.theme
  definitions : p'.page.definitions = p.page.definitions

/-- Groups that are alike apart from their columns, with one number on pages that are alike apart from their
groups. -/
structure KeptGroup.Alike {b b' : Book} (g : KeptGroup b) (g' : KeptGroup b') : Prop where
  page : g.toKeptPage.Alike g'.toKeptPage
  number : g'.groupNumber = g.groupNumber
  theme : g'.group.theme = g.group.theme
  definitions : g'.group.definitions = g.group.definitions

section Alike

variable {b b' : Book} (options : CompileOptions)

/-- Books that are alike have the same own theme. -/
theorem Book.Alike.ownTheme (h : b.Alike b') : b'.ownTheme options = b.ownTheme options := by
  simp only [Book.ownTheme, Book.scope, h.definitions, h.theme]

/-- Pages that are alike have the same scope. -/
theorem KeptPage.Alike.scope {p : KeptPage b} {p' : KeptPage b'} (h : p.Alike p') :
    p'.scope options = p.scope options := by
  simp only [KeptPage.scope, Book.scope, KeptPage.site, h.book.definitions, h.number, h.definitions]

/-- Pages that are alike have the same own themes around them. -/
theorem KeptPage.Alike.ownThemes {p : KeptPage b} {p' : KeptPage b'} (h : p.Alike p') :
    p'.ownThemes options = p.ownThemes options := by
  simp only [KeptPage.ownThemes, h.book.ownTheme, h.scope, KeptPage.path, h.number, h.theme]

/-- Groups that are alike have the same own themes around them. -/
theorem KeptGroup.Alike.ownThemes {g : KeptGroup b} {g' : KeptGroup b'} (h : g.Alike g') :
    g'.ownThemes options = g.ownThemes options := by
  simp only [KeptGroup.ownThemes, h.page.ownThemes, KeptGroup.scope, h.page.scope, KeptGroup.site,
    KeptGroup.path, KeptPage.site, KeptPage.path, h.page.number, h.number, h.theme, h.definitions]

/-- A page's tab color does not depend on the levels inside the page. -/
theorem KeptPage.Alike.tabColor {p : KeptPage b} {p' : KeptPage b'} (h : p.Alike p') :
    (p'.work options).value.tabColor = (p.work options).value.tabColor := by
  rw [p'.tabColor_work, p.tabColor_work, h.ownThemes]

/-- A group's title style does not depend on the columns of the group. -/
theorem KeptGroup.Alike.titleStyle {g : KeptGroup b} {g' : KeptGroup b'} (h : g.Alike g') :
    (g'.work options).value.titleStyle = (g.work options).value.titleStyle := by
  change (g'.sheetTheme options).group.nonEmpty? = (g.sheetTheme options).group.nonEmpty?
  rw [g'.sheetTheme_eq, g.sheetTheme_eq, h.ownThemes]

end Alike

/-- In the output every page, group and column shows the own themes of the levels down to it, put together
field by field: the last level that defines a field decides, and a style is left out exactly when no level
defines a field of it. Each own theme is resolved in the scope of its level, so pages and groups that are
alike apart from their inner levels look the same. -/
theorem output_shows_last_defined (options : CompileOptions) (b : Book) :
    (∀ page ∈ (Compilation.compile options b).book.pages, ∃ p : KeptPage b,
      page.title = p.page.name ∧
      page.tabColor = lastDefined ((p.ownThemes options).map SheetTheme.tab) ∧
      ∀ group ∈ page.groups, ∃ g : KeptGroup b, g.toKeptPage = p ∧
        group.title = g.group.name ∧
        CascadeOf ((g.ownThemes options).map SheetTheme.group) group.titleStyle ∧
        ∀ column ∈ group.columns, ∃ c : KeptColumn b, c.toKeptGroup = g ∧
          column.title = c.column.name ∧
          CascadeOf ((c.ownThemes options).map SheetTheme.header) column.titleStyle ∧
          CascadeOf ((c.ownThemes options).map SheetTheme.data) column.dataStyle) ∧
    (∀ b' : Book, b.Alike b' → b'.ownTheme options = b.ownTheme options) ∧
    (∀ (b' : Book) (p : KeptPage b) (p' : KeptPage b'), p.Alike p' →
      ((Compilation.compile options b').book.page? p'.page.name).map SheetPage.tabColor =
        ((Compilation.compile options b).book.page? p.page.name).map SheetPage.tabColor) ∧
    ∀ (b' : Book) (g : KeptGroup b) (g' : KeptGroup b'), g.Alike g' →
      ((Compilation.compile options b').book.group? g'.page.name g'.group.name).map
          SheetGroup.titleStyle =
        ((Compilation.compile options b).book.group? g.page.name g.group.name).map
          SheetGroup.titleStyle := by
  refine ⟨fun page hpage => ?_, fun b' h => h.ownTheme options, fun b' p p' h => ?_, fun b' g g' h => ?_⟩
  · obtain ⟨p, rfl⟩ := Compile.exists_keptPage options hpage
    refine ⟨p, rfl, p.tabColor_work options, fun group hgroup => ?_⟩
    obtain ⟨g, hg, rfl⟩ := p.exists_keptGroup options hgroup
    refine ⟨g, hg, rfl, g.titleStyle_work options, fun column hcolumn => ?_⟩
    obtain ⟨c, hc, rfl⟩ := g.exists_keptColumn options hcolumn
    exact ⟨c, hc, rfl, c.titleStyle_sheet options, c.dataStyle_sheet options⟩
  · change ((Compile.book options b').value.page? _).map _ = ((Compile.book options b).value.page? _).map _
    rw [p'.page?_book, p.page?_book, Option.map_some, Option.map_some, h.tabColor]
  · change ((Compile.book options b').value.group? _ _).map _ =
      ((Compile.book options b).value.group? _ _).map _
    rw [g'.group?_book, g.group?_book, Option.map_some, Option.map_some, h.titleStyle]

end Workbook
