import Workbook.Proofs.SharedMemory
import Workbook.Proofs.ThemeLevels

/-!
# Pages do not interfere

A page of the output is made from the page itself, from what the book declares for all pages, and from the
index of kept columns, which reads nothing but names. So two books that differ only in what other pages
hold make the same of a page and report the same about it. The memory that all pages share while a book is
compiled makes no difference, because it answers every question as the scope that is asked does alone.
-/

namespace Workbook

/-! ## Columns are indexed by their names -/

/-- The titles of a page, those of its groups, and those of their columns. -/
abbrev Outline := String × List (String × List String)

/-- The outline of what a compilation keeps of a page. -/
def Outline.kept (o : Outline) : Outline :=
  (o.1, (keepFirst Prod.fst [] o.2).map fun g => (g.1, keepFirst id [] g.2))

/-- Keeping the first item of each name commutes with a change of the items. -/
theorem keepFirst_map {α β : Type} (label : β → String) (f : α → β) (seen : List String) (as : List α) :
    keepFirst label seen (as.map f) = (keepFirst (label ∘ f) seen as).map f := by
  induction as generalizing seen with
  | nil => rfl
  | cons a rest ih =>
    rw [List.map_cons, keepFirst, keepFirst, Function.comp_apply]
    split
    · exact ih seen
    · rw [List.map_cons, ih]

/-- The kept part of a page has the kept part of its outline. -/
theorem Page.outline_kept (p : Page) : p.kept.outline = Outline.kept p.outline := by
  refine Prod.ext rfl ?_
  unfold Page.kept Page.outline Outline.kept
  rw [keepFirst_map, List.map_map, List.map_map]
  refine List.map_congr_left fun g _ => Prod.ext rfl ?_
  exact (keepFirst_map id Column.name [] g.columns).symm

/-- The columns of a page of an outline. -/
def Outline.occurrences (path : Path) (o : Outline) : List Occurrence :=
  let columns := o.2.zipIdx.flatMap fun (group, j) =>
    group.2.zipIdx.map fun (column, k) =>
      ((((path.key "groups").index j).key "columns").index k, (⟨o.1, group.1, column⟩ : ColumnKey))
  columns.zipIdx.map fun ((path, key), n) => ⟨path, key, ⟨o.1, decide (1 < o.2.length), n⟩⟩

/-- The columns of a page are those of its outline. -/
theorem Page.occurrences_eq (path : Path) (p : Page) :
    p.occurrences path = Outline.occurrences path p.outline := by
  unfold Page.occurrences Outline.occurrences Page.outline
  simp only [List.zipIdx_map, List.flatMap_map, List.map_map, List.length_map, Prod.map_fst, Prod.map_snd]
  rfl

/-- Books whose pages have the same outlines have the same columns. -/
theorem Book.occurrences_congr {b b' : Book} (h : b'.pages.map Page.outline = b.pages.map Page.outline) :
    b'.occurrences = b.occurrences := by
  have hoccurrences (b : Book) : b.occurrences = (b.pages.map Page.outline).zipIdx.flatMap
      fun (o, i) => Outline.occurrences ((Path.root.key "pages").index i) o := by
    simp only [Book.occurrences, Page.occurrences_eq, List.zipIdx_map, List.flatMap_map]
    rfl
  rw [hoccurrences, hoccurrences, h]

/-- The outlines of what is kept of a book are decided by those of its pages. -/
theorem Book.outline_kept (b : Book) :
    b.kept.pages.map Page.outline =
      (keepFirst Prod.fst [] (b.pages.map Page.outline)).map Outline.kept := by
  rw [Book.kept, List.map_map, keepFirst_map, List.map_map]
  exact List.map_congr_left fun p _ => p.outline_kept

/-- The index of all columns and the issues about repeated ones depend on the outlines only. -/
theorem ColumnIndex.build_congr {b b' : Book}
    (h : b'.pages.map Page.outline = b.pages.map Page.outline) : build b' = build b := by
  rw [build, build, Book.occurrences_congr h]

/-- So does the index of kept columns. -/
theorem ColumnIndex.firstSeen_congr {b b' : Book}
    (h : b'.pages.map Page.outline = b.pages.map Page.outline) : firstSeen b' = firstSeen b := by
  have hkept : b'.kept.pages.map Page.outline = b.kept.pages.map Page.outline := by
    rw [Book.outline_kept, Book.outline_kept, h]
  rw [firstSeen, firstSeen, build_congr hkept]

/-! ## One page of two books -/

/-- The page of the output that the page with a number becomes, if it is kept: the kept pages become the
pages of the output in their order. -/
def Compilation.pageOf? (options : CompileOptions) (b : Book) (i : Nat) : Option SheetPage :=
  (((keptAt Page.name [] 0 b.pages).map Prod.fst).zip (compile options b).book.pages).lookup i

/-- Books that are alike apart from what other pages hold than the one with a number: they declare the
same for all pages, and their pages, groups and columns have the same names in the same order. -/
structure Book.AlikeAt (b b' : Book) (i : Nat) (p : Page) : Prop extends Book.Alike b b' where
  name : b'.name = b.name
  outlines : b'.pages.map Page.outline = b.pages.map Page.outline
  item : b.pages[i]? = some p
  item' : b'.pages[i]? = some p

section Items

variable {α : Type} {name : α → String} {as bs : List α} {n : Nat} {a : α}

/-- Which items are repeated depends on the names only. -/
theorem FirstOfName.congr (h : FirstOfName name as n a) (hnames : bs.map name = as.map name)
    (hitem : bs[n]? = some a) : FirstOfName name bs n a where
  item := hitem
  earlier m b hm hb := by
    have hname : (as.map name)[m]? = some (name b) := by
      rw [← hnames, List.getElem?_map, hb, Option.map_some]
    rw [List.getElem?_map] at hname
    obtain ⟨c, hc, hcb⟩ := Option.map_eq_some_iff.1 hname
    rw [← hcb]
    exact h.earlier m c hm hc

/-- An item is listed with its number. -/
theorem exists_getElem?_repeatsAt (seen : List String) (k : Nat) (ha : as[n]? = some a) :
    ∃ again, (repeatsAt name seen k as)[n]? = some (k + n, a, again) := by
  induction as generalizing seen k n with
  | nil => cases ha
  | cons b rest ih =>
    rw [repeatsAt]
    cases n with
    | zero =>
      obtain rfl : b = a := Option.some.inj ha
      split
      · exact ⟨true, rfl⟩
      · exact ⟨false, rfl⟩
    | succ n =>
      have hnumber : k + (n + 1) = k + 1 + n := by omega
      rw [hnumber]
      split
      · exact ih seen (k + 1) ha
      · exact ih (name b :: seen) (k + 1) ha

/-- An item that is not the first one of its name is listed as a repeated one. -/
theorem getElem?_repeatsAt_of_not_first (ha : as[n]? = some a) (h : ¬FirstOfName name as n a) :
    (repeatsAt name [] 0 as)[n]? = some (n, a, true) := by
  have hlisted : ∃ again, (repeatsAt name [] 0 as)[n]? = some (0 + n, a, again) :=
    exists_getElem?_repeatsAt [] 0 ha
  obtain ⟨again, hitem⟩ := hlisted
  rw [Nat.zero_add] at hitem
  cases again with
  | true => exact hitem
  | false =>
    have hkept : (n, a) ∈ keptAt name [] 0 as := by
      rw [keptAt_eq_filterMap]
      exact List.mem_filterMap.2 ⟨_, List.mem_of_getElem? hitem, rfl⟩
    exact absurd (firstOfName_of_mem_keptAt hkept).2.1 h

end Items

namespace Compilation

variable {options : CompileOptions} {b : Book} {i : Nat} {sheet : SheetPage}

/-- The pages of the output with the numbers of the pages that they are made from. -/
theorem zip_pages (options : CompileOptions) (b : Book) :
    ((keptAt Page.name [] 0 b.pages).map Prod.fst).zip (compile options b).book.pages =
      (keptAt Page.name [] 0 b.pages).map fun (i, p) =>
        (i, (Compile.page (ColumnIndex.firstSeen b) (b.scope options) (b.sheetTheme options) [i]
          ((Path.root.key "pages").index i) p).value) := by
  change List.zip _ (Compile.pages _ _ _ _ [] 0 b.pages).value = _
  rw [Compile.value_pages, List.zip_map']
  rfl

/-- What a page becomes is what the work on it makes, and only kept pages become something. -/
theorem pageOf?_eq_some : pageOf? options b i = some sheet ↔
    ∃ p : KeptPage b, p.pageNumber = i ∧ (p.work options).value = sheet := by
  have hmade {made : SheetPage} (h : pageOf? options b i = some made) :
      ∃ p : KeptPage b, p.pageNumber = i ∧ (p.work options).value = made := by
    rw [pageOf?, zip_pages] at h
    obtain ⟨⟨n, q⟩, hq, heq⟩ := List.mem_map.1 (mem_of_lookup h)
    cases heq
    exact ⟨⟨i, q, (firstOfName_of_mem_keptAt hq).2.1⟩, rfl, rfl⟩
  refine ⟨hmade, ?_⟩
  rintro ⟨p, rfl, rfl⟩
  cases hpage : pageOf? options b p.pageNumber with
  | none =>
    rw [pageOf?, zip_pages, List.lookup_eq_none_iff] at hpage
    have hne := hpage _ (List.mem_map_of_mem p.firstPage.mem_keptAt)
    simp at hne
  | some made =>
    obtain ⟨q, hnumber, rfl⟩ := hmade hpage
    have hitem := q.firstPage.item
    rw [hnumber, p.firstPage.item] at hitem
    obtain ⟨n, page, first⟩ := p
    obtain ⟨m, page', first'⟩ := q
    cases hnumber
    cases hitem
    rfl

end Compilation

namespace Book.AlikeAt

variable {b b' : Book} {i : Nat} {p : Page}

/-- Books that are alike at a page are alike at it the other way round. -/
theorem symm (h : b.AlikeAt b' i p) : b'.AlikeAt b i p where
  theme := h.theme.symm
  definitions := h.definitions.symm
  name := h.name.symm
  outlines := h.outlines.symm
  item := h.item'
  item' := h.item

/-- The pages of the two books have the same names. -/
theorem names (h : b.AlikeAt b' i p) : b'.pages.map Page.name = b.pages.map Page.name := by
  have hfst := congrArg (List.map Prod.fst) h.outlines
  rwa [List.map_map, List.map_map] at hfst

/-- Books that are alike at a page have the same scope. -/
theorem scope_eq (h : b.AlikeAt b' i p) (options : CompileOptions) : b'.scope options = b.scope options := by
  rw [Book.scope, Book.scope, h.definitions]

/-- Books that are alike at a page have the same theme. -/
theorem sheetTheme_eq (h : b.AlikeAt b' i p) (options : CompileOptions) :
    b'.sheetTheme options = b.sheetTheme options := by
  rw [Book.sheetTheme, Book.sheetTheme, h.scope_eq, h.theme]

/-- What the page becomes in one book it becomes in the other. -/
theorem pageOf?_imp (h : b.AlikeAt b' i p) (options : CompileOptions) {sheet : SheetPage}
    (hsheet : Compilation.pageOf? options b i = some sheet) :
    Compilation.pageOf? options b' i = some sheet := by
  obtain ⟨⟨n, page, first⟩, rfl, rfl⟩ := Compilation.pageOf?_eq_some.1 hsheet
  have hitem := first.item
  rw [h.item] at hitem
  cases hitem
  refine Compilation.pageOf?_eq_some.2 ⟨⟨n, p, first.congr h.names h.item'⟩, rfl, ?_⟩
  unfold KeptPage.work
  rw [h.scope_eq, h.sheetTheme_eq, ColumnIndex.firstSeen_congr h.outlines]
  rfl

/-- Whatever the loop over pages reports under the page in one book it reports in the other. -/
theorem issuesUnder_pages (h : b.AlikeAt b' i p) (index : ColumnIndex) (around : Scope) (theme : SheetTheme) :
    issuesUnder ((Path.root.key "pages").index i)
        (Compile.pages index around theme (Path.root.key "pages") [] 0 b'.pages).issues =
      issuesUnder ((Path.root.key "pages").index i)
        (Compile.pages index around theme (Path.root.key "pages") [] 0 b.pages).issues := by
  have hsame : ∃ again, (repeatsAt Page.name [] 0 b.pages)[i]? = some (i, p, again) ∧
      (repeatsAt Page.name [] 0 b'.pages)[i]? = some (i, p, again) := by
    by_cases hfirst : FirstOfName Page.name b.pages i p
    · exact ⟨false, hfirst.getElem?_first, (hfirst.congr h.names h.item').getElem?_first⟩
    · refine ⟨true, getElem?_repeatsAt_of_not_first h.item hfirst,
        getElem?_repeatsAt_of_not_first h.item' fun hfirst' => hfirst ?_⟩
      exact hfirst'.congr h.symm.names h.item
  obtain ⟨again, hitem, hitem'⟩ := hsame
  have hunder : ∀ x : Nat × Page × Bool, ∀ issue ∈ (if x.2.2 then
      [Compile.duplicatePage ((Path.root.key "pages").index x.1) x.2.1.name] else
      (Compile.page index around theme [x.1] ((Path.root.key "pages").index x.1) x.2.1).issues),
      issue.Under ((Path.root.key "pages").index x.1) := by
    rintro ⟨n, q, _ | _⟩ issue hissue
    · exact Compile.page_under _ _ _ _ _ _ issue hissue
    · rw [List.mem_singleton.1 hissue]
      exact (Issue.Under.processing _ _).ofKey
  rw [Compile.issues_pages, Compile.issues_pages]
  have hmade := Compile.issuesUnder_flatMap_of_getElem? hitem (Path.Within.refl _) _ hunder
  have hmade' := Compile.issuesUnder_flatMap_of_getElem? hitem' (Path.Within.refl _) _ hunder
  exact hmade'.trans hmade.symm

end Book.AlikeAt

/-- A page becomes the same, or is left out in both cases, and the same is reported about it in the same
order, in books that differ only in what other pages hold. The memory that the pages of each book share
answers as if nothing had been asked before. -/
theorem pages_do_not_interfere (options : CompileOptions) {b b' : Book} {i : Nat} {p : Page}
    (h : b.AlikeAt b' i p) :
    Compilation.pageOf? options b' i = Compilation.pageOf? options b i ∧
      issuesUnder ((Path.root.key "pages").index i) (Compilation.compile options b').issues =
        issuesUnder ((Path.root.key "pages").index i) (Compilation.compile options b).issues ∧
      (Compilation.compile options b).AnswersAlone ∧ (Compilation.compile options b').AnswersAlone := by
  refine ⟨?_, ?_, Compilation.answersAlone_compile options b, Compilation.answersAlone_compile options b'⟩
  · refine Option.ext fun sheet => ⟨fun hsheet => ?_, h.pageOf?_imp options⟩
    exact h.symm.pageOf?_imp options hsheet
  · change issuesUnder _ (Compile.book options b').issues = issuesUnder _ (Compile.book options b).issues
    have hscope := h.scope_eq options
    unfold Book.scope at hscope
    unfold Compile.book
    simp only [Outcome.issues_bind, Outcome.issues_record, Outcome.issues_pure, List.forM_eq_forM,
      Outcome.issues_forM_report, List.nil_append, List.append_nil, issuesUnder_append]
    rw [ColumnIndex.build_congr h.outlines, ColumnIndex.firstSeen_congr h.outlines, h.theme, hscope,
      h.issuesUnder_pages]

/-- A page whose column takes its values from another page. -/
def ordersPage : Page where
  name := "Orders"
  rows := 10
  groups := [{ name := "Lines", columns := [{
    name := "item"
    dataType := .inline (.lookup { values := ⟨some "Stock", some "Items", "name"⟩ }) }] }]

/-- A book with a page of orders and a plain page of what is in stock. -/
def shop : Book where
  name := "Shop"
  pages := [ordersPage, { name := "Stock", rows := 5, groups := [{
    name := "Items", columns := [{ name := "name", dataType := .inline (.text {}) }] }] }]

/-- The book with another page of what is in stock: of more rows, with definitions and a theme of its own,
and with a type that no definition has. -/
def restockedShop : Book where
  name := "Shop"
  pages := [ordersPage, {
    name := "Stock"
    rows := 500
    definitions := some { colors := [("accent1", .inline (⟨1, 2, 3⟩))] }
    theme := some (.inline { tab := some (.named "accent1") })
    groups := [{ name := "Items", columns := [{ name := "name", dataType := .named "label" }] }] }]

/-- Other stock in the shop leaves its orders and their issues as they are. -/
theorem pages_do_not_interfere_shop : shop.AlikeAt restockedShop 0 ordersPage ∧
    Compilation.pageOf? {} restockedShop 0 = Compilation.pageOf? {} shop 0 ∧
    issuesUnder ((Path.root.key "pages").index 0) (Compilation.compile {} restockedShop).issues =
      issuesUnder ((Path.root.key "pages").index 0) (Compilation.compile {} shop).issues ∧
    (Compilation.compile {} shop).AnswersAlone ∧ (Compilation.compile {} restockedShop).AnswersAlone := by
  have h : shop.AlikeAt restockedShop 0 ordersPage := {
    theme := rfl, definitions := rfl, name := rfl, outlines := rfl, item := rfl, item' := rfl }
  exact ⟨h, pages_do_not_interfere {} h⟩

end Workbook
