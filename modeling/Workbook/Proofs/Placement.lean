import Mathlib.Logic.ExistsUnique
import Workbook.Proofs.Index
import Workbook.Proofs.Reports
import Workbook.Proofs.SchemaFaults

/-!
# The index and the output agree

The index of kept columns is built before anything is compiled, and the walk that makes the output drops
repeated names on its own. Both come to the same pages, groups and columns: a column of the output has
the number that the index gives to its titles, and every key of the index is the titles of one column of
the output. So no column is ever found missing from the index.
-/

namespace Workbook

/-- The titles of a page's columns from left to right, each with that of its group. -/
def SheetPage.titles (p : SheetPage) : List (String × String) :=
  p.groups.flatMap fun g => g.columns.map fun c => (g.title, c.title)

/-- The titles of the column with a number in the group with a number on the page with a number. -/
def SheetBook.keyAt? (b : SheetBook) (i j k : Nat) : Option ColumnKey := do
  let page ← b.pages[i]?
  let group ← page.groups[j]?
  let column ← group.columns[k]?
  return ⟨page.title, group.title, column.title⟩

/-- An index says of each column of a book where it is, and names no other columns. -/
structure ColumnIndex.Describes (index : ColumnIndex) (b : SheetBook) : Prop where
  /-- A column is placed on its page, by the number it has from left to right over all groups. -/
  placed : ∀ page ∈ b.pages, ∀ (k : Nat) (group column : String),
    page.titles[k]? = some (group, column) →
      index.get? ⟨page.title, group, column⟩ = some ⟨page.title, decide (1 < page.groups.length), k⟩
  /-- A key is the titles of exactly one column. -/
  found : ∀ key placement, index.get? key = some placement →
    ∃! place : Nat × Nat × Nat, b.keyAt? place.1 place.2.1 place.2.2 = some key
  pages : (b.pages.map SheetPage.title).Nodup
  groups : ∀ page ∈ b.pages, (page.groups.map SheetGroup.title).Nodup
  columns : ∀ page ∈ b.pages, ∀ group ∈ page.groups, (group.columns.map SheetColumn.title).Nodup

/-- A book with a page, on every page a group, and in every group a column. -/
structure SheetBook.Filled (b : SheetBook) : Prop where
  pages : b.pages ≠ []
  groups : ∀ page ∈ b.pages, page.groups ≠ []
  columns : ∀ page ∈ b.pages, ∀ group ∈ page.groups, group.columns ≠ []

/-! ## Outlines -/

/-- The titles of a page of the output: its own, those of its groups, and those of their columns. -/
def SheetPage.outline (p : SheetPage) : String × List (String × List String) :=
  (p.title, p.groups.map fun g => (g.title, g.columns.map SheetColumn.title))

/-- The names of a page: its own, those of its groups, and those of their columns. -/
def Page.outline (p : Page) : String × List (String × List String) :=
  (p.name, p.groups.map fun g => (g.name, g.columns.map Column.name))

/-- A kept column is in the index of kept columns. -/
theorem ColumnIndex.firstSeen_isSome {b : Book} {p : Page} (hp : p ∈ b.kept.pages) {g : Group}
    (hg : g ∈ p.groups) {c : Column} (hc : c ∈ g.columns) :
    ((firstSeen b).get? ⟨p.name, g.name, c.name⟩).isSome := by
  have ht : (g.name, c.name) ∈ p.titles :=
    List.mem_flatMap.2 ⟨g, hg, List.mem_map.2 ⟨c, hc, rfl⟩⟩
  obtain ⟨k, hk⟩ := List.mem_iff_getElem?.1 ht
  exact Option.isSome_iff_exists.2 ⟨_, firstSeen_get?.2 ⟨p, hp, _, k, hk, rfl, rfl⟩⟩

/-- The index of kept columns places what is kept of a kept page. -/
theorem Book.placed_firstSeen {b : Book} {p : Page} (hp : p ∈ keepFirst Page.name [] b.pages) :
    p.Placed (ColumnIndex.firstSeen b) := by
  intro g hg c hc
  have hpage : p.kept ∈ b.kept.pages := List.mem_map_of_mem hp
  have hgroup : { g with columns := keepFirst Column.name [] g.columns } ∈ p.kept.groups :=
    List.mem_map_of_mem hg
  exact ColumnIndex.firstSeen_isSome hpage hgroup hc

namespace Compile

/-- The columns of a group of the output are the kept ones, if these are placed. -/
theorem titles_columns (index : ColumnIndex) (page group : String) (around : Scope) (theme : SheetTheme)
    (site : Site) (path : Path) (cs : List Column)
    (hp : ∀ c ∈ keepFirst Column.name [] cs, (index.get? ⟨page, group, c.name⟩).isSome) :
    (columns index page group around theme site path [] 0 cs).value.map SheetColumn.title =
      (keepFirst Column.name [] cs).map Column.name := by
  have hone : ∀ x ∈ keptAt Column.name [] 0 cs,
      (column index page group around theme (site ++ [x.1]) (path.index x.1) x.2).value.toList.map
        SheetColumn.title = [x.2.name] := by
    intro x hx
    have hsome := hp x.2 (mem_keepFirst_of_mem_keptAt hx)
    have ht := title_column index page group around theme (site ++ [x.1]) (path.index x.1) x.2
    obtain ⟨placement, hget⟩ := Option.isSome_iff_exists.1 hsome
    rw [hget] at ht
    rw [← Option.toList_map, ht]
    rfl
  rw [value_columns, List.map_flatMap, List.flatMap_congr hone, ← map_snd_keptAt Column.name [] 0 cs,
    List.map_map, ← List.map_eq_flatMap]
  rfl

/-- A page of the output has the outline of what is kept of the page. -/
theorem outline_page (index : ColumnIndex) (around : Scope) (theme : SheetTheme) (site : Site)
    (path : Path) {p : Page} (hp : p.Placed index) :
    (page index around theme site path p).value.outline = p.kept.outline := by
  refine Prod.ext rfl ?_
  change ((groups index p.name _ _ site _ [] 0 p.groups).value.map fun g =>
    (g.title, g.columns.map SheetColumn.title)) = p.kept.groups.map fun g =>
      (g.name, g.columns.map Column.name)
  rw [value_groups, Page.kept, List.map_map, List.map_map, ← map_snd_keptAt Group.name [] 0 p.groups,
    List.map_map]
  refine List.map_congr_left fun x hx => Prod.ext rfl ?_
  exact titles_columns _ _ _ _ _ _ _ _ (hp x.2 (mem_keepFirst_of_mem_keptAt hx))

end Compile

/-- The output has the outline of what is kept of the book. -/
theorem Compile.outline_book (options : CompileOptions) (b : Book) :
    (book options b).value.pages.map SheetPage.outline = b.kept.pages.map Page.outline := by
  change (pages (ColumnIndex.firstSeen b) _ _ _ [] 0 b.pages).value.map _ = _
  rw [value_pages, Book.kept, List.map_map, List.map_map, ← map_snd_keptAt Page.name [] 0 b.pages,
    List.map_map]
  refine List.map_congr_left fun x hx => ?_
  exact outline_page _ _ _ _ _ (Book.placed_firstSeen (mem_keepFirst_of_mem_keptAt hx))

/-! ## Reading the output by its outline -/

section Outline

variable {page : SheetPage} {p : Page}

/-- A page of the output with the outline of a page has its name. -/
theorem title_of_outline (h : page.outline = p.outline) : page.title = p.name :=
  congrArg Prod.fst h

/-- A page of the output with the outline of a page has the names of its groups and columns. -/
theorem groups_of_outline (h : page.outline = p.outline) :
    (page.groups.map fun g => (g.title, g.columns.map SheetColumn.title)) =
      p.groups.map fun g => (g.name, g.columns.map Column.name) :=
  congrArg Prod.snd h

/-- A page of the output with the outline of a page has as many groups. -/
theorem length_of_outline (h : page.outline = p.outline) : page.groups.length = p.groups.length := by
  simpa using congrArg List.length (groups_of_outline h)

/-- A page of the output with the outline of a page has the names of its groups. -/
theorem groupTitles_of_outline (h : page.outline = p.outline) :
    page.groups.map SheetGroup.title = p.groups.map Group.name := by
  have hg := congrArg (List.map Prod.fst) (groups_of_outline h)
  rw [List.map_map, List.map_map] at hg
  exact hg

/-- A page of the output with the outline of a page has the titles of its columns. -/
theorem titles_of_outline (h : page.outline = p.outline) : page.titles = p.titles := by
  have hg := congrArg (List.flatMap fun x : String × List String => x.2.map fun c => (x.1, c))
    (groups_of_outline h)
  rw [List.flatMap_map, List.flatMap_map] at hg
  simpa [SheetPage.titles, Page.titles, Function.comp_def] using hg

end Outline

/-! ## Columns by their titles -/

namespace SheetBook

variable {b : SheetBook}

/-- Titles that stand on a page are those of a column. -/
theorem exists_keyAt? {page : SheetPage} (hp : page ∈ b.pages) {t : String × String}
    (ht : t ∈ page.titles) : ∃ i j k, b.keyAt? i j k = some (keyOn page.title t) := by
  obtain ⟨g, hg, hc⟩ := List.mem_flatMap.1 ht
  obtain ⟨c, hm, rfl⟩ := List.mem_map.1 hc
  obtain ⟨i, hi⟩ := List.mem_iff_getElem?.1 hp
  obtain ⟨j, hj⟩ := List.mem_iff_getElem?.1 hg
  obtain ⟨k, hk⟩ := List.mem_iff_getElem?.1 hm
  exact ⟨i, j, k, by simp [keyAt?, hi, hj, hk, keyOn]⟩

/-- Numbers that name a column name a page, a group of it and a column of that. -/
theorem keyAt?_eq_some {i j k : Nat} {key : ColumnKey} (h : b.keyAt? i j k = some key) :
    ∃ page group column, b.pages[i]? = some page ∧ page.groups[j]? = some group ∧
      group.columns[k]? = some column ∧ key = ⟨page.title, group.title, column.title⟩ := by
  simp only [keyAt?, Option.bind_eq_bind, Option.bind_eq_some_iff, Option.pure_def,
    Option.some.injEq] at h
  obtain ⟨page, hp, group, hg, column, hc, rfl⟩ := h
  exact ⟨page, group, column, hp, hg, hc, rfl⟩

end SheetBook

/-- Two members of a list with different labels that have one label are one. -/
theorem index_eq_of_label {α : Type} {as : List α} {label : α → String} (hn : (as.map label).Nodup)
    {i j : Nat} {a b : α} (hi : as[i]? = some a) (hj : as[j]? = some b) (h : label a = label b) :
    i = j := by
  obtain ⟨hlt, _⟩ := List.getElem?_eq_some_iff.1 hi
  refine (List.getElem?_inj (by simpa using hlt) hn).1 ?_
  rw [List.getElem?_map, List.getElem?_map, hi, hj, Option.map_some, Option.map_some, h]

/-- Where titles are different at every level, one column at most has a key. -/
theorem SheetBook.keyAt?_inj {b : SheetBook} (pages : (b.pages.map SheetPage.title).Nodup)
    (groups : ∀ page ∈ b.pages, (page.groups.map SheetGroup.title).Nodup)
    (columns : ∀ page ∈ b.pages, ∀ group ∈ page.groups, (group.columns.map SheetColumn.title).Nodup)
    {i j k i' j' k' : Nat} {key : ColumnKey} (h : b.keyAt? i j k = some key)
    (h' : b.keyAt? i' j' k' = some key) : (i, j, k) = (i', j', k') := by
  obtain ⟨page, group, column, hp, hg, hc, rfl⟩ := keyAt?_eq_some h
  obtain ⟨page', group', column', hp', hg', hc', hkey⟩ := keyAt?_eq_some h'
  have hi : i = i' := index_eq_of_label pages hp hp' (congrArg ColumnKey.page hkey)
  subst hi
  obtain rfl : page = page' := Option.some.inj (hp.symm.trans hp')
  have hpage := List.mem_of_getElem? hp
  have hj : j = j' := index_eq_of_label (groups page hpage) hg hg' (congrArg ColumnKey.group hkey)
  subst hj
  obtain rfl : group = group' := Option.some.inj (hg.symm.trans hg')
  have hk : k = k' := index_eq_of_label (columns page hpage group (List.mem_of_getElem? hg)) hc hc'
    (congrArg ColumnKey.column hkey)
  rw [hk]

/-! ## The index describes the output -/

namespace Compile

variable (options : CompileOptions) (b : Book)

/-- Every page of the output has the outline of a kept page. -/
theorem exists_kept_page {page : SheetPage} (h : page ∈ (book options b).value.pages) :
    ∃ p ∈ b.kept.pages, page.outline = p.outline := by
  have ho : page.outline ∈ b.kept.pages.map Page.outline := by
    rw [← outline_book options b]
    exact List.mem_map_of_mem h
  obtain ⟨p, hp, he⟩ := List.mem_map.1 ho
  exact ⟨p, hp, he.symm⟩

/-- Every kept page has a page of the output with its outline. -/
theorem exists_output_page {p : Page} (h : p ∈ b.kept.pages) :
    ∃ page ∈ (book options b).value.pages, page.outline = p.outline := by
  have ho : p.outline ∈ (book options b).value.pages.map SheetPage.outline := by
    rw [outline_book options b]
    exact List.mem_map_of_mem h
  exact List.mem_map.1 ho

/-- The pages of the output have different titles. -/
theorem nodup_pageTitles : ((book options b).value.pages.map SheetPage.title).Nodup := by
  have ht := congrArg (List.map Prod.fst) (outline_book options b)
  rw [List.map_map, List.map_map] at ht
  change (book options b).value.pages.map SheetPage.title = b.kept.pages.map Page.name at ht
  rw [ht]
  exact b.distinct_kept.pages

/-- The groups of a page of the output have different titles. -/
theorem nodup_groupTitles {page : SheetPage} (h : page ∈ (book options b).value.pages) :
    (page.groups.map SheetGroup.title).Nodup := by
  obtain ⟨p, hp, ho⟩ := exists_kept_page options b h
  rw [groupTitles_of_outline ho]
  exact b.distinct_kept.groups p hp

/-- Every group of the output has the title and the column titles of a kept group. -/
theorem exists_kept_group {page : SheetPage} (h : page ∈ (book options b).value.pages) {g : SheetGroup}
    (hg : g ∈ page.groups) : ∃ p ∈ b.kept.pages, page.outline = p.outline ∧ ∃ q ∈ p.groups,
      g.title = q.name ∧ g.columns.map SheetColumn.title = q.columns.map Column.name := by
  obtain ⟨p, hp, ho⟩ := exists_kept_page options b h
  have hm : (g.title, g.columns.map SheetColumn.title) ∈
      p.groups.map fun g => (g.name, g.columns.map Column.name) := by
    rw [← groups_of_outline ho]
    exact List.mem_map_of_mem hg
  obtain ⟨q, hq, he⟩ := List.mem_map.1 hm
  rw [Prod.mk.injEq] at he
  exact ⟨p, hp, ho, q, hq, he.1.symm, he.2.symm⟩

/-- The columns of a group of the output have different titles. -/
theorem nodup_columnTitles {page : SheetPage} (h : page ∈ (book options b).value.pages) {g : SheetGroup}
    (hg : g ∈ page.groups) : (g.columns.map SheetColumn.title).Nodup := by
  obtain ⟨p, hp, _, q, hq, _, hc⟩ := exists_kept_group options b h hg
  rw [hc]
  exact b.distinct_kept.columns p hp q hq

/-- The index of kept columns describes the output. -/
theorem describes_book : (ColumnIndex.firstSeen b).Describes (book options b).value where
  pages := nodup_pageTitles options b
  groups page h := nodup_groupTitles options b h
  columns page h g hg := nodup_columnTitles options b h hg
  placed page h k group column ht := by
    obtain ⟨p, hp, ho⟩ := exists_kept_page options b h
    rw [titles_of_outline ho] at ht
    rw [title_of_outline ho, length_of_outline ho]
    exact ColumnIndex.firstSeen_get?.2 ⟨p, hp, _, k, ht, rfl, rfl⟩
  found key placement h := by
    obtain ⟨p, hp, t, k, ht, rfl, _⟩ := ColumnIndex.firstSeen_get?.1 h
    obtain ⟨page, hpage, ho⟩ := exists_output_page options b hp
    have hm : t ∈ page.titles := by
      rw [titles_of_outline ho]
      exact List.mem_of_getElem? ht
    obtain ⟨i, j, k, hk⟩ := SheetBook.exists_keyAt? hpage hm
    rw [title_of_outline ho] at hk
    exact ⟨(i, j, k), hk, fun place hplace => SheetBook.keyAt?_inj (nodup_pageTitles options b)
      (fun _ h => nodup_groupTitles options b h) (fun _ h _ hg => nodup_columnTitles options b h hg)
      hplace hk⟩

end Compile

/-! ## No column is missing from the index -/

/-- The path of a column in a book. -/
def columnPath (i j k : Nat) : Path :=
  (((((Path.root.key "pages").index i).key "groups").index j).key "columns").index k

/-- The index of all columns reports the columns that it names. -/
theorem ColumnIndex.exists_of_mem_add {index : ColumnIndex} {os : List Occurrence} {i : Issue}
    (h : i ∈ (add index os).2) : ∃ o ∈ os, i = duplicate o := by
  induction os generalizing index with
  | nil => cases h
  | cons o rest ih =>
    have hcases : i = duplicate o ∨ i ∈ (add (index.insert o.key o.placement) rest).2 := by
      unfold add at h
      dsimp only at h
      split at h
      · exact List.mem_cons.1 h
      · exact .inr h
    obtain rfl | hr := hcases
    · exact ⟨o, List.mem_cons_self, rfl⟩
    · obtain ⟨o', ho', rfl⟩ := ih hr
      exact ⟨o', List.mem_cons_of_mem o ho', rfl⟩

/-- A column of a book occurs at the path of a column. -/
theorem Book.path_of_mem_occurrences {b : Book} {o : Occurrence} (h : o ∈ b.occurrences) :
    ∃ i j k, o.path = columnPath i j k := by
  obtain ⟨⟨p, i⟩, _, hp⟩ := List.mem_flatMap.1 h
  obtain ⟨⟨place, n⟩, hn, rfl⟩ := List.mem_map.1 hp
  obtain ⟨⟨g, j⟩, _, hg⟩ := List.mem_flatMap.1 (List.fst_mem_of_mem_zipIdx hn)
  obtain ⟨⟨c, k⟩, _, hc⟩ := List.mem_map.1 hg
  exact ⟨i, j, k, (congrArg Prod.fst hc).symm⟩

/-- The issue that a column is missing from the index is never reported. -/
theorem Compile.notIndexed_not_mem (options : CompileOptions) (b : Book) (i j k : Nat) (name : String) :
    notIndexed (columnPath i j k) name ∉ (book options b).issues := by
  intro h
  unfold book at h
  simp only [Outcome.issues_bind, Outcome.issues_record, Outcome.issues_pure, List.forM_eq_forM,
    Outcome.issues_forM_report, List.nil_append, List.append_nil, List.mem_append] at h
  -- an issue stands under the theme or the name of a level, or under a member of a column
  obtain h | h | h := h
  · obtain ⟨o, ho, he⟩ := ColumnIndex.exists_of_mem_add h
    obtain ⟨i', j', k', hpath⟩ := Book.path_of_mem_occurrences ho
    have hplace := congrArg Issue.place he
    simp [notIndexed, ColumnIndex.duplicate, Issue.processing, Issue.about, hpath, columnPath, Path.key,
      Path.index] at hplace
  · obtain ⟨below, he⟩ := levelTheme_under _ _ _ _ _ h
    simp [notIndexed, Issue.processing, Issue.about, columnPath, Path.key, Path.index, Path.root] at he
  · obtain ⟨n, ⟨below, he⟩ | ⟨below, he⟩ | ⟨m, ⟨below, he⟩ | ⟨below, he⟩ | ⟨l, member, below, he⟩⟩⟩ :=
      pages_reports _ _ _ _ (fun _ => Book.placed_firstSeen) h <;>
      simp [notIndexed, Issue.processing, Issue.about, columnPath, Path.key, Path.index, Path.root] at he

/-! ## Books that are whole -/

/-- A book that is read from a tree has a page, a group on every page, and a column in every group. -/
theorem Document.levels_of_validate {tree : Json} {b : Book} (h : validate tree = .ok b) :
    b.pages ≠ [] ∧ ∀ p ∈ b.pages, p.groups ≠ [] ∧ ∀ g ∈ p.groups, g.columns ≠ [] := by
  have hs : structureIssues b = [] := (validate_eq_ok_iff.1 h).2
  rw [structureIssues, List.append_eq_nil_iff, List.flatMap_eq_nil_iff] at hs
  obtain ⟨hpages, hinner⟩ := hs
  refine ⟨by intro hp; simp [hp] at hpages, fun p hp => ?_⟩
  obtain ⟨i, hi⟩ := List.mem_iff_getElem?.1 hp
  have hpage : pageStructure _ p = [] := hinner (p, i) (List.mk_mem_zipIdx_iff_getElem?.2 hi)
  rw [pageStructure, List.append_eq_nil_iff, List.flatMap_eq_nil_iff] at hpage
  obtain ⟨hgroups, hcolumns⟩ := hpage
  refine ⟨by intro hg; simp [hg] at hgroups, fun g hg => ?_⟩
  obtain ⟨j, hj⟩ := List.mem_iff_getElem?.1 hg
  have hgroup : groupStructure _ g = [] := hcolumns (g, j) (List.mk_mem_zipIdx_iff_getElem?.2 hj)
  intro hc
  simp [groupStructure, hc] at hgroup

/-- A whole book keeps something at every level. -/
theorem Compile.filled_book (options : CompileOptions) {b : Book} (hpages : b.pages ≠ [])
    (hinner : ∀ p ∈ b.pages, p.groups ≠ [] ∧ ∀ g ∈ p.groups, g.columns ≠ []) :
    (book options b).value.Filled where
  pages hnil := by
    have ho := outline_book options b
    rw [hnil, List.map_nil, Book.kept, List.map_map] at ho
    exact keepFirst_ne_nil Page.name hpages (List.map_eq_nil_iff.1 ho.symm)
  groups page h hnil := by
    obtain ⟨p, hp, ho⟩ := exists_kept_page options b h
    obtain ⟨q, hq, rfl⟩ := List.mem_map.1 hp
    have hgroups := groupTitles_of_outline ho
    rw [hnil, List.map_nil, Page.kept, List.map_map] at hgroups
    have hne := (hinner q (mem_of_mem_keepFirst hq).1).1
    exact keepFirst_ne_nil Group.name hne (List.map_eq_nil_iff.1 hgroups.symm)
  columns page h g hg hnil := by
    obtain ⟨p, hp, _, r, hr, _, hc⟩ := exists_kept_group options b h hg
    obtain ⟨q, hq, rfl⟩ := List.mem_map.1 hp
    obtain ⟨s, hs, rfl⟩ := List.mem_map.1 hr
    rw [hnil, List.map_nil] at hc
    have hne := (hinner q (mem_of_mem_keepFirst hq).1).2 s (mem_of_mem_keepFirst hs).1
    exact keepFirst_ne_nil Column.name hne (List.map_eq_nil_iff.1 hc.symm)

/-- The index of kept columns describes exactly the output of a compilation: every column of the output
has its number from left to right over the groups of its page, every key is the titles of one column, and
titles are different at every level. No column is looked for in vain, and what is compiled from a whole
book has columns everywhere. -/
theorem firstSeen_describes_output (b : Book) (options : CompileOptions) :
    (ColumnIndex.firstSeen b).Describes (Compilation.compile options b).book ∧
      (∀ p ∈ b.kept.pages, ∀ g ∈ p.groups, ∀ c ∈ g.columns,
        ((ColumnIndex.firstSeen b).get? ⟨p.name, g.name, c.name⟩).isSome) ∧
      (∀ i j k name, Compile.notIndexed (columnPath i j k) name ∉
        (Compilation.compile options b).issues) ∧
      ∀ tree, Document.validate tree = .ok b → (Compilation.compile options b).book.Filled := by
  refine ⟨Compile.describes_book options b, fun p hp g hg c hc => ColumnIndex.firstSeen_isSome hp hg hc,
    Compile.notIndexed_not_mem options b, fun tree h => ?_⟩
  obtain ⟨hpages, hinner⟩ := Document.levels_of_validate h
  exact Compile.filled_book options hpages hinner

end Workbook
