import Workbook.Proofs.Loops

/-!
# The levels of a compilation

A page, a group or a column that a compilation keeps has a scope and a theme, which are those of the levels
around it and its own, and it becomes one part of the output. The output has that part under its titles,
and what a compilation reports under a member of a kept column is what the work on that column reports
there. The names are apart from this: they are the business of the index.
-/

namespace Workbook

/-! ## Kept pages, groups and columns -/

/-- A page that a compilation keeps: the first one of its name. -/
structure KeptPage (b : Book) where
  pageNumber : Nat
  page : Page
  firstPage : FirstOfName Page.name b.pages pageNumber page

/-- A group that a compilation keeps: the first one of its name on a kept page. -/
structure KeptGroup (b : Book) extends KeptPage b where
  groupNumber : Nat
  group : Group
  firstGroup : FirstOfName Group.name page.groups groupNumber group

/-- A column that a compilation keeps: the first one of its name in a kept group. -/
structure KeptColumn (b : Book) extends KeptGroup b where
  columnNumber : Nat
  column : Column
  firstColumn : FirstOfName Column.name group.columns columnNumber column

/-- The scope at the root of a book. -/
def Book.scope (b : Book) (options : CompileOptions) : Scope := Scope.root b.definitions options

/-- The theme of a book that surrounds its pages. -/
def Book.sheetTheme (b : Book) (options : CompileOptions) : SheetTheme :=
  (Compile.levelTheme {} (b.scope options) .root b.theme).value

namespace KeptPage

variable {b : Book} (p : KeptPage b) (options : CompileOptions)

/-- The path of the page. -/
def path : Path := (Path.root.key "pages").index p.pageNumber

/-- The site of the page. -/
def site : Site := [p.pageNumber]

/-- The scope of the page: its definitions over those of the book. -/
def scope : Scope := (b.scope options).overlay p.site p.page.definitions

/-- The theme of the page, laid over that of the book. -/
def sheetTheme : SheetTheme :=
  (Compile.levelTheme (b.sheetTheme options) (p.scope options) p.path p.page.theme).value

/-- The work of compiling the page. -/
def work : Outcome SheetPage :=
  Compile.page (ColumnIndex.firstSeen b) (b.scope options) (b.sheetTheme options) p.site p.path p.page

end KeptPage

namespace KeptGroup

variable {b : Book} (g : KeptGroup b) (options : CompileOptions)

/-- The path of the group. -/
def path : Path := (g.toKeptPage.path.key "groups").index g.groupNumber

/-- The site of the group. -/
def site : Site := g.toKeptPage.site ++ [g.groupNumber]

/-- The scope of the group: its definitions over those of the page. -/
def scope : Scope := (g.toKeptPage.scope options).overlay g.site g.group.definitions

/-- The theme of the group, laid over that of the page. -/
def sheetTheme : SheetTheme :=
  (Compile.levelTheme (g.toKeptPage.sheetTheme options) (g.scope options) g.path g.group.theme).value

/-- The work of compiling the group. -/
def work : Outcome SheetGroup :=
  Compile.group (ColumnIndex.firstSeen b) g.page.name (g.toKeptPage.scope options)
    (g.toKeptPage.sheetTheme options) g.site g.path g.group

end KeptGroup

namespace KeptColumn

variable {b : Book} (c : KeptColumn b) (options : CompileOptions)

/-- The path of the column. -/
def path : Path := (c.toKeptGroup.path.key "columns").index c.columnNumber

/-- The site of the column. -/
def site : Site := c.toKeptGroup.site ++ [c.columnNumber]

/-- The scope of the column: its definitions over those of the group. -/
def scope : Scope := (c.toKeptGroup.scope options).overlay c.site c.column.definitions

/-- The theme of the column, laid over that of the group. -/
def sheetTheme : SheetTheme :=
  (Compile.levelTheme (c.toKeptGroup.sheetTheme options) (c.scope options) c.path c.column.theme).value

/-- The work of compiling the column. -/
def work : Outcome (Option SheetColumn) :=
  Compile.column (ColumnIndex.firstSeen b) c.page.name c.group.name (c.toKeptGroup.scope options)
    (c.toKeptGroup.sheetTheme options) c.site c.path c.column

/-- The names that say which column it is. -/
def key : ColumnKey := ⟨c.page.name, c.group.name, c.column.name⟩

/-- A kept column is in the index of kept columns. -/
theorem isSome_get? : ((ColumnIndex.firstSeen b).get? c.key).isSome :=
  Book.placed_firstSeen (mem_keepFirst_of_mem_keptAt c.firstPage.mem_keptAt)
    c.group (mem_keepFirst_of_mem_keptAt c.firstGroup.mem_keptAt)
    c.column (mem_keepFirst_of_mem_keptAt c.firstColumn.mem_keptAt)

/-- Where the column is placed. -/
def placement : Placement := ((ColumnIndex.firstSeen b).get? c.key).get c.isSome_get?

/-- The index has the placement of a kept column under its key. -/
theorem get?_key : (ColumnIndex.firstSeen b).get? c.key = some c.placement := (Option.some_get _).symm

/-- The cell for which the formulas of the column are written. -/
def cell : FormulaCell :=
  ⟨⟨ColumnIndex.firstSeen b, c.key⟩, c.placement.index, c.placement.headerRows⟩

/-- What the data type of the column makes of its cells. -/
def behaviorWork : Outcome (Option Behavior) :=
  Compile.behavior ⟨c.cell, c.scope options⟩ (c.path.key "type") c.column.dataType

/-- The formula of the column's value. -/
def valueWork : Outcome (Option String) :=
  Outcome.forOption (Compile.value c.cell (c.path.key "value")) c.column.value

/-- The column of the output. -/
def sheet : SheetColumn where
  title := c.column.name
  titleStyle := (c.sheetTheme options).header.nonEmpty?
  dataStyle := (c.sheetTheme options).data.nonEmpty?
  behavior := (c.behaviorWork options).value
  valueExpression := c.valueWork.value

/-- A kept column becomes a column. -/
theorem value_work : (c.work options).value = some (c.sheet options) := by
  have hget : (ColumnIndex.firstSeen b).get? ⟨c.page.name, c.group.name, c.column.name⟩ =
      some c.placement := c.get?_key
  unfold work Compile.column
  simp only [Outcome.value_bind]
  rw [hget]
  rfl

/-- A kept column reports what its theme, its type and its value report. -/
theorem issues_work : (c.work options).issues =
    (Compile.levelTheme (c.toKeptGroup.sheetTheme options) (c.scope options) c.path c.column.theme).issues ++
      ((c.behaviorWork options).issues ++ c.valueWork.issues) := by
  have hget : (ColumnIndex.firstSeen b).get? ⟨c.page.name, c.group.name, c.column.name⟩ =
      some c.placement := c.get?_key
  unfold work Compile.column
  simp only [Outcome.issues_bind, Outcome.issues_record, List.nil_append]
  rw [hget]
  simp only [Outcome.issues_bind, Outcome.issues_pure, List.append_nil]
  rfl

end KeptColumn

/-! ## Parts of the output by their titles -/

/-- The page with a title. -/
def SheetBook.page? (b : SheetBook) (title : String) : Option SheetPage := b.pages.find? (·.title == title)

/-- The group with a title. -/
def SheetPage.group? (p : SheetPage) (title : String) : Option SheetGroup :=
  p.groups.find? (·.title == title)

/-- The column with a title. -/
def SheetGroup.column? (g : SheetGroup) (title : String) : Option SheetColumn :=
  g.columns.find? (·.title == title)

/-- The group with a title on the page with a title. -/
def SheetBook.group? (b : SheetBook) (page group : String) : Option SheetGroup := do
  let page ← b.page? page
  page.group? group

/-- The column with the titles of a key. -/
def SheetBook.column? (b : SheetBook) (key : ColumnKey) : Option SheetColumn := do
  let group ← b.group? key.page key.group
  group.column? key.column

section Output

variable {b : Book} (options : CompileOptions)

/-- The output has the page that a kept page becomes. -/
theorem KeptPage.page?_book (p : KeptPage b) :
    (Compile.book options b).value.page? p.page.name = some (p.work options).value := by
  change (Compile.pages _ _ _ _ [] 0 b.pages).value.find? _ = _
  rw [Compile.value_pages, List.map_eq_flatMap]
  exact find?_flatMap_keptAt (f := fun x => some _) (fun x s h => by cases h; rfl) p.firstPage

/-- The page of the output has the group that a kept group becomes. -/
theorem KeptGroup.group?_work (g : KeptGroup b) :
    (g.toKeptPage.work options).value.group? g.group.name = some (g.work options).value := by
  change (Compile.groups _ _ _ _ _ _ [] 0 g.page.groups).value.find? _ = _
  rw [Compile.value_groups, List.map_eq_flatMap]
  exact find?_flatMap_keptAt (f := fun x => some _) (fun x s h => by cases h; rfl) g.firstGroup

/-- The group of the output has the column that a kept column becomes. -/
theorem KeptColumn.column?_work (c : KeptColumn b) :
    (c.toKeptGroup.work options).value.column? c.column.name = some (c.sheet options) := by
  change (Compile.columns _ _ _ _ _ _ _ [] 0 c.group.columns).value.find? _ = _
  rw [Compile.value_columns, ← c.value_work options]
  refine find?_flatMap_keptAt (fun x s hs => ?_) c.firstColumn
  have htitle := Compile.title_column (ColumnIndex.firstSeen b) c.page.name c.group.name
    (c.toKeptGroup.scope options) (c.toKeptGroup.sheetTheme options) (c.toKeptGroup.site ++ [x.1])
    ((c.toKeptGroup.path.key "columns").index x.1) x.2
  have hs' := htitle.symm.trans (congrArg (Option.map SheetColumn.title) hs)
  obtain ⟨_, _, hname⟩ := Option.map_eq_some_iff.1 hs'
  exact hname.symm

/-- The output has the group that a kept group becomes under its titles. -/
theorem KeptGroup.group?_book (g : KeptGroup b) :
    (Compile.book options b).value.group? g.page.name g.group.name = some (g.work options).value := by
  simp only [SheetBook.group?, g.toKeptPage.page?_book options, Option.bind_eq_bind, Option.bind_some,
    g.group?_work options]

/-- The output has the column that a kept column becomes under its titles. -/
theorem KeptColumn.column?_book (c : KeptColumn b) :
    (Compile.book options b).value.column? c.key = some (c.sheet options) := by
  simp only [SheetBook.column?, KeptColumn.key, c.toKeptGroup.group?_book options, Option.bind_eq_bind,
    Option.bind_some, c.column?_work options]

/-- A page of the output is what a kept page becomes. -/
theorem Compile.exists_keptPage {sheet : SheetPage} (h : sheet ∈ (Compile.book options b).value.pages) :
    ∃ p : KeptPage b, sheet = (p.work options).value := by
  change sheet ∈ (pages _ _ _ _ [] 0 b.pages).value at h
  rw [value_pages] at h
  obtain ⟨⟨i, p⟩, hp, rfl⟩ := List.mem_map.1 h
  exact ⟨⟨i, p, (firstOfName_of_mem_keptAt hp).2.1⟩, rfl⟩

/-- A group of a page of the output is what a kept group of the page becomes. -/
theorem KeptPage.exists_keptGroup (p : KeptPage b) {sheet : SheetGroup}
    (h : sheet ∈ (p.work options).value.groups) :
    ∃ g : KeptGroup b, g.toKeptPage = p ∧ sheet = (g.work options).value := by
  change sheet ∈ (Compile.groups _ _ _ _ _ _ [] 0 p.page.groups).value at h
  rw [Compile.value_groups] at h
  obtain ⟨⟨j, g⟩, hg, rfl⟩ := List.mem_map.1 h
  exact ⟨⟨p, j, g, (firstOfName_of_mem_keptAt hg).2.1⟩, rfl, rfl⟩

/-- A column of a group of the output is what a kept column of the group becomes. -/
theorem KeptGroup.exists_keptColumn (g : KeptGroup b) {sheet : SheetColumn}
    (h : sheet ∈ (g.work options).value.columns) :
    ∃ c : KeptColumn b, c.toKeptGroup = g ∧ sheet = c.sheet options := by
  change sheet ∈ (Compile.columns _ _ _ _ _ _ _ [] 0 g.group.columns).value at h
  rw [Compile.value_columns] at h
  obtain ⟨⟨k, c⟩, hc, hsheet⟩ := List.mem_flatMap.1 h
  let kept : KeptColumn b := ⟨g, k, c, (firstOfName_of_mem_keptAt hc).2.1⟩
  have hwork : (kept.work options).value = some sheet := Option.mem_toList.1 hsheet
  rw [kept.value_work] at hwork
  exact ⟨kept, rfl, (Option.some.inj hwork).symm⟩

end Output

/-! ## What stands under a kept column -/

section Reports

variable {b : Book} (options : CompileOptions) {q : Path}

/-- The index of all columns reports nothing but the names of columns. -/
theorem ColumnIndex.issuesUnder_build (c : KeptColumn b) {member : String}
    (hq : (c.path.key member).Within q) (hne : member ≠ "name") :
    issuesUnder q (build b).2 = [] := by
  refine issuesUnder_of_none fun i hi hunder => ?_
  have hmember := hunder.within hq
  obtain ⟨o, ho, rfl⟩ := exists_of_mem_add hi
  obtain ⟨i', j', k', hpath⟩ := Book.path_of_mem_occurrences ho
  have hname : (duplicate o).Under ((columnPath i' j' k').key "name") := by
    rw [← hpath]
    exact .processing _ _
  have hpage : i' = c.pageNumber :=
    hname.ofKey.ofIndex.ofKey.ofIndex.ofKey.index_inj hmember.ofKey.ofIndex.ofKey.ofIndex.ofKey
  subst hpage
  have hgroup : j' = c.groupNumber := hname.ofKey.ofIndex.ofKey.index_inj hmember.ofKey.ofIndex.ofKey
  subst hgroup
  have hcolumn : k' = c.columnNumber := hname.ofKey.index_inj hmember.ofKey
  subst hcolumn
  exact hne (hmember.key_inj hname)

/-- What a page reports under its groups is what the groups report. -/
theorem KeptPage.issuesUnder_work (p : KeptPage b) (hq : (p.path.key "groups").Within q) :
    issuesUnder q (p.work options).issues = issuesUnder q (Compile.groups (ColumnIndex.firstSeen b)
      p.page.name (p.scope options) (p.sheetTheme options) p.site (p.path.key "groups") [] 0
      p.page.groups).issues := by
  unfold work Compile.page
  simp only [Outcome.issues_bind, Outcome.issues_record, Outcome.issues_pure, List.nil_append,
    List.append_nil, issuesUnder_append]
  rw [(Compile.levelTheme_under _ _ _ _).issuesUnder_key hq (by decide), List.nil_append]
  rfl

/-- What a group reports under its columns is what the columns report. -/
theorem KeptGroup.issuesUnder_work (g : KeptGroup b) (hq : (g.path.key "columns").Within q) :
    issuesUnder q (g.work options).issues = issuesUnder q (Compile.columns (ColumnIndex.firstSeen b)
      g.page.name g.group.name (g.scope options) (g.sheetTheme options) g.site (g.path.key "columns") [] 0
      g.group.columns).issues := by
  unfold work Compile.group
  simp only [Outcome.issues_bind, Outcome.issues_record, Outcome.issues_pure, List.nil_append,
    List.append_nil, issuesUnder_append]
  rw [(Compile.levelTheme_under _ _ _ _).issuesUnder_key hq (by decide), List.nil_append]
  rfl

/-- What is reported under a member of a kept column is what the column reports there. -/
theorem KeptColumn.issuesUnder_book (c : KeptColumn b) {member : String}
    (hq : (c.path.key member).Within q) (hne : member ≠ "name") :
    issuesUnder q (Compile.book options b).issues = issuesUnder q (c.work options).issues := by
  have hcolumn : c.path.Within q := hq.ofKey
  have hgroup : (c.toKeptGroup.path.key "columns").Within q := hcolumn.ofIndex
  have hpage : (c.toKeptPage.path.key "groups").Within q := hgroup.ofKey.ofIndex
  have hbook : (Path.root.key "pages").Within q := hpage.ofKey.ofIndex
  unfold Compile.book
  simp only [Outcome.issues_bind, Outcome.issues_record, Outcome.issues_pure, List.forM_eq_forM,
    Outcome.issues_forM_report, List.nil_append, List.append_nil, issuesUnder_append]
  rw [ColumnIndex.issuesUnder_build c hq hne, List.nil_append,
    (Compile.levelTheme_under _ _ _ _).issuesUnder_key hbook (by decide), List.nil_append]
  calc issuesUnder q (Compile.pages _ _ _ _ [] 0 b.pages).issues
      = issuesUnder q (c.toKeptPage.work options).issues :=
        Compile.issuesUnder_pages _ _ _ _ c.firstPage hpage.ofKey
    _ = issuesUnder q (c.toKeptGroup.work options).issues := by
        rw [c.toKeptPage.issuesUnder_work options hpage]
        exact Compile.issuesUnder_groups _ _ _ _ _ _ c.firstGroup hgroup.ofKey
    _ = issuesUnder q (c.work options).issues := by
        rw [c.toKeptGroup.issuesUnder_work options hgroup]
        exact Compile.issuesUnder_columns _ _ _ _ _ _ _ c.firstColumn hcolumn

/-- Issues under the data type of a kept column are those of its behavior. -/
theorem KeptColumn.issuesUnder_type (c : KeptColumn b) (hq : (c.path.key "type").Within q) :
    issuesUnder q (Compile.book options b).issues = issuesUnder q (c.behaviorWork options).issues := by
  have hvalue : c.valueWork.Under (c.path.key "value") := .forOption (Compile.value_under _ _) _
  rw [c.issuesUnder_book options hq (by decide), c.issues_work, issuesUnder_append, issuesUnder_append,
    (Compile.levelTheme_under _ _ _ _).issuesUnder_key hq (by decide),
    hvalue.issuesUnder_key hq (by decide), List.nil_append, List.append_nil]

/-- Issues under the value of a kept column are those of its formula. -/
theorem KeptColumn.issuesUnder_value (c : KeptColumn b) (hq : (c.path.key "value").Within q) :
    issuesUnder q (Compile.book options b).issues = issuesUnder q c.valueWork.issues := by
  have htype : (c.behaviorWork options).Under (c.path.key "type") := Compile.behavior_under _ _ _
  rw [c.issuesUnder_book options hq (by decide), c.issues_work, issuesUnder_append, issuesUnder_append,
    (Compile.levelTheme_under _ _ _ _).issuesUnder_key hq (by decide),
    htype.issuesUnder_key hq (by decide), List.nil_append, List.nil_append]

end Reports

end Workbook
