import Workbook.Proofs.PageIndependence
import Workbook.Proofs.Repeats

/-!
# What a compilation emits

Every page, group and column of a book becomes a part of the output, unless an issue at its name, or at the
name of a part around it, says that the name is repeated. Repeated columns are reported by the index of all
columns, which goes by the names of page, group and column over the whole book, and they are left out by
the loop over a group, which reports nothing. Repeated groups and pages are reported by the loops that
leave them out. So the two passes are compared column by column: the index has seen the names of a column
before exactly if the column, its group or its page repeats a name.
-/

namespace Workbook

/-! ## Issues about repeated names -/

/-- The first word of an issue about a repeated name. -/
def repeatMark : List Char := "duplicate ".toList

/-- The issue stands at the name of the part at a path, and says that the name is repeated. -/
def Issue.RepeatAt (path : Path) (i : Issue) : Prop :=
  repeatMark <+: i.message.toList ∧ i.place = .node (path.key "name")

instance (path : Path) (i : Issue) : Decidable (i.RepeatAt path) :=
  inferInstanceAs (Decidable (_ ∧ _))

namespace Issue.RepeatAt

/-- A page that is left out is reported at its name. -/
theorem page (path : Path) (name : String) : (Compile.duplicatePage path name).RepeatAt path := by
  have hmark : "duplicate page name '".toList = repeatMark ++ "page name '".toList := rfl
  refine ⟨?_, rfl⟩
  simp only [Compile.duplicatePage, Issue.processing, Issue.about, String.toList_append, hmark,
    List.append_assoc]
  exact List.prefix_append _ _

/-- A group that is left out is reported at its name. -/
theorem group (path : Path) (page name : String) :
    (Compile.duplicateGroup path page name).RepeatAt path := by
  have hmark : "duplicate group name '".toList = repeatMark ++ "group name '".toList := rfl
  refine ⟨?_, rfl⟩
  simp only [Compile.duplicateGroup, Issue.processing, Issue.about, String.toList_append, hmark,
    List.append_assoc]
  exact List.prefix_append _ _

/-- A column that repeats a key is reported at its name. -/
theorem column (o : Occurrence) : (ColumnIndex.duplicate o).RepeatAt o.path := by
  have hmark : "duplicate column '".toList = repeatMark ++ "column '".toList := rfl
  refine ⟨?_, rfl⟩
  simp only [ColumnIndex.duplicate, Issue.processing, Issue.about, String.toList_append, hmark,
    List.append_assoc]
  exact List.prefix_append _ _

/-- An issue about a repeated name stands under the name. -/
theorem under {path : Path} {i : Issue} (h : i.RepeatAt path) : i.Under (path.key "name") :=
  ⟨[], by rw [h.2, List.append_nil]⟩

end Issue.RepeatAt

/-! ## Lists around an item -/

section Around

variable {α : Type} {as : List α} {n : Nat} {a : α}

/-- A list is what stands before an item, the item, and what stands after it. -/
theorem eq_take_cons_drop (h : as[n]? = some a) : as = as.take n ++ a :: as.drop (n + 1) := by
  obtain ⟨hn, rfl⟩ := List.getElem?_eq_some_iff.1 h
  rw [List.getElem_cons_drop, List.take_append_drop]

/-- So is the list of the items with their numbers. -/
theorem zipIdx_split (h : as[n]? = some a) :
    as.zipIdx = (as.take n).zipIdx ++ (a, n) :: (as.drop (n + 1)).zipIdx (n + 1) := by
  have hn : (as.take n).length = n := by
    rw [List.length_take]
    exact Nat.min_eq_left (Nat.le_of_lt (List.getElem?_eq_some_iff.1 h).1)
  conv_lhs => rw [eq_take_cons_drop h]
  rw [List.zipIdx_append, List.zipIdx_cons, hn, Nat.zero_add]

/-- An item is the first one of its name if none before it has the name. -/
theorem firstOfName_iff_take {name : α → String} (h : as[n]? = some a) :
    FirstOfName name as n a ↔ ∀ b ∈ as.take n, name b ≠ name a := by
  constructor
  · intro hfirst b hb
    obtain ⟨m, hm⟩ := List.mem_iff_getElem?.1 hb
    rw [List.getElem?_take] at hm
    split at hm
    · rename_i hlt
      exact hfirst.earlier m b hlt hm
    · cases hm
  · refine fun hbefore => ⟨h, fun m b hm hb => hbefore b ?_⟩
    exact List.mem_of_getElem? (i := m) (by rw [List.getElem?_take, if_pos hm, hb])

end Around

/-! ## The parts of a book -/

/-- The path of a page in a book. -/
def pagePath (i : Nat) : Path := (Path.root.key "pages").index i

/-- The path of a group in a book. -/
def groupPath (i j : Nat) : Path := ((pagePath i).key "groups").index j

/-- An issue stands at or under one column only. -/
theorem columnPath_inj {i j k i' j' k' : Nat} {issue : Issue} (h : issue.Under (columnPath i j k))
    (h' : issue.Under (columnPath i' j' k')) : i = i' ∧ j = j' ∧ k = k' := by
  have hpage : i = i' := h.ofIndex.ofKey.ofIndex.ofKey.index_inj h'.ofIndex.ofKey.ofIndex.ofKey
  subst hpage
  have hgroup : j = j' := h.ofIndex.ofKey.index_inj h'.ofIndex.ofKey
  subst hgroup
  exact ⟨rfl, rfl, h.index_inj h'⟩

/-! ## The columns of a book in document order -/

/-- The columns of a group with their paths and keys. -/
def Group.cells (path : Path) (page : String) (g : Group) : List (Path × ColumnKey) :=
  g.columns.zipIdx.map fun (c, k) => ((path.key "columns").index k, ⟨page, g.name, c.name⟩)

/-- The columns of a page with their paths and keys. -/
def Page.cells (path : Path) (p : Page) : List (Path × ColumnKey) :=
  p.groups.zipIdx.flatMap fun (g, j) => g.cells ((path.key "groups").index j) p.name

/-- The columns of a book with their paths and keys. -/
def Book.cells (b : Book) : List (Path × ColumnKey) :=
  b.pages.zipIdx.flatMap fun (p, i) => p.cells ((Path.root.key "pages").index i)

/-- The occurrences of a page have the paths and keys of its cells. -/
theorem Page.cells_occurrences (path : Path) (p : Page) :
    (p.occurrences path).map (fun o => (o.path, o.key)) = p.cells path := by
  rw [occurrences, List.map_map]
  exact List.zipIdx_map_fst 0 (p.cells path)

/-- The occurrences of a book have the paths and keys of its cells. -/
theorem Book.cells_occurrences (b : Book) :
    b.occurrences.map (fun o => (o.path, o.key)) = b.cells := by
  rw [occurrences, cells, List.map_flatMap]
  exact congrArg (List.flatMap · b.pages.zipIdx) (funext fun x => Page.cells_occurrences _ x.1)

/-- The keys of the columns of a group. -/
theorem Group.keys_cells (path : Path) (page : String) (g : Group) :
    (g.cells path page).map Prod.snd = g.columns.map fun c => ⟨page, g.name, c.name⟩ := by
  conv_rhs => rw [← List.zipIdx_map_fst 0 g.columns, List.map_map]
  rw [cells, List.map_map]
  rfl

/-- The keys of the columns of a page. -/
theorem Page.keys_cells (path : Path) (p : Page) :
    (p.cells path).map Prod.snd =
      p.groups.flatMap fun g => g.columns.map fun c => ⟨p.name, g.name, c.name⟩ := by
  conv_rhs => rw [← List.zipIdx_map_fst 0 p.groups, List.flatMap_map]
  rw [cells, List.map_flatMap]
  exact congrArg (List.flatMap · p.groups.zipIdx) (funext fun x => Group.keys_cells _ _ x.1)

/-- The keys of the columns of a book. -/
theorem Book.keys_cells (b : Book) :
    b.cells.map Prod.snd = b.pages.flatMap fun p =>
      p.groups.flatMap fun g => g.columns.map fun c => ⟨p.name, g.name, c.name⟩ := by
  conv_rhs => rw [← List.zipIdx_map_fst 0 b.pages, List.flatMap_map]
  rw [cells, List.map_flatMap]
  exact congrArg (List.flatMap · b.pages.zipIdx) (funext fun x => Page.keys_cells _ x.1)

/-- The numbers of items are different. -/
theorem nodup_zipIdx {α β : Type} {f : Nat → β} (hf : Function.Injective f) (as : List α) :
    (as.zipIdx.map fun x => f x.2).Nodup := by
  have hnumbers : as.zipIdx.map (fun x => f x.2) = (as.zipIdx.map Prod.snd).map f := by
    rw [List.map_map]
    rfl
  rw [hnumbers, List.zipIdx_map_snd]
  exact List.Nodup.map hf List.nodup_range'

/-- No two columns have the same path. -/
theorem Book.nodup_paths (b : Book) : (b.cells.map Prod.fst).Nodup := by
  have hindex : Function.Injective fun n => some (Segment.index n) := fun m n h => by
    cases h
    rfl
  rw [cells, List.map_flatMap]
  -- the number of its page, of its group and its own tell a column from the others
  refine nodup_flatMap_of_label (fun path : Path => path.segments[1]?) (nodup_zipIdx hindex b.pages)
    (fun (p, i) _ => ?_) fun (p, i) _ path hpath => ?_
  · change ((p.cells ((Path.root.key "pages").index i)).map Prod.fst).Nodup
    rw [Page.cells, List.map_flatMap]
    refine nodup_flatMap_of_label (fun path : Path => path.segments[3]?) (nodup_zipIdx hindex p.groups)
      (fun (g, j) _ => ?_) fun (g, j) _ path hpath => ?_
    · change ((g.cells ((((Path.root.key "pages").index i).key "groups").index j) p.name).map
        Prod.fst).Nodup
      rw [Group.cells, List.map_map]
      refine nodup_zipIdx (f := columnPath i j) (fun k l h => ?_) g.columns
      have hlast := congrArg (fun path : Path => path.segments[5]?) h
      exact hindex hlast
    · obtain ⟨_, hcell, rfl⟩ := List.mem_map.1 hpath
      obtain ⟨_, _, rfl⟩ := List.mem_map.1 hcell
      rfl
  · obtain ⟨_, hcell, rfl⟩ := List.mem_map.1 hpath
    obtain ⟨_, _, hgroup⟩ := List.mem_flatMap.1 hcell
    obtain ⟨_, _, rfl⟩ := List.mem_map.1 hgroup
    rfl

/-- The columns of a book before one of them, with their paths and keys. -/
def Book.cellsBefore (b : Book) (i j k : Nat) (p : Page) (g : Group) : List (Path × ColumnKey) :=
  { b with pages := b.pages.take i }.cells ++
    { p with groups := p.groups.take j }.cells (pagePath i) ++
    { g with columns := g.columns.take k }.cells (groupPath i j) p.name

section Before

variable {b : Book} {i j k : Nat} {p : Page} {g : Group} {c : Column}

/-- The columns of a book are those before one of them, the column, and those after it. -/
theorem Book.cells_split (hp : b.pages[i]? = some p) (hg : p.groups[j]? = some g)
    (hc : g.columns[k]? = some c) : ∃ after, b.cells =
      b.cellsBefore i j k p g ++ (columnPath i j k, ⟨p.name, g.name, c.name⟩) :: after := by
  have hcells : ∃ later, b.cells =
      { b with pages := b.pages.take i }.cells ++ (p.cells (pagePath i) ++ later) := by
    rw [cells, zipIdx_split hp, List.flatMap_append, List.flatMap_cons]
    exact ⟨_, rfl⟩
  have hpage : ∃ later, p.cells (pagePath i) =
      { p with groups := p.groups.take j }.cells (pagePath i) ++
        (g.cells (groupPath i j) p.name ++ later) := by
    rw [Page.cells, zipIdx_split hg, List.flatMap_append, List.flatMap_cons]
    exact ⟨_, rfl⟩
  have hgroup : ∃ later, g.cells (groupPath i j) p.name =
      { g with columns := g.columns.take k }.cells (groupPath i j) p.name ++
        (columnPath i j k, ⟨p.name, g.name, c.name⟩) :: later := by
    rw [Group.cells, zipIdx_split hc, List.map_append, List.map_cons]
    exact ⟨_, rfl⟩
  obtain ⟨_, hcells⟩ := hcells
  obtain ⟨_, hpage⟩ := hpage
  obtain ⟨_, hgroup⟩ := hgroup
  rw [hcells, hpage, hgroup, cellsBefore]
  simp only [List.append_assoc, List.cons_append]
  exact ⟨_, rfl⟩

/-- The keys before a column are those of the pages before its page, of the groups before its group, and of
the columns before it. -/
theorem Book.mem_keysBefore {key : ColumnKey} : key ∈ (b.cellsBefore i j k p g).map Prod.snd ↔
    (∃ q ∈ b.pages.take i, ∃ h ∈ q.groups, ∃ d ∈ h.columns, ⟨q.name, h.name, d.name⟩ = key) ∨
    (∃ h ∈ p.groups.take j, ∃ d ∈ h.columns, ⟨p.name, h.name, d.name⟩ = key) ∨
    ∃ d ∈ g.columns.take k, ⟨p.name, g.name, d.name⟩ = key := by
  rw [cellsBefore, List.map_append, List.map_append, keys_cells, Page.keys_cells, Group.keys_cells]
  simp only [List.mem_append, List.mem_flatMap, List.mem_map, or_assoc]

/-- The names of a column that is kept occur at no column before it. -/
theorem Book.not_mem_keysBefore (hp : FirstOfName Page.name b.pages i p)
    (hg : FirstOfName Group.name p.groups j g) (hc : FirstOfName Column.name g.columns k c) :
    ⟨p.name, g.name, c.name⟩ ∉ (b.cellsBefore i j k p g).map Prod.snd := by
  rw [mem_keysBefore]
  rintro (⟨q, hq, h, _, d, _, hkey⟩ | ⟨h, hh, d, _, hkey⟩ | ⟨d, hd, hkey⟩)
  · exact (firstOfName_iff_take hp.item).1 hp q hq (congrArg ColumnKey.page hkey)
  · exact (firstOfName_iff_take hg.item).1 hg h hh (congrArg ColumnKey.group hkey)
  · exact (firstOfName_iff_take hc.item).1 hc d hd (congrArg ColumnKey.column hkey)

/-- The names of a column that repeats a name in its group occur at a column before it. -/
theorem Book.mem_keysBefore_of_not_first (hc : g.columns[k]? = some c)
    (h : ¬FirstOfName Column.name g.columns k c) :
    ⟨p.name, g.name, c.name⟩ ∈ (b.cellsBefore i j k p g).map Prod.snd := by
  rw [firstOfName_iff_take hc] at h
  push Not at h
  obtain ⟨d, hd, hname⟩ := h
  exact mem_keysBefore.2 (.inr (.inr ⟨d, hd, by rw [hname]⟩))

/-- In a book whose names are different at every level no column has the names of a column before it. -/
theorem Book.Distinct.not_mem_keysBefore (h : b.Distinct) (hp : b.pages[i]? = some p)
    (hg : p.groups[j]? = some g) (hc : g.columns[k]? = some c) :
    ⟨p.name, g.name, c.name⟩ ∉ (b.cellsBefore i j k p g).map Prod.snd := by
  have hpage : p ∈ b.pages := List.mem_of_getElem? hp
  exact Book.not_mem_keysBefore (.of_nodup h.pages hp) (.of_nodup (h.groups p hpage) hg)
    (.of_nodup (h.columns p hpage g (List.mem_of_getElem? hg)) hc)

end Before

/-! ## What the index reports -/

namespace ColumnIndex

/-- A key is in an index after some columns were indexed if it was there or is the key of one of them. -/
theorem isSome_get?_add {index : ColumnIndex} {os : List Occurrence} {key : ColumnKey} :
    ((add index os).1.get? key).isSome ↔ (index.get? key).isSome ∨ key ∈ os.map Occurrence.key := by
  induction os generalizing index with
  | nil => simp [add]
  | cons o rest ih =>
    have hnext : (add index (o :: rest)).1 = (add (index.insert o.key o.placement) rest).1 := rfl
    rw [hnext, ih, get?_insert, List.map_cons, List.mem_cons]
    by_cases hkey : key = o.key
    · simp [hkey]
    · simp [hkey]

/-- The issues of some columns and of those that are indexed after them. -/
theorem issues_add_append (index : ColumnIndex) (os more : List Occurrence) :
    (add index (os ++ more)).2 = (add index os).2 ++ (add (add index os).1 more).2 := by
  induction os generalizing index with
  | nil => rfl
  | cons o rest ih =>
    rw [List.cons_append, add, add]
    dsimp only
    rw [ih]
    split
    · rfl
    · rfl

/-- The index of all columns reports at the names of columns that it is given. -/
theorem issuesUnder_add_of_not_mem {b : Book} {os : List Occurrence} (hos : ∀ o ∈ os, o ∈ b.occurrences)
    (index : ColumnIndex) {i j k : Nat} (h : columnPath i j k ∉ os.map Occurrence.path) :
    issuesUnder ((columnPath i j k).key "name") (add index os).2 = [] := by
  refine issuesUnder_of_none fun issue hissue hunder => h ?_
  obtain ⟨o, ho, rfl⟩ := exists_of_mem_add hissue
  obtain ⟨i', j', k', hpath⟩ := Book.path_of_mem_occurrences (hos o ho)
  have hname : (duplicate o).Under ((columnPath i' j' k').key "name") := by
    rw [← hpath]
    exact .processing _ _
  obtain ⟨rfl, rfl, rfl⟩ := columnPath_inj hname.ofKey hunder.ofKey
  rw [← hpath]
  exact List.mem_map_of_mem ho

/-- At the name of a column the index reports whether its names occur at a column before it. -/
theorem issuesUnder_build_name {b : Book} {i j k : Nat} {p : Page} {g : Group} {c : Column}
    (hp : b.pages[i]? = some p) (hg : p.groups[j]? = some g) (hc : g.columns[k]? = some c) :
    ∃ o : Occurrence, o.path = columnPath i j k ∧
      issuesUnder ((columnPath i j k).key "name") (build b).2 =
        if ⟨p.name, g.name, c.name⟩ ∈ (b.cellsBefore i j k p g).map Prod.snd then [duplicate o] else [] := by
  obtain ⟨after, hcells⟩ := Book.cells_split hp hg hc
  rw [← b.cells_occurrences] at hcells
  obtain ⟨os, rest, hos, hbefore, hrest⟩ := List.map_eq_append_iff.1 hcells
  obtain ⟨o, more, rfl, ho, _⟩ := List.map_eq_cons_iff.1 hrest
  obtain ⟨hpath, hkey⟩ := Prod.mk.inj ho
  have hkeys : os.map Occurrence.key = (b.cellsBefore i j k p g).map Prod.snd := by
    rw [← hbefore, List.map_map]
    rfl
  -- no other column has the path of this one
  have hnodup := b.nodup_paths
  rw [← b.cells_occurrences, List.map_map, hos, List.map_append, List.map_cons] at hnodup
  have hother := (List.nodup_cons.1 (List.nodup_middle.1 hnodup)).1
  rw [List.mem_append, not_or] at hother
  change o.path ∉ os.map Occurrence.path ∧ o.path ∉ more.map Occurrence.path at hother
  rw [hpath] at hother
  have hearlier : ∀ x ∈ os, x ∈ b.occurrences := fun x hx => hos ▸ List.mem_append_left _ hx
  have hlater : ∀ x ∈ more, x ∈ b.occurrences := fun x hx =>
    hos ▸ List.mem_append_right _ (List.mem_cons_of_mem o hx)
  refine ⟨o, hpath, ?_⟩
  rw [build, hos, issues_add_append, issuesUnder_append, issuesUnder_add_of_not_mem hearlier _ hother.1,
    List.nil_append, add]
  dsimp only
  have hseen : ((add {} os).1.get? o.key).isSome ↔
      ⟨p.name, g.name, c.name⟩ ∈ (b.cellsBefore i j k p g).map Prod.snd := by
    rw [isSome_get?_add, hkey, hkeys]
    exact or_iff_right Bool.false_ne_true
  have hown : (duplicate o).Under ((columnPath i j k).key "name") := by
    rw [← hpath]
    exact .processing _ _
  simp only [hseen]
  split
  · rw [← List.singleton_append, issuesUnder_append, issuesUnder_add_of_not_mem hlater _ hother.2,
      List.append_nil]
    exact issuesUnder_of_all fun issue hissue => List.mem_singleton.1 hissue ▸ hown
  · exact issuesUnder_add_of_not_mem hlater _ hother.2

end ColumnIndex

/-! ## What the walk reports at names -/

section Names

variable {options : CompileOptions} {b : Book} {q : Path}

/-- The index reports under the columns of groups only. -/
theorem ColumnIndex.issuesUnder_build_of_name (h : ∀ i j k, ∀ issue : Issue,
    issue.Under ((columnPath i j k).key "name") → ¬issue.Under q) : issuesUnder q (build b).2 = [] := by
  refine issuesUnder_of_none fun issue hissue hunder => ?_
  obtain ⟨o, ho, rfl⟩ := exists_of_mem_add hissue
  obtain ⟨i, j, k, hpath⟩ := Book.path_of_mem_occurrences ho
  refine h i j k _ ?_ hunder
  rw [← hpath]
  exact .processing _ _

/-- Under the pages a compilation reports what the index and the loop over the pages report. -/
theorem Compile.issuesUnder_book (hq : (Path.root.key "pages").Within q) :
    issuesUnder q (book options b).issues = issuesUnder q (ColumnIndex.build b).2 ++
      issuesUnder q (pages (ColumnIndex.firstSeen b) (b.scope options) (b.sheetTheme options)
        (Path.root.key "pages") [] 0 b.pages).issues := by
  unfold book
  simp only [Outcome.issues_bind, Outcome.issues_record, Outcome.issues_pure, List.forM_eq_forM,
    Outcome.issues_forM_report, List.nil_append, List.append_nil, issuesUnder_append]
  rw [(levelTheme_under _ _ _ _).issuesUnder_key hq (by decide), List.nil_append]
  rfl

/-- Under a page that is kept these are the index and the page. -/
theorem KeptPage.issuesUnder_book (p : KeptPage b) (hq : p.path.Within q) :
    issuesUnder q (Compile.book options b).issues =
      issuesUnder q (ColumnIndex.build b).2 ++ issuesUnder q (p.work options).issues := by
  rw [Compile.issuesUnder_book hq.ofIndex, Compile.issuesUnder_pages _ _ _ _ p.firstPage hq]
  rfl

/-- Under a page that repeats a name they are the index and the issue that says so. -/
theorem Compile.issuesUnder_repeatedPage {i : Nat} {p : Page} (hp : b.pages[i]? = some p)
    (h : ¬FirstOfName Page.name b.pages i p) (hq : (pagePath i).Within q) :
    issuesUnder q (book options b).issues =
      issuesUnder q (ColumnIndex.build b).2 ++ issuesUnder q [duplicatePage (pagePath i) p.name] := by
  rw [issuesUnder_book hq.ofIndex, issues_pages]
  refine congrArg (issuesUnder q (ColumnIndex.build b).2 ++ ·) ?_
  refine issuesUnder_flatMap_of_getElem? (getElem?_repeatsAt_of_not_first hp h) hq _ ?_
  rintro ⟨i, p, _ | _⟩ issue hissue
  · exact page_under _ _ _ _ _ _ issue hissue
  · rw [List.mem_singleton.1 hissue]
    exact (Issue.Under.processing _ _).ofKey

/-- Under a group that is kept a page reports what the group reports. -/
theorem KeptGroup.issuesUnder_page (g : KeptGroup b) (hq : g.path.Within q) :
    issuesUnder q (g.toKeptPage.work options).issues = issuesUnder q (g.work options).issues := by
  rw [g.toKeptPage.issuesUnder_work options hq.ofIndex,
    Compile.issuesUnder_groups _ _ _ _ _ _ g.firstGroup hq]
  rfl

/-- Under a group that repeats a name a page that is kept reports that and nothing else. -/
theorem KeptPage.issuesUnder_repeatedGroup (p : KeptPage b) {j : Nat} {g : Group}
    (hg : p.page.groups[j]? = some g) (h : ¬FirstOfName Group.name p.page.groups j g)
    (hq : ((p.path.key "groups").index j).Within q) :
    issuesUnder q (p.work options).issues =
      issuesUnder q [Compile.duplicateGroup ((p.path.key "groups").index j) p.page.name g.name] := by
  rw [p.issuesUnder_work options hq.ofIndex, Compile.issues_groups]
  refine Compile.issuesUnder_flatMap_of_getElem? (getElem?_repeatsAt_of_not_first hg h) hq _ ?_
  rintro ⟨j, g, _ | _⟩ issue hissue
  · exact Compile.group_under _ _ _ _ _ _ _ issue hissue
  · rw [List.mem_singleton.1 hissue]
    exact (Issue.Under.processing _ _).ofKey

/-- Under a column that is kept a group reports what the column reports. -/
theorem KeptColumn.issuesUnder_group (c : KeptColumn b) (hq : c.path.Within q) :
    issuesUnder q (c.toKeptGroup.work options).issues = issuesUnder q (c.work options).issues := by
  rw [c.toKeptGroup.issuesUnder_work options hq.ofIndex,
    Compile.issuesUnder_columns _ _ _ _ _ _ _ c.firstColumn hq]
  rfl

/-- Under a column that repeats a name a group that is kept reports nothing. -/
theorem KeptGroup.issuesUnder_repeatedColumn (g : KeptGroup b) {k : Nat} {c : Column}
    (hc : g.group.columns[k]? = some c) (h : ¬FirstOfName Column.name g.group.columns k c)
    (hq : ((g.path.key "columns").index k).Within q) : issuesUnder q (g.work options).issues = [] := by
  rw [g.issuesUnder_work options hq.ofIndex, Compile.issues_columns]
  refine Compile.issuesUnder_flatMap_of_getElem? (getElem?_repeatsAt_of_not_first hc h) hq _ ?_
  rintro ⟨k, c, _ | _⟩ issue hissue
  · exact Compile.column_under _ _ _ _ _ _ _ _ issue hissue
  · cases hissue

/-- A kept page reports nothing at its name. -/
theorem KeptPage.issuesUnder_name (p : KeptPage b) (hq : (p.path.key "name").Within q) :
    issuesUnder q (p.work options).issues = [] := by
  unfold work Compile.page
  simp only [Outcome.issues_bind, Outcome.issues_record, Outcome.issues_pure, List.nil_append,
    List.append_nil, issuesUnder_append]
  rw [(Compile.levelTheme_under _ _ _ _).issuesUnder_key hq (by decide),
    (Compile.groups_under _ _ _ _ _ _ _ _ _).issuesUnder_key hq (by decide), List.nil_append]

/-- A kept group reports nothing at its name. -/
theorem KeptGroup.issuesUnder_name (g : KeptGroup b) (hq : (g.path.key "name").Within q) :
    issuesUnder q (g.work options).issues = [] := by
  unfold work Compile.group
  simp only [Outcome.issues_bind, Outcome.issues_record, Outcome.issues_pure, List.nil_append,
    List.append_nil, issuesUnder_append]
  rw [(Compile.levelTheme_under _ _ _ _).issuesUnder_key hq (by decide),
    (Compile.columns_under _ _ _ _ _ _ _ _ _ _).issuesUnder_key hq (by decide), List.nil_append]

/-- A kept column reports nothing at its name. -/
theorem KeptColumn.issuesUnder_name (c : KeptColumn b) (hq : (c.path.key "name").Within q) :
    issuesUnder q (c.work options).issues = [] := by
  have htype : (c.behaviorWork options).Under (c.path.key "type") := Compile.behavior_under _ _ _
  have hvalue : c.valueWork.Under (c.path.key "value") := .forOption (Compile.value_under _ _) _
  rw [c.issues_work, issuesUnder_append, issuesUnder_append,
    (Compile.levelTheme_under _ _ _ _).issuesUnder_key hq (by decide),
    htype.issuesUnder_key hq (by decide), hvalue.issuesUnder_key hq (by decide), List.nil_append,
    List.nil_append]

/-- An issue about a repeated name stands at the name. -/
theorem Issue.RepeatAt.issuesUnder {path : Path} {i : Issue} (h : i.RepeatAt path) :
    issuesUnder (path.key "name") [i] = [i] :=
  issuesUnder_of_all fun _ hj => List.mem_singleton.1 hj ▸ h.under

/-- An issue about a repeated name does not stand under another member of the part. -/
theorem Issue.RepeatAt.issuesUnder_key {path : Path} {i : Issue} {member : String} (h : i.RepeatAt path)
    (hq : (path.key member).Within q) (hne : member ≠ "name") : Workbook.issuesUnder q [i] = [] :=
  issuesUnder_of_none fun _ hj hunder =>
    hne ((hunder.within hq).key_inj (List.mem_singleton.1 hj ▸ h.under))

/-- At the name of a page a compilation reports whether the page repeats a name. -/
theorem Compile.issuesUnder_pageName {i : Nat} {p : Page} (hp : b.pages[i]? = some p) :
    (FirstOfName Page.name b.pages i p ∧
      issuesUnder ((pagePath i).key "name") (book options b).issues = []) ∨
    (¬FirstOfName Page.name b.pages i p ∧
      issuesUnder ((pagePath i).key "name") (book options b).issues =
        [duplicatePage (pagePath i) p.name]) := by
  have hq : (pagePath i).Within ((pagePath i).key "name") := (Path.Within.refl _).ofKey
  have hindex : issuesUnder ((pagePath i).key "name") (ColumnIndex.build b).2 = [] := by
    refine ColumnIndex.issuesUnder_build_of_name fun i' j k issue hcolumn hname => ?_
    have hgroups : issue.Under ((pagePath i').key "groups") := hcolumn.ofKey.ofIndex.ofKey.ofIndex
    have hi : i' = i := hgroups.ofKey.index_inj hname.ofKey
    subst hi
    exact absurd (hgroups.key_inj hname) (by decide)
  by_cases hfirst : FirstOfName Page.name b.pages i p
  · let kept : KeptPage b := ⟨i, p, hfirst⟩
    refine .inl ⟨hfirst, ?_⟩
    rw [kept.issuesUnder_book hq, hindex, List.nil_append]
    exact kept.issuesUnder_name (.refl _)
  · refine .inr ⟨hfirst, ?_⟩
    rw [issuesUnder_repeatedPage hp hfirst hq, hindex, (Issue.RepeatAt.page _ _).issuesUnder,
      List.nil_append]

/-- At the name of a group a compilation reports whether the group repeats a name on a page that is kept. -/
theorem Compile.issuesUnder_groupName {i j : Nat} {p : Page} {g : Group} (hp : b.pages[i]? = some p)
    (hg : p.groups[j]? = some g) :
    (¬(FirstOfName Page.name b.pages i p ∧ ¬FirstOfName Group.name p.groups j g) ∧
      issuesUnder ((groupPath i j).key "name") (book options b).issues = []) ∨
    ((FirstOfName Page.name b.pages i p ∧ ¬FirstOfName Group.name p.groups j g) ∧
      issuesUnder ((groupPath i j).key "name") (book options b).issues =
        [duplicateGroup (groupPath i j) p.name g.name]) := by
  have hq : (groupPath i j).Within ((groupPath i j).key "name") := (Path.Within.refl _).ofKey
  have hgroups : ((pagePath i).key "groups").Within ((groupPath i j).key "name") := hq.ofIndex
  have hindex : issuesUnder ((groupPath i j).key "name") (ColumnIndex.build b).2 = [] := by
    refine ColumnIndex.issuesUnder_build_of_name fun i' j' k issue hcolumn hname => ?_
    have hcolumns : issue.Under ((groupPath i' j').key "columns") := hcolumn.ofKey.ofIndex
    have hi : i' = i := hcolumns.ofKey.ofIndex.ofKey.index_inj hname.ofKey.ofIndex.ofKey
    subst hi
    have hj : j' = j := hcolumns.ofKey.index_inj hname.ofKey
    subst hj
    exact absurd (hcolumns.key_inj hname) (by decide)
  by_cases hpage : FirstOfName Page.name b.pages i p
  · let page : KeptPage b := ⟨i, p, hpage⟩
    rw [page.issuesUnder_book hgroups.ofKey, hindex, List.nil_append]
    by_cases hgroup : FirstOfName Group.name p.groups j g
    · let kept : KeptGroup b := ⟨page, j, g, hgroup⟩
      refine .inl ⟨fun h => h.2 hgroup, ?_⟩
      exact (kept.issuesUnder_page hq).trans (kept.issuesUnder_name (.refl _))
    · refine .inr ⟨⟨hpage, hgroup⟩, ?_⟩
      exact (page.issuesUnder_repeatedGroup hg hgroup hq).trans (Issue.RepeatAt.group _ _ _).issuesUnder
  · refine .inl ⟨fun h => hpage h.1, ?_⟩
    rw [issuesUnder_repeatedPage hp hpage hgroups.ofKey, hindex,
      (Issue.RepeatAt.page _ _).issuesUnder_key hgroups (by decide), List.nil_append]

/-- At the name of a column a compilation reports what the index reports there. -/
theorem Compile.issuesUnder_columnName {i j k : Nat} {p : Page} {g : Group} {c : Column}
    (hp : b.pages[i]? = some p) (hg : p.groups[j]? = some g) (hc : g.columns[k]? = some c) :
    issuesUnder ((columnPath i j k).key "name") (book options b).issues =
      issuesUnder ((columnPath i j k).key "name") (ColumnIndex.build b).2 := by
  have hq : (columnPath i j k).Within ((columnPath i j k).key "name") := (Path.Within.refl _).ofKey
  have hcolumns : ((groupPath i j).key "columns").Within ((columnPath i j k).key "name") := hq.ofIndex
  have hgroups : ((pagePath i).key "groups").Within ((columnPath i j k).key "name") := hcolumns.ofKey.ofIndex
  by_cases hpage : FirstOfName Page.name b.pages i p
  · let page : KeptPage b := ⟨i, p, hpage⟩
    suffices hwork : issuesUnder ((columnPath i j k).key "name") (page.work options).issues = [] by
      rw [page.issuesUnder_book hgroups.ofKey, hwork, List.append_nil]
    by_cases hgroup : FirstOfName Group.name p.groups j g
    · let group : KeptGroup b := ⟨page, j, g, hgroup⟩
      refine (group.issuesUnder_page hcolumns.ofKey).trans ?_
      by_cases hcolumn : FirstOfName Column.name g.columns k c
      · let kept : KeptColumn b := ⟨group, k, c, hcolumn⟩
        exact (kept.issuesUnder_group hq).trans (kept.issuesUnder_name (.refl _))
      · exact group.issuesUnder_repeatedColumn hc hcolumn hq
    · exact (page.issuesUnder_repeatedGroup hg hgroup hcolumns.ofKey).trans
        ((Issue.RepeatAt.group _ _ _).issuesUnder_key hcolumns (by decide))
  · rw [issuesUnder_repeatedPage hp hpage hgroups.ofKey,
      (Issue.RepeatAt.page _ _).issuesUnder_key hgroups (by decide), List.append_nil]

end Names

/-! ## Names that are reported once -/

/-- A name is reported once as a repeated one, or not at all if it is not. -/
def ReportedOnce (issues : List Issue) (path : Path) (repeated : Prop) : Prop :=
  (repeated ∧ ∃ i, issues.filter (·.RepeatAt path) = [i]) ∨
    (¬repeated ∧ issues.filter (·.RepeatAt path) = [])

namespace ReportedOnce

variable {issues : List Issue} {path : Path} {repeated : Prop}

/-- It is enough to look at the issues that stand at the name. -/
theorem of_issuesUnder {i : Issue} (hi : i.RepeatAt path)
    (h : (¬repeated ∧ issuesUnder (path.key "name") issues = []) ∨
      (repeated ∧ issuesUnder (path.key "name") issues = [i])) : ReportedOnce issues path repeated := by
  have hfilter : issues.filter (·.RepeatAt path) =
      (issuesUnder (path.key "name") issues).filter (·.RepeatAt path) := by
    rw [issuesUnder, List.filter_filter]
    refine List.filter_congr fun issue _ => ?_
    by_cases hrepeat : issue.RepeatAt path
    · simp [hrepeat, Issue.standsUnder_iff.2 hrepeat.under]
    · simp [hrepeat]
  obtain ⟨hfresh, hnone⟩ | ⟨hagain, hone⟩ := h
  · exact .inr ⟨hfresh, by rw [hfilter, hnone, List.filter_nil]⟩
  · exact .inl ⟨hagain, i, by rw [hfilter, hone]; simp [hi]⟩

/-- No name is reported twice. -/
theorem countP_le (h : ReportedOnce issues path repeated) : issues.countP (·.RepeatAt path) ≤ 1 := by
  rw [List.countP_eq_length_filter]
  obtain ⟨_, i, hone⟩ | ⟨_, hnone⟩ := h
  · rw [hone]
    exact Nat.le_refl 1
  · rw [hnone]
    exact Nat.zero_le 1

/-- A name is reported exactly if it is a repeated one. -/
theorem forall_iff (h : ReportedOnce issues path repeated) :
    (∀ i ∈ issues, ¬i.RepeatAt path) ↔ ¬repeated := by
  have hnone : (∀ i ∈ issues, ¬i.RepeatAt path) ↔ issues.filter (·.RepeatAt path) = [] := by
    rw [List.filter_eq_nil_iff]
    simp only [decide_eq_true_eq]
  rw [hnone]
  obtain ⟨hagain, i, hone⟩ | ⟨hfresh, hnil⟩ := h
  · rw [hone]
    exact ⟨fun hcons => absurd hcons (List.cons_ne_nil _ _), fun hnot => absurd hagain hnot⟩
  · exact ⟨fun _ => hfresh, fun _ => hnil⟩

end ReportedOnce

namespace Compile

variable (options : CompileOptions) {b : Book} {i j k : Nat} {p : Page} {g : Group} {c : Column}

/-- The name of a page is reported once, if it is not the first of its name. -/
theorem reportedOnce_page (hp : b.pages[i]? = some p) :
    ReportedOnce (book options b).issues (pagePath i) (¬FirstOfName Page.name b.pages i p) := by
  refine .of_issuesUnder (Issue.RepeatAt.page _ p.name) ?_
  rw [not_not]
  exact issuesUnder_pageName hp

/-- The name of a group is reported once, if it is not the first of its name on a page that is kept. -/
theorem reportedOnce_group (hp : b.pages[i]? = some p) (hg : p.groups[j]? = some g) :
    ReportedOnce (book options b).issues (groupPath i j)
      (FirstOfName Page.name b.pages i p ∧ ¬FirstOfName Group.name p.groups j g) :=
  .of_issuesUnder (Issue.RepeatAt.group _ _ _) (issuesUnder_groupName hp hg)

/-- The name of a column is reported once, if an earlier column has the same key. -/
theorem reportedOnce_column (hp : b.pages[i]? = some p) (hg : p.groups[j]? = some g)
    (hc : g.columns[k]? = some c) :
    ReportedOnce (book options b).issues (columnPath i j k)
      (⟨p.name, g.name, c.name⟩ ∈ (b.cellsBefore i j k p g).map Prod.snd) := by
  obtain ⟨o, hpath, hissues⟩ := ColumnIndex.issuesUnder_build_name hp hg hc
  have hrepeat : (ColumnIndex.duplicate o).RepeatAt (columnPath i j k) := hpath ▸ Issue.RepeatAt.column o
  refine .of_issuesUnder hrepeat ?_
  rw [issuesUnder_columnName hp hg hc, hissues]
  by_cases hkey : ⟨p.name, g.name, c.name⟩ ∈ (b.cellsBefore i j k p g).map Prod.snd
  · exact .inr ⟨hkey, if_pos hkey⟩
  · exact .inl ⟨hkey, if_neg hkey⟩

end Compile

/-! ## Parts of the output by the numbers of what they are made from -/

section Parts

variable {α β : Type} {name : α → String} {as : List α} {n : Nat}

/-- The part of the output that the item with a number becomes, if it is kept: the kept items become the
parts in their order. -/
def partOf? (name : α → String) (as : List α) (parts : List β) (n : Nat) : Option β :=
  (((keptAt name [] 0 as).map Prod.fst).zip parts).lookup n

/-- Items that become one part each, and the parts side by side. -/
theorem zip_flatMap_toList {kept : List (Nat × α)} {f : Nat × α → Option β}
    (hf : ∀ x ∈ kept, (f x).isSome) :
    (kept.map Prod.fst).zip (kept.flatMap fun x => (f x).toList) =
      kept.filterMap fun x => (f x).map (x.1, ·) := by
  induction kept with
  | nil => rfl
  | cons x rest ih =>
    obtain ⟨part, hpart⟩ := Option.isSome_iff_exists.1 (hf x List.mem_cons_self)
    have hrest := ih fun y hy => hf y (List.mem_cons_of_mem x hy)
    rw [List.map_cons, List.flatMap_cons, List.filterMap_cons, hpart, Option.map_some,
      Option.toList_some, List.singleton_append, List.zip_cons_cons, hrest]

/-- Looking up all numbers in their order finds the parts in their order. -/
theorem filterMap_lookup_keptAt {seen : List String} {k : Nat} {f : Nat × α → Option β}
    (hf : ∀ x ∈ keptAt name seen k as, (f x).isSome) :
    ((List.range' k as.length).filterMap fun n =>
      ((keptAt name seen k as).filterMap fun x => (f x).map (x.1, ·)).lookup n) =
      (keptAt name seen k as).flatMap fun x => (f x).toList := by
  induction as generalizing seen k with
  | nil => rfl
  | cons a rest ih =>
    have hrange : List.range' k (a :: rest).length = k :: List.range' (k + 1) rest.length :=
      List.range'_succ
    rw [keptAt] at hf ⊢
    rw [hrange, List.filterMap_cons]
    split at hf
    · rename_i again
      rw [if_pos again, ih hf]
      have habsent : ((keptAt name seen (k + 1) rest).filterMap fun x =>
          (f x).map (x.1, ·)).lookup k = none := by
        rw [List.lookup_eq_none_iff]
        intro e he
        obtain ⟨x, hx, hfx⟩ := List.mem_filterMap.1 he
        obtain ⟨_, _, rfl⟩ := Option.map_eq_some_iff.1 hfx
        have hlater := (firstOfName_of_mem_keptAt hx).1
        simp only [bne_iff_ne]
        omega
      rw [habsent]
    · rename_i fresh
      rw [if_neg fresh]
      obtain ⟨part, hpart⟩ := Option.isSome_iff_exists.1 (hf (k, a) List.mem_cons_self)
      have hrest := ih fun x hx => hf x (List.mem_cons_of_mem _ hx)
      rw [List.filterMap_cons, hpart, Option.map_some, List.lookup_cons_self, List.flatMap_cons, hpart,
        Option.toList_some, List.singleton_append, ← hrest]
      refine congrArg (part :: ·) (List.filterMap_congr fun n hn => ?_)
      have hlater : k + 1 ≤ n := (List.mem_range'_1.1 hn).1
      rw [List.lookup_cons, beq_false_of_ne (by omega)]

variable {f : Nat × α → Option β}

/-- The parts are those that the numbers become, in their order. -/
theorem filterMap_partOf? (hf : ∀ x ∈ keptAt name [] 0 as, (f x).isSome) :
    (List.range as.length).filterMap
      (partOf? name as ((keptAt name [] 0 as).flatMap fun x => (f x).toList)) =
      (keptAt name [] 0 as).flatMap fun x => (f x).toList := by
  have hlookup := filterMap_lookup_keptAt hf
  rwa [← zip_flatMap_toList hf, ← List.range_eq_range'] at hlookup

/-- A number becomes a part if its item is the first one of its name. -/
theorem partOf?_eq_some (hf : ∀ x ∈ keptAt name [] 0 as, (f x).isSome) {part : β} :
    partOf? name as ((keptAt name [] 0 as).flatMap fun x => (f x).toList) n = some part ↔
      ∃ a, FirstOfName name as n a ∧ f (n, a) = some part := by
  have hfound {made : β} (h : ((keptAt name [] 0 as).filterMap fun x =>
      (f x).map (x.1, ·)).lookup n = some made) : ∃ a, FirstOfName name as n a ∧ f (n, a) = some made := by
    obtain ⟨⟨m, a⟩, hx, hmade⟩ := List.mem_filterMap.1 (mem_of_lookup h)
    obtain ⟨_, hfx, heq⟩ := Option.map_eq_some_iff.1 hmade
    cases heq
    exact ⟨a, (firstOfName_of_mem_keptAt hx).2.1, hfx⟩
  rw [partOf?, zip_flatMap_toList hf]
  refine ⟨hfound, ?_⟩
  rintro ⟨a, hfirst, hpart⟩
  cases hlookup : ((keptAt name [] 0 as).filterMap fun x => (f x).map (x.1, ·)).lookup n with
  | none =>
    have hmem : (n, part) ∈ (keptAt name [] 0 as).filterMap fun x => (f x).map (x.1, ·) :=
      List.mem_filterMap.2 ⟨(n, a), hfirst.mem_keptAt, by rw [hpart]; rfl⟩
    have hne := List.lookup_eq_none_iff.1 hlookup _ hmem
    simp at hne
  | some made =>
    obtain ⟨a', hfirst', hmade⟩ := hfound hlookup
    obtain rfl := hfirst'.eq hfirst.item
    rw [← hmade, hpart]

end Parts

/-- The group of the output that the group with the numbers becomes, if it and its page are kept. -/
def Compilation.groupOf? (options : CompileOptions) (b : Book) (i j : Nat) : Option SheetGroup := do
  let page ← b.pages[i]?
  let sheet ← pageOf? options b i
  partOf? Group.name page.groups sheet.groups j

/-- The column of the output that the column with the numbers becomes, if it, its group and its page are
kept. -/
def Compilation.columnOf? (options : CompileOptions) (b : Book) (i j k : Nat) : Option SheetColumn := do
  let page ← b.pages[i]?
  let group ← page.groups[j]?
  let sheet ← groupOf? options b i j
  partOf? Column.name group.columns sheet.columns k

section Emitted

variable {options : CompileOptions} {b : Book}

/-- The groups of a page of the output are those that the kept groups of the page become. -/
theorem KeptPage.groups_work (p : KeptPage b) : (p.work options).value.groups =
    (keptAt Group.name [] 0 p.page.groups).flatMap fun x => (some (Compile.group (ColumnIndex.firstSeen b)
      p.page.name (p.scope options) (p.sheetTheme options) (p.site ++ [x.1])
      ((p.path.key "groups").index x.1) x.2).value).toList := by
  change (Compile.groups _ _ _ _ _ _ [] 0 p.page.groups).value = _
  rw [Compile.value_groups, List.map_eq_flatMap]
  rfl

/-- The columns of a group of the output are those that the kept columns of the group become. -/
theorem KeptGroup.columns_work (g : KeptGroup b) : (g.work options).value.columns =
    (keptAt Column.name [] 0 g.group.columns).flatMap fun x => (Compile.column (ColumnIndex.firstSeen b)
      g.page.name g.group.name (g.scope options) (g.sheetTheme options) (g.site ++ [x.1])
      ((g.path.key "columns").index x.1) x.2).value.toList :=
  Compile.value_columns _ _ _ _ _ _ _ _ _ _

/-- Every kept column of a group becomes a column. -/
theorem KeptGroup.isSome_column (g : KeptGroup b) : ∀ x ∈ keptAt Column.name [] 0 g.group.columns,
    (Compile.column (ColumnIndex.firstSeen b) g.page.name g.group.name (g.scope options)
      (g.sheetTheme options) (g.site ++ [x.1]) ((g.path.key "columns").index x.1) x.2).value.isSome := by
  rintro ⟨k, c⟩ hx
  let kept : KeptColumn b := ⟨g, k, c, (firstOfName_of_mem_keptAt hx).2.1⟩
  exact Option.isSome_iff_exists.2 ⟨_, kept.value_work options⟩

namespace Compilation

/-- The pages of the output are those that pages of the book become, in their order. -/
theorem filterMap_pageOf? :
    (List.range b.pages.length).filterMap (pageOf? options b) = (compile options b).book.pages := by
  have hpages : (compile options b).book.pages = (keptAt Page.name [] 0 b.pages).flatMap fun x =>
      (some (Compile.page (ColumnIndex.firstSeen b) (b.scope options) (b.sheetTheme options) [x.1]
        ((Path.root.key "pages").index x.1) x.2).value).toList := by
    change (Compile.pages _ _ _ _ [] 0 b.pages).value = _
    rw [Compile.value_pages, List.map_eq_flatMap]
    rfl
  have hparts : pageOf? options b = partOf? Page.name b.pages (compile options b).book.pages := rfl
  rw [hparts, hpages]
  exact filterMap_partOf? fun _ _ => rfl

/-- A page becomes a page if it is kept. -/
theorem isSome_pageOf? {i : Nat} {p : Page} (hp : b.pages[i]? = some p) :
    (pageOf? options b i).isSome ↔ FirstOfName Page.name b.pages i p := by
  rw [Option.isSome_iff_exists]
  constructor
  · rintro ⟨sheet, hsheet⟩
    obtain ⟨q, rfl, _⟩ := pageOf?_eq_some.1 hsheet
    obtain rfl := q.firstPage.eq hp
    exact q.firstPage
  · exact fun hfirst => ⟨_, pageOf?_eq_some.2 ⟨⟨i, p, hfirst⟩, rfl, rfl⟩⟩

/-- Groups of a kept page become those of the page that it becomes. -/
theorem groupOf?_of_kept (p : KeptPage b) :
    groupOf? options b p.pageNumber = partOf? Group.name p.page.groups (p.work options).value.groups := by
  funext j
  have hsheet : pageOf? options b p.pageNumber = some (p.work options).value :=
    pageOf?_eq_some.2 ⟨p, rfl, rfl⟩
  simp only [groupOf?, p.firstPage.item, hsheet, Option.bind_eq_bind, Option.bind_some]

/-- What a group becomes is what the work on it makes, and only kept groups become something. -/
theorem groupOf?_eq_some {i j : Nat} {sheet : SheetGroup} : groupOf? options b i j = some sheet ↔
    ∃ g : KeptGroup b, g.pageNumber = i ∧ g.groupNumber = j ∧ (g.work options).value = sheet := by
  constructor
  · intro h
    have hpage : ∃ page, pageOf? options b i = some page := by
      cases hpage : pageOf? options b i with
      | none => simp [groupOf?, hpage] at h
      | some page => exact ⟨page, rfl⟩
    obtain ⟨page, hpage⟩ := hpage
    obtain ⟨p, rfl, rfl⟩ := pageOf?_eq_some.1 hpage
    rw [groupOf?_of_kept, p.groups_work, partOf?_eq_some fun _ _ => rfl] at h
    obtain ⟨g, hfirst, hgroup⟩ := h
    exact ⟨⟨p, j, g, hfirst⟩, rfl, rfl, Option.some.inj hgroup⟩
  · rintro ⟨g, rfl, rfl, rfl⟩
    rw [groupOf?_of_kept, g.toKeptPage.groups_work, partOf?_eq_some fun _ _ => rfl]
    exact ⟨g.group, g.firstGroup, rfl⟩

/-- Columns of a kept group become those of the group that it becomes. -/
theorem columnOf?_of_kept (g : KeptGroup b) : columnOf? options b g.pageNumber g.groupNumber =
    partOf? Column.name g.group.columns (g.work options).value.columns := by
  funext k
  have hsheet : groupOf? options b g.pageNumber g.groupNumber = some (g.work options).value :=
    groupOf?_eq_some.2 ⟨g, rfl, rfl, rfl⟩
  simp only [columnOf?, g.firstPage.item, g.firstGroup.item, hsheet, Option.bind_eq_bind,
    Option.bind_some]

/-- What a column becomes is what the work on it makes, and only kept columns become something. -/
theorem columnOf?_eq_some {i j k : Nat} {sheet : SheetColumn} : columnOf? options b i j k = some sheet ↔
    ∃ c : KeptColumn b, c.pageNumber = i ∧ c.groupNumber = j ∧ c.columnNumber = k ∧
      c.sheet options = sheet := by
  constructor
  · intro h
    have hgroup : ∃ group, groupOf? options b i j = some group := by
      cases hgroup : groupOf? options b i j with
      | none => simp [columnOf?, hgroup] at h
      | some group => exact ⟨group, rfl⟩
    obtain ⟨group, hgroup⟩ := hgroup
    obtain ⟨g, rfl, rfl, rfl⟩ := groupOf?_eq_some.1 hgroup
    rw [columnOf?_of_kept, g.columns_work, partOf?_eq_some g.isSome_column] at h
    obtain ⟨c, hfirst, hcolumn⟩ := h
    let kept : KeptColumn b := ⟨g, k, c, hfirst⟩
    exact ⟨kept, rfl, rfl, rfl, Option.some.inj ((kept.value_work options).symm.trans hcolumn)⟩
  · rintro ⟨c, rfl, rfl, rfl, rfl⟩
    rw [columnOf?_of_kept, c.toKeptGroup.columns_work, partOf?_eq_some c.toKeptGroup.isSome_column]
    exact ⟨c.column, c.firstColumn, c.value_work options⟩

/-- A group becomes a group if it and its page are kept. -/
theorem isSome_groupOf? {i j : Nat} {p : Page} {g : Group} (hp : b.pages[i]? = some p)
    (hg : p.groups[j]? = some g) : (groupOf? options b i j).isSome ↔
      FirstOfName Page.name b.pages i p ∧ FirstOfName Group.name p.groups j g := by
  rw [Option.isSome_iff_exists]
  constructor
  · rintro ⟨sheet, hsheet⟩
    obtain ⟨q, rfl, rfl, _⟩ := groupOf?_eq_some.1 hsheet
    obtain rfl := q.firstPage.eq hp
    obtain rfl := q.firstGroup.eq hg
    exact ⟨q.firstPage, q.firstGroup⟩
  · exact fun ⟨hpage, hgroup⟩ => ⟨_, groupOf?_eq_some.2 ⟨⟨⟨i, p, hpage⟩, j, g, hgroup⟩, rfl, rfl, rfl⟩⟩

/-- A column becomes a column if it, its group and its page are kept. -/
theorem isSome_columnOf? {i j k : Nat} {p : Page} {g : Group} {c : Column} (hp : b.pages[i]? = some p)
    (hg : p.groups[j]? = some g) (hc : g.columns[k]? = some c) : (columnOf? options b i j k).isSome ↔
      FirstOfName Page.name b.pages i p ∧ FirstOfName Group.name p.groups j g ∧
        FirstOfName Column.name g.columns k c := by
  rw [Option.isSome_iff_exists]
  constructor
  · rintro ⟨sheet, hsheet⟩
    obtain ⟨q, rfl, rfl, rfl, _⟩ := columnOf?_eq_some.1 hsheet
    obtain rfl := q.firstPage.eq hp
    obtain rfl := q.firstGroup.eq hg
    obtain rfl := q.firstColumn.eq hc
    exact ⟨q.firstPage, q.firstGroup, q.firstColumn⟩
  · rintro ⟨hpage, hgroup, hcolumn⟩
    exact ⟨_, columnOf?_eq_some.2 ⟨⟨⟨⟨i, p, hpage⟩, j, g, hgroup⟩, k, c, hcolumn⟩, rfl, rfl, rfl, rfl⟩⟩

end Compilation

end Emitted

/-! ## What is left out is reported -/

/-- A page, a group or a column of a book stands at a path. -/
inductive Book.PartAt (b : Book) : Path → Prop
  | page {i : Nat} {p : Page} (hp : b.pages[i]? = some p) : PartAt b (pagePath i)
  | group {i j : Nat} {p : Page} {g : Group} (hp : b.pages[i]? = some p) (hg : p.groups[j]? = some g) :
    PartAt b (groupPath i j)
  | column {i j k : Nat} {p : Page} {g : Group} {c : Column} (hp : b.pages[i]? = some p)
    (hg : p.groups[j]? = some g) (hc : g.columns[k]? = some c) : PartAt b (columnPath i j k)

/-- No issue says that the part at a path repeats a name. -/
def Compilation.Unrepeated (c : Compilation) (path : Path) : Prop := ∀ i ∈ c.issues, ¬i.RepeatAt path

namespace Compilation

variable {options : CompileOptions} {b : Book} {i j k : Nat} {p : Page} {g : Group} {c : Column}

/-- The name of a page is not reported exactly if the page is kept. -/
theorem unrepeated_page_iff (hp : b.pages[i]? = some p) :
    (compile options b).Unrepeated (pagePath i) ↔ FirstOfName Page.name b.pages i p :=
  (Compile.reportedOnce_page options hp).forall_iff.trans not_not

/-- Neither the name of a group nor that of its page is reported exactly if both are kept. -/
theorem unrepeated_group_iff (hp : b.pages[i]? = some p) (hg : p.groups[j]? = some g) :
    (compile options b).Unrepeated (groupPath i j) ∧ (compile options b).Unrepeated (pagePath i) ↔
      FirstOfName Page.name b.pages i p ∧ FirstOfName Group.name p.groups j g := by
  have hgroup := (Compile.reportedOnce_group options hp hg).forall_iff
  rw [unrepeated_page_iff hp]
  constructor
  · exact fun ⟨hg, hpage⟩ => ⟨hpage, not_not.1 fun hagain => hgroup.1 hg ⟨hpage, hagain⟩⟩
  · exact fun ⟨hpage, hfirst⟩ => ⟨hgroup.2 fun h => h.2 hfirst, hpage⟩

/-- None of the names of a column, its group and its page is reported exactly if all of them are kept: a
column that is not the first of its name in a kept group has an earlier column of its key there, and a column
of a kept group that is the first of its name has none anywhere. -/
theorem unrepeated_column_iff (hp : b.pages[i]? = some p) (hg : p.groups[j]? = some g)
    (hc : g.columns[k]? = some c) :
    (compile options b).Unrepeated (columnPath i j k) ∧ (compile options b).Unrepeated (groupPath i j) ∧
        (compile options b).Unrepeated (pagePath i) ↔
      FirstOfName Page.name b.pages i p ∧ FirstOfName Group.name p.groups j g ∧
        FirstOfName Column.name g.columns k c := by
  have hcolumn := (Compile.reportedOnce_column options hp hg hc).forall_iff
  rw [unrepeated_group_iff hp hg]
  constructor
  · rintro ⟨hown, hpage, hgroup⟩
    exact ⟨hpage, hgroup, not_not.1 fun hagain => hcolumn.1 hown (Book.mem_keysBefore_of_not_first hc hagain)⟩
  · rintro ⟨hpage, hgroup, hfirst⟩
    exact ⟨hcolumn.2 (Book.not_mem_keysBefore hpage hgroup hfirst), hpage, hgroup⟩

end Compilation

/-- The parts that a compilation emits are those whose names are not reported as repeated ones. -/
structure Compilation.EmitsUnrepeated (options : CompileOptions) (b : Book) : Prop where
  /-- The pages of the output are those that pages of the book become, in their order. -/
  pages : (List.range b.pages.length).filterMap (pageOf? options b) = (compile options b).book.pages
  /-- So are the groups of a page of the output. -/
  groups : ∀ i p sheet, b.pages[i]? = some p → pageOf? options b i = some sheet →
    (List.range p.groups.length).filterMap (groupOf? options b i) = sheet.groups
  /-- So are the columns of a group of the output. -/
  columns : ∀ i j p g sheet, b.pages[i]? = some p → p.groups[j]? = some g →
    groupOf? options b i j = some sheet →
    (List.range g.columns.length).filterMap (columnOf? options b i j) = sheet.columns
  /-- The page that a page of the book becomes is the one that has its name as the title. -/
  pageNamed : ∀ i p sheet, b.pages[i]? = some p → pageOf? options b i = some sheet →
    (compile options b).book.page? p.name = some sheet
  /-- The group that a group of the book becomes is the one under its name and that of its page. -/
  groupNamed : ∀ i j p g sheet, b.pages[i]? = some p → p.groups[j]? = some g →
    groupOf? options b i j = some sheet → (compile options b).book.group? p.name g.name = some sheet
  /-- The column that a column of the book becomes is the one under its name and those of its group and its
  page. -/
  columnNamed : ∀ i j k p g c sheet, b.pages[i]? = some p → p.groups[j]? = some g →
    g.columns[k]? = some c → columnOf? options b i j k = some sheet →
    (compile options b).book.column? ⟨p.name, g.name, c.name⟩ = some sheet
  /-- A page is emitted if its name is not reported. -/
  page : ∀ i p, b.pages[i]? = some p →
    ((pageOf? options b i).isSome ↔ (compile options b).Unrepeated (pagePath i))
  /-- A group is emitted if neither its name nor that of its page is reported. -/
  group : ∀ i j p g, b.pages[i]? = some p → p.groups[j]? = some g →
    ((groupOf? options b i j).isSome ↔
      (compile options b).Unrepeated (groupPath i j) ∧ (compile options b).Unrepeated (pagePath i))
  /-- A column is emitted if neither its name nor those of its group and its page are reported. -/
  column : ∀ i j k p g c, b.pages[i]? = some p → p.groups[j]? = some g → g.columns[k]? = some c →
    ((columnOf? options b i j k).isSome ↔
      (compile options b).Unrepeated (columnPath i j k) ∧
        (compile options b).Unrepeated (groupPath i j) ∧ (compile options b).Unrepeated (pagePath i))
  /-- No name is reported twice. -/
  once : ∀ path, b.PartAt path → (compile options b).issues.countP (·.RepeatAt path) ≤ 1
  /-- Where names are different at every level, none is reported. -/
  distinct : b.Distinct → ∀ path, b.PartAt path → (compile options b).Unrepeated path

/-- A page, a group or a column of a book is emitted if and only if no issue says that its name, or that of
a part around it, is repeated; no name is reported twice, and none where no name is repeated. What is emitted
stands in the order of the book, under the names that it has there. -/
theorem emitted_iff_not_repeated (options : CompileOptions) (b : Book) :
    Compilation.EmitsUnrepeated options b where
  pages := Compilation.filterMap_pageOf?
  groups i p sheet hp hsheet := by
    obtain ⟨q, rfl, rfl⟩ := Compilation.pageOf?_eq_some.1 hsheet
    obtain rfl := q.firstPage.eq hp
    rw [Compilation.groupOf?_of_kept, q.groups_work]
    exact filterMap_partOf? fun _ _ => rfl
  columns i j p g sheet hp hg hsheet := by
    obtain ⟨q, rfl, rfl, rfl⟩ := Compilation.groupOf?_eq_some.1 hsheet
    obtain rfl := q.firstPage.eq hp
    obtain rfl := q.firstGroup.eq hg
    rw [Compilation.columnOf?_of_kept, q.columns_work]
    exact filterMap_partOf? q.isSome_column
  pageNamed i p sheet hp hsheet := by
    obtain ⟨q, rfl, rfl⟩ := Compilation.pageOf?_eq_some.1 hsheet
    obtain rfl := q.firstPage.eq hp
    exact q.page?_book options
  groupNamed i j p g sheet hp hg hsheet := by
    obtain ⟨q, rfl, rfl, rfl⟩ := Compilation.groupOf?_eq_some.1 hsheet
    obtain rfl := q.firstPage.eq hp
    obtain rfl := q.firstGroup.eq hg
    exact q.group?_book options
  columnNamed i j k p g c sheet hp hg hc hsheet := by
    obtain ⟨q, rfl, rfl, rfl, rfl⟩ := Compilation.columnOf?_eq_some.1 hsheet
    obtain rfl := q.firstPage.eq hp
    obtain rfl := q.firstGroup.eq hg
    obtain rfl := q.firstColumn.eq hc
    exact q.column?_book options
  page i p hp := (Compilation.isSome_pageOf? hp).trans (Compilation.unrepeated_page_iff hp).symm
  group i j p g hp hg := (Compilation.isSome_groupOf? hp hg).trans (Compilation.unrepeated_group_iff hp hg).symm
  column i j k p g c hp hg hc :=
    (Compilation.isSome_columnOf? hp hg hc).trans (Compilation.unrepeated_column_iff hp hg hc).symm
  once path hpath := by
    cases hpath with
    | page hp => exact (Compile.reportedOnce_page options hp).countP_le
    | group hp hg => exact (Compile.reportedOnce_group options hp hg).countP_le
    | column hp hg hc => exact (Compile.reportedOnce_column options hp hg hc).countP_le
  distinct h path hpath := by
    cases hpath with
    | page hp =>
      exact (Compile.reportedOnce_page options hp).forall_iff.2 (not_not.2 (.of_nodup h.pages hp))
    | group hp hg =>
      refine (Compile.reportedOnce_group options hp hg).forall_iff.2 fun hagain => hagain.2 ?_
      exact .of_nodup (h.groups _ (List.mem_of_getElem? hp)) hg
    | column hp hg hc =>
      exact (Compile.reportedOnce_column options hp hg hc).forall_iff.2 (h.not_mem_keysBefore hp hg hc)

end Workbook
