import Workbook.Proofs.Levels

/-!
# Repeated names are reported

Pages, groups and columns are left out when their name was seen before, and each time there is an issue. So
the names of a book that is compiled without issues are different at every level, everything in it is kept,
and the output has all its pages, groups and columns in their order.
-/

namespace Workbook

variable {α : Type}

/-! ## Lists without repeated names -/

/-- Items that repeat no name have different names, and none that was seen before. -/
theorem nodup_of_repeatsAt {name : α → String} {seen : List String} {k : Nat} {as : List α}
    (h : ∀ x ∈ repeatsAt name seen k as, x.2.2 = false) :
    (as.map name).Nodup ∧ ∀ a ∈ as, name a ∉ seen := by
  induction as generalizing seen k with
  | nil => exact ⟨List.nodup_nil, fun a ha => nomatch ha⟩
  | cons a rest ih =>
    rw [repeatsAt] at h
    split at h
    · cases h _ List.mem_cons_self
    · rename_i fresh
      obtain ⟨hnodup, hunseen⟩ := ih fun x hx => h x (List.mem_cons_of_mem _ hx)
      rw [List.map_cons, List.nodup_cons]
      refine ⟨⟨fun hmem => ?_, hnodup⟩, fun b hb => ?_⟩
      · obtain ⟨b, hb, hname⟩ := List.mem_map.1 hmem
        exact hunseen b hb (hname ▸ List.mem_cons_self)
      · obtain rfl | hb := List.mem_cons.1 hb
        · simpa using fresh
        · exact fun hs => hunseen b hb (List.mem_cons_of_mem _ hs)

/-- A list of different names is kept whole. -/
theorem keepFirst_of_nodup {name : α → String} {seen : List String} {as : List α}
    (hn : (as.map name).Nodup) (unseen : ∀ a ∈ as, name a ∉ seen) : keepFirst name seen as = as := by
  induction as generalizing seen with
  | nil => rfl
  | cons a rest ih =>
    rw [List.map_cons, List.nodup_cons] at hn
    have hfresh : name a ∉ seen := unseen a List.mem_cons_self
    rw [keepFirst, if_neg (by simpa using hfresh), ih hn.2]
    intro b hb hmem
    obtain hname | hmem := List.mem_cons.1 hmem
    · exact hn.1 (hname ▸ List.mem_map_of_mem hb)
    · exact unseen b (List.mem_cons_of_mem a hb) hmem

/-- A book whose names are different at every level is kept whole. -/
theorem Book.Distinct.kept_eq {b : Book} (h : b.Distinct) : b.kept = b := by
  have hpage : ∀ p ∈ b.pages, p.kept = p := by
    intro p hp
    have hgroup : ∀ g ∈ p.groups,
        ({ g with columns := keepFirst Column.name [] g.columns } : Group) = g := by
      intro g hg
      rw [keepFirst_of_nodup (h.columns p hp g hg) fun _ _ => List.not_mem_nil]
    rw [Page.kept, keepFirst_of_nodup (h.groups p hp) fun _ _ => List.not_mem_nil,
      List.map_congr_left hgroup, List.map_id']
  rw [kept, keepFirst_of_nodup h.pages fun _ _ => List.not_mem_nil, List.map_congr_left hpage,
    List.map_id']

/-! ## Repeated columns -/

namespace ColumnIndex

/-- A key that is set has its new placement, and the others have theirs. -/
theorem lookup_set (key other : ColumnKey) (placement : Placement)
    (entries : List (ColumnKey × Placement)) :
    (set key placement entries).lookup other =
      if other = key then some placement else entries.lookup other := by
  induction entries with
  | nil =>
    rw [set, List.lookup_cons]
    by_cases ho : other = key
    · simp [ho]
    · simp [beq_false_of_ne ho, ho]
  | cons e rest ih =>
    obtain ⟨k, p⟩ := e
    rw [set]
    by_cases hk : k = key
    · rw [if_pos hk, List.lookup_cons, List.lookup_cons, hk]
      by_cases ho : other = key
      · simp [ho]
      · simp [beq_false_of_ne ho, ho]
    · rw [if_neg hk, List.lookup_cons, List.lookup_cons, ih]
      by_cases ho : other = k
      · simp [ho, hk]
      · simp [beq_false_of_ne ho]

/-- An index with a new placement of a key. -/
theorem get?_insert (index : ColumnIndex) (key other : ColumnKey) (placement : Placement) :
    (index.insert key placement).get? other = if other = key then some placement else index.get? other :=
  lookup_set key other placement index.entries

/-- Columns that are indexed without an issue have different keys, and none that was there before. -/
theorem nodup_of_add {index : ColumnIndex} {os : List Occurrence} (h : (add index os).2 = []) :
    (os.map Occurrence.key).Nodup ∧ ∀ o ∈ os, index.get? o.key = none := by
  induction os generalizing index with
  | nil => exact ⟨List.nodup_nil, fun o ho => nomatch ho⟩
  | cons o rest ih =>
    rw [add] at h
    dsimp only at h
    split at h
    · cases h
    · rename_i fresh
      obtain ⟨hnodup, habsent⟩ := ih h
      -- a later column of this key would have been found in the index
      have hafter : ∀ p ∈ rest, p.key ≠ o.key ∧ index.get? p.key = none := by
        intro p hp
        have hnone := habsent p hp
        rw [get?_insert] at hnone
        by_cases hkey : p.key = o.key
        · rw [if_pos hkey] at hnone
          cases hnone
        · rw [if_neg hkey] at hnone
          exact ⟨hkey, hnone⟩
      rw [List.map_cons, List.nodup_cons]
      refine ⟨⟨fun hmem => ?_, hnodup⟩, fun p hp => ?_⟩
      · obtain ⟨p, hp, hkey⟩ := List.mem_map.1 hmem
        exact (hafter p hp).1 hkey
      · obtain rfl | hp := List.mem_cons.1 hp
        · exact Option.not_isSome_iff_eq_none.1 fresh
        · exact (hafter p hp).2

/-- The columns of a group have different names in a book that is indexed without an issue. -/
theorem nodup_columns_of_build {b : Book} (h : (build b).2 = []) {p : Page} (hp : p ∈ b.pages) {g : Group}
    (hg : g ∈ p.groups) : (g.columns.map Column.name).Nodup := by
  have hkeys : (b.pages.flatMap fun p => p.titles.map (keyOn p.name)).Nodup := by
    rw [← b.keys_entries, ← b.entries_occurrences, List.map_map]
    exact (nodup_of_add h).1
  have htitles : p.titles.Nodup := ((List.nodup_flatMap.1 hkeys).1 p hp).of_map _
  have hcolumns := (List.nodup_flatMap.1 htitles).1 g hg
  have hnames : g.columns.map Column.name = (g.columns.map fun c => (g.name, c.name)).map Prod.snd := by
    rw [List.map_map]
    rfl
  rw [hnames]
  refine hcolumns.map_on fun t ht u hu htu => Prod.ext ?_ htu
  obtain ⟨_, _, rfl⟩ := List.mem_map.1 ht
  obtain ⟨_, _, rfl⟩ := List.mem_map.1 hu
  rfl

end ColumnIndex

/-! ## Compilations without issues -/

/-- Lists of issues for items, with one for each repeated name, that are all empty: no name is repeated. -/
theorem nodup_of_issues {name : α → String} {as : List α} {f : Nat × α × Bool → List Issue}
    (hf : ∀ n a, f (n, a, true) ≠ []) (h : (repeatsAt name [] 0 as).flatMap f = []) :
    (as.map name).Nodup := by
  have hfirst : ∀ x ∈ repeatsAt name [] 0 as, x.2.2 = false := by
    rintro ⟨n, a, again⟩ hx
    cases again with
    | false => rfl
    | true => exact absurd (List.flatMap_eq_nil_iff.1 h _ hx) (hf n a)
  exact (nodup_of_repeatsAt hfirst).1

/-- The work on the first item of a name reports nothing where nothing is reported. -/
theorem FirstOfName.issues_eq_nil {name : α → String} {as : List α} {n : Nat} {a : α}
    {f : Nat × α × Bool → List Issue} (h : FirstOfName name as n a)
    (hnil : (repeatsAt name [] 0 as).flatMap f = []) : f (n, a, false) = [] := by
  exact List.flatMap_eq_nil_iff.1 hnil _ (List.mem_of_getElem? h.getElem?_first)

namespace Compile

variable {options : CompileOptions} {b : Book}

/-- Names that are compiled without an issue are different at every level. -/
theorem distinct_of_issues (h : (book options b).issues = []) : b.Distinct := by
  unfold book at h
  simp only [Outcome.issues_bind, Outcome.issues_record, Outcome.issues_pure, List.forM_eq_forM,
    Outcome.issues_forM_report, List.nil_append, List.append_nil, List.append_eq_nil_iff] at h
  obtain ⟨hindex, _, hpages⟩ := h
  rw [issues_pages] at hpages
  have hnames : (b.pages.map Page.name).Nodup := by
    refine nodup_of_issues ?_ hpages
    exact fun _ _ => List.cons_ne_nil _ _
  refine ⟨hnames, fun p hp => ?_, fun p hp g hg => ColumnIndex.nodup_columns_of_build hindex hp hg⟩
  obtain ⟨i, hi⟩ := List.mem_iff_getElem?.1 hp
  have hpage := (FirstOfName.of_nodup hnames hi).issues_eq_nil hpages
  change (page _ _ _ _ _ p).issues = [] at hpage
  unfold page at hpage
  simp only [Outcome.issues_bind, List.append_eq_nil_iff] at hpage
  have hgroups := hpage.2.2.1
  rw [issues_groups] at hgroups
  refine nodup_of_issues ?_ hgroups
  exact fun _ _ => List.cons_ne_nil _ _

/-- What is compiled without an issue has all pages, groups and columns in their order. -/
theorem outline_of_issues (h : (book options b).issues = []) :
    (book options b).value.pages.map SheetPage.outline = b.pages.map Page.outline := by
  rw [outline_book, (distinct_of_issues h).kept_eq]

end Compile

/-- Where names are different at every level, every column is kept. -/
theorem Book.Distinct.exists_keptColumn {b : Book} (h : b.Distinct) {i j k : Nat} {page : Page}
    {group : Group} {column : Column} (hp : b.pages[i]? = some page) (hg : page.groups[j]? = some group)
    (hc : group.columns[k]? = some column) :
    ∃ c : KeptColumn b, c.path = columnPath i j k ∧ c.column = column := by
  have hpage : page ∈ b.pages := List.mem_of_getElem? hp
  have hgroup : group ∈ page.groups := List.mem_of_getElem? hg
  exact ⟨⟨⟨⟨i, page, .of_nodup h.pages hp⟩, j, group, .of_nodup (h.groups page hpage) hg⟩, k, column,
    .of_nodup (h.columns page hpage group hgroup) hc⟩, rfl, rfl⟩

end Workbook
