import Mathlib.Data.List.FinRange
import Mathlib.Data.List.Induction
import Workbook.Proofs.Repeats

/-!
# What the index of all columns holds

The index of all columns takes the columns of a book in document order. It reports each column whose names
have occurred before, and for any names it has the place of the last column that has them. Where the names
of pages, and those of the groups of each page, are different, nothing is reported exactly if the names of
the columns of each group are, and then the index has the columns that a compilation keeps.
-/

namespace Workbook

/-! ## Sites of columns -/

/-- A column of a book, by the numbers of its page, of its group and its own. -/
structure ColumnSite (b : Book) where
  page : Fin b.pages.length
  group : Fin b.pages[page].groups.length
  column : Fin b.pages[page].groups[group].columns.length
deriving DecidableEq

namespace ColumnSite

variable {b : Book} (s t : ColumnSite b)

/-- The names of the page, of the group and of the column. -/
def key : ColumnKey where
  page := b.pages[s.page].name
  group := b.pages[s.page].groups[s.group].name
  column := b.pages[s.page].groups[s.group].columns[s.column].name

/-- The number of the column among all columns of its page. -/
def number : Nat :=
  ((b.pages[s.page].groups.take s.group).flatMap Group.columns).length + s.column

/-- Where the column is placed. There is a row of group titles if the page has more than one group. -/
def placement : Placement where
  page := b.pages[s.page].name
  grouped := 1 < b.pages[s.page].groups.length
  index := s.number

/-- The column as it occurs in the book. -/
def occurrence : Occurrence := ⟨columnPath s.page s.group s.column, s.key, s.placement⟩

/-- The order of columns in a document. -/
def Before : Prop :=
  s.page.val < t.page.val ∨ s.page.val = t.page.val ∧
    (s.group.val < t.group.val ∨ s.group.val = t.group.val ∧ s.column.val < t.column.val)

instance : Decidable (s.Before t) := inferInstanceAs (Decidable (_ ∨ _ ∧ (_ ∨ _ ∧ _)))

/-- The names of the column have occurred before. -/
def Repeats : Prop := ∃ t : ColumnSite b, t.Before s ∧ t.key = s.key

/-- The issue that the names of the column have occurred before, at the place of its name. -/
def repetition : Issue :=
  .processing ("duplicate column '" ++ s.key.column ++ "' in group '" ++ s.key.group ++ "' of page '" ++
    s.key.page ++ "'") ((columnPath s.page s.group s.column).key "name")

variable {s t}

/-- No column stands before one that stands before it. -/
theorem Before.asymm (h : s.Before t) : ¬t.Before s := by
  unfold Before at h ⊢
  omega

/-- No column stands before itself. -/
theorem Before.irrefl : ¬s.Before s := fun h => h.asymm h

variable (b)

/-- The columns of a book in document order. -/
def all : List (ColumnSite b) :=
  (List.finRange b.pages.length).flatMap fun page =>
    (List.finRange b.pages[page].groups.length).flatMap fun group =>
      (List.finRange b.pages[page].groups[group].columns.length).map fun column => ⟨page, group, column⟩

variable {b}

/-- Every column is one of all columns. -/
theorem mem_all (s : ColumnSite b) : s ∈ all b :=
  List.mem_flatMap.2 ⟨s.page, List.mem_finRange _, List.mem_flatMap.2 ⟨s.group, List.mem_finRange _,
    List.mem_map.2 ⟨s.column, List.mem_finRange _, rfl⟩⟩⟩

/-- All columns are listed in the order of the book. -/
theorem pairwise_all : (all b).Pairwise Before := by
  refine List.pairwise_flatMap.2 ⟨fun i _ => List.pairwise_flatMap.2 ⟨fun j _ => ?_, ?_⟩, ?_⟩
  · exact List.pairwise_map.2 ((List.pairwise_lt_finRange _).imp fun hlt => .inr ⟨rfl, .inr ⟨rfl, hlt⟩⟩)
  · refine (List.pairwise_lt_finRange _).imp fun hlt s hs t ht => ?_
    obtain ⟨_, -, rfl⟩ := List.mem_map.1 hs
    obtain ⟨_, -, rfl⟩ := List.mem_map.1 ht
    exact .inr ⟨rfl, .inl hlt⟩
  · refine (List.pairwise_lt_finRange _).imp fun hlt s hs t ht => ?_
    obtain ⟨_, -, hs⟩ := List.mem_flatMap.1 hs
    obtain ⟨_, -, rfl⟩ := List.mem_map.1 hs
    obtain ⟨_, -, ht⟩ := List.mem_flatMap.1 ht
    obtain ⟨_, -, rfl⟩ := List.mem_map.1 ht
    exact .inl hlt

end ColumnSite

/-! ## The columns in document order -/

section Numbers

variable {α β γ : Type}

/-- A list with its numbers, by its positions. -/
theorem zipIdx_eq_finRange (as : List α) :
    as.zipIdx = (List.finRange as.length).map fun i => (as[i], i.val) := by
  refine List.ext_getElem (by simp) fun n hn hm => ?_
  simp

/-- What comes from the items of a list is numbered on from what comes from the items before. -/
theorem zipIdx_flatMap {f : α × Nat → List β} (g : α → List γ) (hsize : ∀ x, (f x).length = (g x.1).length)
    (as : List α) : (as.zipIdx.flatMap f).zipIdx =
      as.zipIdx.flatMap fun x => (f x).zipIdx ((as.take x.2).flatMap g).length := by
  induction as using List.reverseRecOn with
  | nil => rfl
  | append_singleton as a ih =>
    have hlength : (as.zipIdx.flatMap f).length = (as.flatMap g).length := by
      conv_rhs => rw [← List.zipIdx_map_fst 0 as, List.flatMap_map]
      rw [List.length_flatMap, List.length_flatMap]
      exact congrArg List.sum (List.map_congr_left fun x _ => hsize x)
    rw [List.zipIdx_append, List.flatMap_append, List.zipIdx_append, ih, List.flatMap_append]
    congr 1
    · refine List.flatMap_congr fun x hx => ?_
      have hlt := List.snd_lt_of_mem_zipIdx hx
      rw [List.take_append_of_le_length (by omega)]
    · rw [hlength]
      simp

end Numbers

/-- The columns of a page are numbered over all its groups. -/
theorem Page.occurrences_numbered (path : Path) (p : Page) : p.occurrences path =
    (List.finRange p.groups.length).flatMap fun j =>
      (List.finRange p.groups[j].columns.length).map fun k =>
        { path := (((path.key "groups").index j).key "columns").index k
          key := ⟨p.name, p.groups[j].name, p.groups[j].columns[k].name⟩
          placement := ⟨p.name, 1 < p.groups.length,
            ((p.groups.take j).flatMap Group.columns).length + k⟩ } := by
  rw [occurrences, zipIdx_flatMap Group.columns, zipIdx_eq_finRange, List.flatMap_map, List.map_flatMap]
  · refine List.flatMap_congr fun j _ => List.ext_getElem (by simp) fun n hn hm => ?_
    simp
  · exact fun x => (List.length_map _).trans List.length_zipIdx

/-- The sites of a book are its columns as they occur. -/
theorem ColumnSite.map_occurrence_all (b : Book) : (all b).map occurrence = b.occurrences := by
  rw [Book.occurrences, zipIdx_eq_finRange, List.flatMap_map, all, List.map_flatMap]
  refine List.flatMap_congr fun i _ => ?_
  change _ = Page.occurrences _ _
  rw [Page.occurrences_numbered, List.map_flatMap]
  refine List.flatMap_congr fun j _ => ?_
  rw [List.map_map]
  rfl

/-! ## Indexing columns in their order -/

namespace ColumnIndex

section Add

variable {b : Book} {sites : List (ColumnSite b)}

/-- Of columns in their order those are reported whose names are in the index, or occurred before. -/
theorem issues_add (ordered : sites.Pairwise ColumnSite.Before) (index : ColumnIndex) :
    (add index (sites.map ColumnSite.occurrence)).2 =
      (sites.filter fun s => (index.get? s.key).isSome ∨ ∃ t ∈ sites, t.Before s ∧ t.key = s.key).map
        ColumnSite.repetition := by
  induction sites generalizing index with
  | nil => rfl
  | cons first rest ih =>
    obtain ⟨hbefore, hrest⟩ := List.pairwise_cons.1 ordered
    have hfirst : ((index.get? first.key).isSome ∨
        ∃ t ∈ first :: rest, t.Before first ∧ t.key = first.key) ↔ (index.get? first.key).isSome := by
      refine or_iff_left ?_
      rintro ⟨t, ht, hlt, -⟩
      obtain rfl | ht := List.mem_cons.1 ht
      · exact hlt.irrefl
      · exact hlt.asymm (hbefore t ht)
    -- for a later column the first one is one that occurred before
    have hlater : ∀ s ∈ rest, (((index.insert first.key first.placement).get? s.key).isSome ∨
        ∃ t ∈ rest, t.Before s ∧ t.key = s.key) ↔
        ((index.get? s.key).isSome ∨ ∃ t ∈ first :: rest, t.Before s ∧ t.key = s.key) := by
      intro s hs
      rw [get?_insert]
      by_cases hkey : s.key = first.key
      · rw [if_pos hkey]
        exact iff_of_true (.inl rfl) (.inr ⟨first, List.mem_cons_self, hbefore s hs, hkey.symm⟩)
      · rw [if_neg hkey, List.exists_mem_cons_iff]
        exact or_congr_right (or_iff_right fun h => hkey h.2.symm).symm
    have hissues := ih hrest (index.insert first.key first.placement)
    rw [List.filter_congr fun s hs => decide_eq_decide.2 (hlater s hs)] at hissues
    rw [List.map_cons, add, List.filter_cons]
    change (if (index.get? first.key).isSome then _ else _) = _
    by_cases hin : (index.get? first.key).isSome
    · rw [if_pos hin, if_pos (decide_eq_true (hfirst.2 hin)), List.map_cons, ← hissues]
      rfl
    · rw [if_neg hin, if_neg fun h => hin (hfirst.1 (of_decide_eq_true h)), ← hissues]
      rfl

/-- After columns in their order an index has, for some names, the last column that has them, or what it
had before if none has them. -/
theorem get?_add (ordered : sites.Pairwise ColumnSite.Before) (index : ColumnIndex) (key : ColumnKey)
    (p : Placement) : (add index (sites.map ColumnSite.occurrence)).1.get? key = some p ↔
      (∃ s ∈ sites, s.key = key ∧ s.placement = p ∧ ∀ t ∈ sites, t.key = key → ¬s.Before t) ∨
        (∀ t ∈ sites, t.key ≠ key) ∧ index.get? key = some p := by
  induction sites generalizing index with
  | nil => simp [add]
  | cons first rest ih =>
    obtain ⟨hbefore, hrest⟩ := List.pairwise_cons.1 ordered
    have hnext : (add index ((first :: rest).map ColumnSite.occurrence)).1 =
        (add (index.insert first.key first.placement) (rest.map ColumnSite.occurrence)).1 := rfl
    rw [hnext, ih hrest, get?_insert]
    constructor
    · rintro (⟨s, hs, hkey, hplace, hlast⟩ | ⟨hnone, h⟩)
      · exact .inl ⟨s, List.mem_cons_of_mem _ hs, hkey, hplace,
          List.forall_mem_cons.2 ⟨fun _ => (hbefore s hs).asymm, hlast⟩⟩
      · split at h
        · rename_i hkey
          exact .inl ⟨first, List.mem_cons_self, hkey.symm, Option.some.inj h,
            List.forall_mem_cons.2 ⟨fun _ => ColumnSite.Before.irrefl, fun t ht hk => absurd hk (hnone t ht)⟩⟩
        · rename_i hkey
          exact .inr ⟨List.forall_mem_cons.2 ⟨fun hk => hkey hk.symm, hnone⟩, h⟩
    · rintro (⟨s, hs, hkey, hplace, hlast⟩ | ⟨hnone, h⟩)
      · have hlast' : ∀ t ∈ rest, t.key = key → ¬s.Before t := (List.forall_mem_cons.1 hlast).2
        obtain rfl | hs := List.mem_cons.1 hs
        · refine .inr ⟨fun t ht hk => hlast' t ht hk (hbefore t ht), ?_⟩
          rw [if_pos hkey.symm, hplace]
        · exact .inl ⟨s, hs, hkey, hplace, hlast'⟩
      · obtain ⟨hfirst, hnone⟩ := List.forall_mem_cons.1 hnone
        exact .inr ⟨hnone, by rw [if_neg fun hk => hfirst hk.symm, h]⟩

end Add

/-- What an index of all columns of a book and its issues are to be. -/
structure Indexes (b : Book) (index : ColumnIndex) (issues : List Issue) : Prop where
  /-- The columns whose names have occurred before are reported in their order. -/
  reports : ∃ sites : List (ColumnSite b), sites.Pairwise ColumnSite.Before ∧
    (∀ s, s ∈ sites ↔ s.Repeats) ∧ issues = sites.map ColumnSite.repetition
  /-- For some names there is the place of the last column that has them. -/
  last : ∀ key p, index.get? key = some p ↔
    ∃ s : ColumnSite b, s.key = key ∧ s.placement = p ∧ ∀ t, t.key = key → ¬s.Before t
  /-- Where pages and groups are not repeated, nothing is reported unless a column is. -/
  silent : (b.pages.map Page.name).Nodup → (∀ p ∈ b.pages, (p.groups.map Group.name).Nodup) →
    (issues = [] ↔ ∀ p ∈ b.pages, ∀ g ∈ p.groups, (g.columns.map Column.name).Nodup)
  /-- The columns are then those that a compilation keeps. -/
  kept : (b.pages.map Page.name).Nodup → (∀ p ∈ b.pages, (p.groups.map Group.name).Nodup) →
    issues = [] → index = firstSeen b

variable (b : Book)

/-- The columns that the index of a book reports. -/
theorem exists_reports : ∃ sites : List (ColumnSite b), sites.Pairwise ColumnSite.Before ∧
    (∀ s, s ∈ sites ↔ s.Repeats) ∧ (build b).2 = sites.map ColumnSite.repetition := by
  have hissues := issues_add (ColumnSite.pairwise_all (b := b)) {}
  rw [ColumnSite.map_occurrence_all] at hissues
  refine ⟨_, ColumnSite.pairwise_all.sublist List.filter_sublist, fun s => ?_, hissues⟩
  rw [List.mem_filter, decide_eq_true_iff]
  constructor
  · rintro ⟨-, h | ⟨t, -, ht⟩⟩
    · cases h
    · exact ⟨t, ht⟩
  · rintro ⟨t, ht⟩
    exact ⟨s.mem_all, .inr ⟨t, t.mem_all, ht⟩⟩

/-- Items with different names are told apart by them. -/
theorem position_eq_of_nodup {α : Type} {name : α → String} {as : List α} (h : (as.map name).Nodup)
    {m n : Fin as.length} (heq : name as[m] = name as[n]) : m = n := by
  have hm : m < (as.map name).length := by simp
  have hn : n < (as.map name).length := by simp
  have hnames : (as.map name)[m.val] = (as.map name)[n.val] := by
    rw [List.getElem_map, List.getElem_map]
    exact heq
  exact Fin.ext (h.getElem_inj_iff.1 hnames)

/-- In a book whose names are different at every level no column repeats the names of another. -/
theorem not_repeats {b : Book} (h : b.Distinct) (s : ColumnSite b) : ¬s.Repeats := by
  rintro ⟨t, ht, hkey⟩
  obtain ⟨i, j, k⟩ := s
  obtain ⟨i', j', k'⟩ := t
  obtain rfl : i' = i := position_eq_of_nodup h.pages (congrArg ColumnKey.page hkey)
  have hpage : b.pages[i'] ∈ b.pages := List.getElem_mem _
  obtain rfl : j' = j := position_eq_of_nodup (h.groups _ hpage) (congrArg ColumnKey.group hkey)
  have hgroup : b.pages[i'].groups[j'] ∈ b.pages[i'].groups := List.getElem_mem _
  obtain rfl : k' = k :=
    position_eq_of_nodup (h.columns _ hpage _ hgroup) (congrArg ColumnKey.column hkey)
  exact ht.irrefl

/-- The index of all columns of a book has what it is to have. -/
theorem indexes_build : Indexes b (build b).1 (build b).2 where
  reports := exists_reports b
  last key p := by
    rw [build, ← ColumnSite.map_occurrence_all, get?_add ColumnSite.pairwise_all]
    constructor
    · rintro (⟨s, -, hkey, hplace, hlast⟩ | ⟨-, h⟩)
      · exact ⟨s, hkey, hplace, fun t => hlast t t.mem_all⟩
      · cases h
    · rintro ⟨s, hkey, hplace, hlast⟩
      exact .inl ⟨s, s.mem_all, hkey, hplace, fun t _ => hlast t⟩
  silent pages groups := by
    refine ⟨fun h p hp g hg => nodup_columns_of_build h hp hg, fun columns => ?_⟩
    obtain ⟨sites, -, hsites, hissues⟩ := exists_reports b
    have hnone : sites = [] := List.eq_nil_iff_forall_not_mem.2 fun s hs =>
      not_repeats ⟨pages, groups, columns⟩ s ((hsites s).1 hs)
    rw [hissues, hnone, List.map_nil]
  kept pages groups h := by
    have hdistinct : b.Distinct := ⟨pages, groups, fun p hp g hg => nodup_columns_of_build h hp hg⟩
    rw [firstSeen, hdistinct.kept_eq]

end ColumnIndex

end Workbook
