import Mathlib.Data.List.Nodup
import Workbook.Proofs.Kept

/-!
# The entries of a column index

Columns whose keys are all different are indexed in document order, each with its own placement. The
columns that a compilation keeps are of this kind, so the index of kept columns holds for each kept page
the titles of its columns with their numbers from left to right, and nothing else.
-/

namespace Workbook

/-! ## Association lists -/

/-- In a list with different keys every member is found under its key. -/
theorem lookup_of_mem {κ β : Type} [BEq κ] [LawfulBEq κ] {entries : List (κ × β)}
    (hn : (entries.map Prod.fst).Nodup) {k : κ} {v : β} (h : (k, v) ∈ entries) :
    entries.lookup k = some v := by
  induction entries with
  | nil => cases h
  | cons e rest ih =>
    obtain ⟨key, value⟩ := e
    rw [List.map_cons, List.nodup_cons] at hn
    rw [List.mem_cons] at h
    obtain h | h := h
    · cases h
      exact List.lookup_cons_self
    · have hne : k ≠ key := by
        rintro rfl
        exact hn.1 (List.mem_map.2 ⟨_, h, rfl⟩)
      rw [List.lookup_cons, beq_false_of_ne hne]
      exact ih hn.2 h

/-- What is found under a key is a member. -/
theorem mem_of_lookup {κ β : Type} [BEq κ] [LawfulBEq κ] {entries : List (κ × β)} {k : κ} {v : β}
    (h : entries.lookup k = some v) : (k, v) ∈ entries := by
  obtain ⟨before, after, he, _⟩ := List.lookup_eq_some_iff.1 h
  simp [he]

/-- Lists of different items are different together when a label tells from which list an item is. -/
theorem nodup_flatMap_of_label {α β ι : Type} {name : α → ι} (label : β → ι) {f : α → List β}
    {as : List α} (hn : (as.map name).Nodup) (hf : ∀ a ∈ as, (f a).Nodup)
    (hl : ∀ a ∈ as, ∀ b ∈ f a, label b = name a) : (as.flatMap f).Nodup := by
  induction as with
  | nil => exact List.nodup_nil
  | cons a rest ih =>
    rw [List.map_cons, List.nodup_cons] at hn
    rw [List.flatMap_cons, List.nodup_append]
    refine ⟨hf a List.mem_cons_self, ih hn.2 (fun b hb => hf b (List.mem_cons_of_mem _ hb))
      (fun b hb => hl b (List.mem_cons_of_mem _ hb)), ?_⟩
    intro x hx y hy hxy
    obtain ⟨b, hb, hyb⟩ := List.mem_flatMap.1 hy
    have hla := hl a List.mem_cons_self x hx
    have hlb := hl b (List.mem_cons_of_mem _ hb) y hyb
    apply hn.1
    rw [← hla, hxy, hlb]
    exact List.mem_map_of_mem hb

/-! ## Columns with different keys -/

namespace ColumnIndex

/-- A key that is new goes to the end. -/
theorem set_of_not_mem {key : ColumnKey} (placement : Placement)
    {entries : List (ColumnKey × Placement)} (h : key ∉ entries.map Prod.fst) :
    set key placement entries = entries ++ [(key, placement)] := by
  induction entries with
  | nil => rfl
  | cons e rest ih =>
    rw [List.map_cons, List.mem_cons, not_or] at h
    rw [set, if_neg (Ne.symm h.1), ih h.2, List.cons_append]

/-- Columns with new and different keys are appended in their order. -/
theorem add_of_nodup {index : ColumnIndex} {os : List Occurrence}
    (h : (index.entries.map Prod.fst ++ os.map Occurrence.key).Nodup) :
    (add index os).1.entries = index.entries ++ os.map fun o => (o.key, o.placement) := by
  induction os generalizing index with
  | nil => simp [add]
  | cons o rest ih =>
    have hfresh : o.key ∉ index.entries.map Prod.fst := by
      intro hm
      rw [List.nodup_append] at h
      exact h.2.2 _ hm _ List.mem_cons_self rfl
    have hset : (index.insert o.key o.placement).entries = index.entries ++ [(o.key, o.placement)] :=
      set_of_not_mem o.placement hfresh
    have hnext : ((index.insert o.key o.placement).entries.map Prod.fst ++
        rest.map Occurrence.key).Nodup := by
      rw [hset]
      simpa using h
    change (add (index.insert o.key o.placement) rest).1.entries = _
    rw [ih hnext, hset, List.map_cons, List.append_assoc, List.singleton_append]

end ColumnIndex

/-! ## Books whose names are different at every level -/

/-- The names of a page's columns from left to right, each with that of its group. -/
def Page.titles (p : Page) : List (String × String) :=
  p.groups.flatMap fun g => g.columns.map fun c => (g.name, c.name)

/-- The key of a column of a page by its titles. -/
def keyOn (page : String) (titles : String × String) : ColumnKey := ⟨page, titles.1, titles.2⟩

/-- The entries of an index for a page with titles and with or without a row of group titles. -/
def entriesOn (page : String) (grouped : Bool) (titles : List (String × String)) :
    List (ColumnKey × Placement) :=
  titles.zipIdx.map fun (t, k) => (keyOn page t, ⟨page, grouped, k⟩)

/-- The columns of a page occur in the order of its titles. -/
theorem Page.entries_occurrences (path : Path) (p : Page) :
    (p.occurrences path).map (fun o => (o.key, o.placement)) =
      entriesOn p.name (decide (1 < p.groups.length)) p.titles := by
  have hkeys : (p.groups.zipIdx.flatMap fun g => g.1.columns.zipIdx.map fun c =>
      ((((path.key "groups").index g.2).key "columns").index c.2,
        (⟨p.name, g.1.name, c.1.name⟩ : ColumnKey))).map Prod.snd = p.titles.map (keyOn p.name) := by
    conv_rhs => rw [Page.titles, ← List.zipIdx_map_fst 0 p.groups, List.flatMap_map, List.map_flatMap]
    rw [List.map_flatMap]
    congr 1
    funext g
    rw [List.map_map, List.map_map]
    conv_rhs => rw [← List.zipIdx_map_fst 0 g.1.columns, List.map_map]
    rfl
  have hzip := congrArg List.zipIdx hkeys
  rw [List.zipIdx_map, List.zipIdx_map] at hzip
  have hentry := congrArg (List.map fun x : ColumnKey × Nat =>
    (x.1, (⟨p.name, decide (1 < p.groups.length), x.2⟩ : Placement))) hzip
  rw [List.map_map, List.map_map] at hentry
  rw [Page.occurrences, List.map_map]
  exact hentry

/-- The keys of these entries are those of the titles. -/
theorem keys_entriesOn (page : String) (grouped : Bool) (titles : List (String × String)) :
    (entriesOn page grouped titles).map Prod.fst = titles.map (keyOn page) := by
  rw [entriesOn, List.map_map]
  conv_rhs => rw [← List.zipIdx_map_fst 0 titles, List.map_map]
  rfl

/-- An entry says which title stands where. -/
theorem mem_entriesOn {page : String} {grouped : Bool} {titles : List (String × String)}
    {e : ColumnKey × Placement} :
    e ∈ entriesOn page grouped titles ↔
      ∃ t k, titles[k]? = some t ∧ e = (keyOn page t, ⟨page, grouped, k⟩) := by
  constructor
  · intro h
    obtain ⟨⟨t, k⟩, hm, rfl⟩ := List.mem_map.1 h
    exact ⟨t, k, List.mk_mem_zipIdx_iff_getElem?.1 hm, rfl⟩
  · rintro ⟨t, k, ht, rfl⟩
    exact List.mem_map.2 ⟨(t, k), List.mk_mem_zipIdx_iff_getElem?.2 ht, rfl⟩

/-- The names of a book are different among its pages, the groups of a page, and the columns of a group. -/
structure Book.Distinct (b : Book) : Prop where
  pages : (b.pages.map Page.name).Nodup
  groups : ∀ p ∈ b.pages, (p.groups.map Group.name).Nodup
  columns : ∀ p ∈ b.pages, ∀ g ∈ p.groups, (g.columns.map Column.name).Nodup

namespace Book

/-- What a compilation keeps has different names. -/
theorem distinct_kept (b : Book) : b.kept.Distinct where
  pages := by
    have h := nodup_keepFirst Page.name [] b.pages
    rw [kept, List.map_map]
    exact h
  groups p hp := by
    obtain ⟨q, _, rfl⟩ := List.mem_map.1 hp
    have h := nodup_keepFirst Group.name [] q.groups
    rw [Page.kept, List.map_map]
    exact h
  columns p hp g hg := by
    obtain ⟨q, _, rfl⟩ := List.mem_map.1 hp
    obtain ⟨r, _, rfl⟩ := List.mem_map.1 hg
    exact nodup_keepFirst Column.name [] r.columns

variable {b : Book}

/-- The titles of a page are different. -/
theorem Distinct.titles (h : b.Distinct) {p : Page} (hp : p ∈ b.pages) : p.titles.Nodup := by
  refine nodup_flatMap_of_label Prod.fst (h.groups p hp) (fun g hg => ?_) fun g _ t ht => ?_
  · have hc := h.columns p hp g hg
    rw [List.nodup_map_iff_inj_on hc.of_map]
    intro c hc d hd hcd
    exact List.inj_on_of_nodup_map (h.columns p hp g hg) hc hd (congrArg Prod.snd hcd)
  · obtain ⟨c, _, rfl⟩ := List.mem_map.1 ht
    rfl

/-- The keys of all columns are different. -/
theorem Distinct.keys (h : b.Distinct) :
    (b.pages.flatMap fun p => p.titles.map (keyOn p.name)).Nodup := by
  refine nodup_flatMap_of_label ColumnKey.page h.pages (fun p hp => ?_) fun p _ k hk => ?_
  · refine (h.titles hp).map fun t u htu => ?_
    exact Prod.ext (congrArg ColumnKey.group htu) (congrArg ColumnKey.column htu)
  · obtain ⟨t, _, rfl⟩ := List.mem_map.1 hk
    rfl

/-- The entries of the columns of a book in document order. -/
def entries (b : Book) : List (ColumnKey × Placement) :=
  b.pages.flatMap fun p => entriesOn p.name (decide (1 < p.groups.length)) p.titles

/-- The occurrences of a book have the keys and placements of its entries. -/
theorem entries_occurrences (b : Book) :
    b.occurrences.map (fun o => (o.key, o.placement)) = b.entries := by
  conv_rhs => rw [entries, ← List.zipIdx_map_fst 0 b.pages, List.flatMap_map]
  rw [occurrences, List.map_flatMap]
  congr 1
  funext ⟨p, i⟩
  exact p.entries_occurrences _

/-- The keys of a book are those of its pages in order. -/
theorem keys_entries (b : Book) :
    b.entries.map Prod.fst = b.pages.flatMap fun p => p.titles.map (keyOn p.name) := by
  rw [entries, List.map_flatMap]
  congr 1
  funext p
  exact keys_entriesOn _ _ _

/-- The index of a book with different names holds its entries. -/
theorem Distinct.entries_build (h : b.Distinct) : (ColumnIndex.build b).1.entries = b.entries := by
  have hkeys : b.occurrences.map Occurrence.key = b.entries.map Prod.fst := by
    rw [← entries_occurrences, List.map_map]
    rfl
  have hn : (({} : ColumnIndex).entries.map Prod.fst ++ b.occurrences.map Occurrence.key).Nodup := by
    rw [hkeys, keys_entries]
    exact h.keys
  rw [ColumnIndex.build, ColumnIndex.add_of_nodup hn, entries_occurrences, List.nil_append]

end Book

namespace ColumnIndex

/-- A key of the index of kept columns is placed where its titles stand on a kept page. -/
theorem firstSeen_get? {b : Book} {key : ColumnKey} {placement : Placement} :
    (firstSeen b).get? key = some placement ↔
      ∃ p ∈ b.kept.pages, ∃ t k, p.titles[k]? = some t ∧ key = keyOn p.name t ∧
        placement = ⟨p.name, decide (1 < p.groups.length), k⟩ := by
  have hentries : (firstSeen b).entries = b.kept.entries := b.distinct_kept.entries_build
  have hn : ((firstSeen b).entries.map Prod.fst).Nodup := by
    rw [hentries, Book.keys_entries]
    exact b.distinct_kept.keys
  have hmem : (firstSeen b).get? key = some placement ↔ (key, placement) ∈ b.kept.entries := by
    rw [← hentries]
    exact ⟨mem_of_lookup, lookup_of_mem hn⟩
  rw [hmem, Book.entries, List.mem_flatMap]
  refine exists_congr fun p => and_congr_right fun _ => ?_
  rw [mem_entriesOn]
  simp only [Prod.mk.injEq]

end ColumnIndex

end Workbook
