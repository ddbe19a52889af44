import Workbook.Compilation
import Workbook.Proofs.Outcomes

/-!
# What a compilation keeps

Of the pages of a book, the groups of a page and the columns of a group, the first of each name is kept.
The kept items have different names, and their names are all the names there are. The three loops of a
compilation make one part of the output for each kept item, with the number that the item has in its
list, and nothing for the others.
-/

namespace Workbook

variable {α : Type}

/-! ## The first item of each name -/

/-- A kept item is an item, and its name is not one of those that were seen before. -/
theorem mem_of_mem_keepFirst {name : α → String} {seen : List String} {a : α} {as : List α}
    (h : a ∈ keepFirst name seen as) : a ∈ as ∧ name a ∉ seen := by
  induction as generalizing seen with
  | nil => cases h
  | cons b rest ih =>
    rw [keepFirst] at h
    split at h
    · have hr := ih h
      exact ⟨List.mem_cons_of_mem b hr.1, hr.2⟩
    · rename_i fresh
      rw [List.mem_cons] at h
      obtain rfl | h := h
      · exact ⟨List.mem_cons_self, by simpa using fresh⟩
      · have hr := ih h
        exact ⟨List.mem_cons_of_mem b hr.1, fun hs => hr.2 (List.mem_cons_of_mem _ hs)⟩

/-- Kept items have different names. -/
theorem nodup_keepFirst (name : α → String) (seen : List String) (as : List α) :
    ((keepFirst name seen as).map name).Nodup := by
  induction as generalizing seen with
  | nil => exact List.nodup_nil
  | cons b rest ih =>
    rw [keepFirst]
    split
    · exact ih seen
    · rw [List.map_cons, List.nodup_cons]
      refine ⟨fun hb => ?_, ih _⟩
      obtain ⟨a, ha, hn⟩ := List.mem_map.1 hb
      have hfresh := (mem_of_mem_keepFirst ha).2
      rw [hn] at hfresh
      exact hfresh List.mem_cons_self

/-- A list that is not empty keeps its first item. -/
theorem keepFirst_ne_nil (name : α → String) {as : List α} (h : as ≠ []) :
    keepFirst name [] as ≠ [] := by
  cases as with
  | nil => exact absurd rfl h
  | cons a rest => simp [keepFirst]

/-- The kept items with their numbers in the list, the first of which is given. -/
def keptAt (name : α → String) (seen : List String) (k : Nat) : List α → List (Nat × α)
  | [] => []
  | a :: rest =>
    if seen.contains (name a) then keptAt name seen (k + 1) rest
    else (k, a) :: keptAt name (name a :: seen) (k + 1) rest

/-- Without the numbers these are the kept items. -/
theorem map_snd_keptAt (name : α → String) (seen : List String) (k : Nat) (as : List α) :
    (keptAt name seen k as).map Prod.snd = keepFirst name seen as := by
  induction as generalizing seen k with
  | nil => rfl
  | cons a rest ih =>
    rw [keptAt, keepFirst]
    split
    · exact ih seen (k + 1)
    · rw [List.map_cons, ih]

/-- An item that is kept with its number is kept. -/
theorem mem_keepFirst_of_mem_keptAt {name : α → String} {seen : List String} {k : Nat} {as : List α}
    {x : Nat × α} (h : x ∈ keptAt name seen k as) : x.2 ∈ keepFirst name seen as := by
  rw [← map_snd_keptAt name seen k as]
  exact List.mem_map_of_mem h

/-! ## The loops of a compilation -/

namespace Compile

/-- The columns of a group are what its kept columns become, where they become something. -/
theorem value_columns (index : ColumnIndex) (page group : String) (around : Scope) (theme : SheetTheme)
    (site : Site) (path : Path) (seen : List String) (k : Nat) (cs : List Column) :
    (columns index page group around theme site path seen k cs).value =
      (keptAt Column.name seen k cs).flatMap fun (k, c) =>
        (column index page group around theme (site ++ [k]) (path.index k) c).value.toList := by
  induction cs generalizing seen k with
  | nil => rfl
  | cons c cs ih =>
    rw [columns, keptAt]
    split
    · exact ih seen (k + 1)
    · simp only [Outcome.value_bind, Outcome.value_pure, ih, List.flatMap_cons]

/-- The groups of a page are what its kept groups become. -/
theorem value_groups (index : ColumnIndex) (page : String) (around : Scope) (theme : SheetTheme)
    (site : Site) (path : Path) (seen : List String) (j : Nat) (gs : List Group) :
    (groups index page around theme site path seen j gs).value =
      (keptAt Group.name seen j gs).map fun (j, g) =>
        (group index page around theme (site ++ [j]) (path.index j) g).value := by
  induction gs generalizing seen j with
  | nil => rfl
  | cons g gs ih =>
    rw [groups, keptAt]
    split
    · simp only [Outcome.value_bind, ih]
    · simp only [Outcome.value_bind, Outcome.value_pure, ih, List.map_cons]

/-- The pages of a book are what its kept pages become. -/
theorem value_pages (index : ColumnIndex) (around : Scope) (theme : SheetTheme) (path : Path)
    (seen : List String) (i : Nat) (ps : List Page) :
    (pages index around theme path seen i ps).value =
      (keptAt Page.name seen i ps).map fun (i, p) =>
        (page index around theme [i] (path.index i) p).value := by
  induction ps generalizing seen i with
  | nil => rfl
  | cons p ps ih =>
    rw [pages, keptAt]
    split
    · simp only [Outcome.value_bind, ih]
    · simp only [Outcome.value_bind, Outcome.value_pure, ih, List.map_cons]

/-! ## Titles -/

/-- A column of the output is there exactly when the column is placed, and has its name for a title. -/
theorem title_column (index : ColumnIndex) (page group : String) (around : Scope) (theme : SheetTheme)
    (site : Site) (path : Path) (c : Column) :
    (column index page group around theme site path c).value.map SheetColumn.title =
      (index.get? ⟨page, group, c.name⟩).map fun _ => c.name := by
  unfold column
  simp only [Outcome.value_bind]
  split <;> rename_i h <;> rw [h] <;> rfl

end Compile

end Workbook
