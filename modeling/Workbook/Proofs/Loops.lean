import Workbook.Proofs.IssuePlaces
import Workbook.Proofs.Placement

/-!
# The loops over pages, groups and columns

The three loops of a compilation work on the first item of each name and pass over the others. Whether an
item repeats a name is known before the work starts, so the issues of a loop are those of its items one
after another, each under the number of its item. What the loop makes of a kept item is found by its name,
and what it reports under the number of a kept item is what the work on that item reports.
-/

namespace Workbook

variable {α : Type}

/-! ## The first item of a name -/

/-- The item with a number in a list is the first one that has its name. -/
structure FirstOfName (name : α → String) (as : List α) (n : Nat) (a : α) : Prop where
  item : as[n]? = some a
  earlier : ∀ m b, m < n → as[m]? = some b → name b ≠ name a

/-- The items with their numbers, the first of which is given, and whether the name of an item is one of
those that were seen before it. -/
def repeatsAt (name : α → String) (seen : List String) (k : Nat) : List α → List (Nat × α × Bool)
  | [] => []
  | a :: rest =>
    if seen.contains (name a) then (k, a, true) :: repeatsAt name seen (k + 1) rest
    else (k, a, false) :: repeatsAt name (name a :: seen) (k + 1) rest

section FirstItems

variable {name : α → String} {seen : List String} {as : List α} {n : Nat} {a : α}

/-- Where names are different, every item is the first one of its name. -/
theorem FirstOfName.of_nodup (hn : (as.map name).Nodup) (ha : as[n]? = some a) : FirstOfName name as n a where
  item := ha
  earlier m b hm hb hname := by
    have heq : m = n := index_eq_of_label hn hb ha hname
    omega

/-- The first item of its name is the item with its number. -/
theorem FirstOfName.eq {b : α} (h : FirstOfName name as n a) (hb : as[n]? = some b) : a = b :=
  Option.some.inj (h.item.symm.trans hb)

/-- The first of its name stays so without the item in front of the list, which has another name. -/
theorem FirstOfName.tail {b : α} {rest : List α} (h : FirstOfName name (b :: rest) (n + 1) a) :
    FirstOfName name rest n a ∧ name a ≠ name b where
  left := ⟨h.item, fun m c hm hc => h.earlier (m + 1) c (Nat.succ_lt_succ hm) hc⟩
  right := (h.earlier 0 b (Nat.succ_pos n) rfl).symm

/-- The first item of a name that was not seen before repeats no name. -/
theorem FirstOfName.getElem?_repeatsAt (h : FirstOfName name as n a) (fresh : name a ∉ seen) (k : Nat) :
    (repeatsAt name seen k as)[n]? = some (k + n, a, false) := by
  induction as generalizing seen k n with
  | nil => cases h.item
  | cons b rest ih =>
    rw [repeatsAt]
    cases n with
    | zero =>
      obtain rfl : b = a := Option.some.inj h.item
      rw [if_neg (by simpa using fresh)]
      rfl
    | succ n =>
      obtain ⟨htail, hne⟩ := h.tail
      have hnumber : k + (n + 1) = k + 1 + n := by omega
      rw [hnumber]
      split
      · exact ih htail fresh (k + 1)
      · refine ih htail ?_ (k + 1)
        rw [List.mem_cons, not_or]
        exact ⟨hne, fresh⟩

/-- The first item of a name repeats no name in its list. -/
theorem FirstOfName.getElem?_first (h : FirstOfName name as n a) :
    (repeatsAt name [] 0 as)[n]? = some (n, a, false) := by
  have hitem := h.getElem?_repeatsAt List.not_mem_nil 0
  rwa [Nat.zero_add] at hitem

/-- The kept items are those that repeat no name. -/
theorem keptAt_eq_filterMap (name : α → String) (seen : List String) (k : Nat) (as : List α) :
    keptAt name seen k as =
      (repeatsAt name seen k as).filterMap fun (k, a, again) => if again then none else some (k, a) := by
  induction as generalizing seen k with
  | nil => rfl
  | cons a rest ih =>
    rw [keptAt, repeatsAt]
    split
    · rw [ih]
      rfl
    · rw [ih]
      rfl

/-- The first item of a name is kept, with its number. -/
theorem FirstOfName.mem_keptAt (h : FirstOfName name as n a) : (n, a) ∈ keptAt name [] 0 as := by
  have hitem := h.getElem?_first
  rw [keptAt_eq_filterMap]
  exact List.mem_filterMap.2 ⟨_, List.mem_of_getElem? hitem, rfl⟩

/-- Kept items are the first ones of their names; the list they are in starts with a number. -/
theorem firstOfName_of_mem_keptAt {k : Nat} {x : Nat × α} (h : x ∈ keptAt name seen k as) :
    k ≤ x.1 ∧ FirstOfName name as (x.1 - k) x.2 ∧ name x.2 ∉ seen := by
  induction as generalizing seen k with
  | nil => cases h
  | cons b rest ih =>
    rw [keptAt] at h
    -- an item of the rest is first in the whole list if it has not the name of the first item
    have hlater (hk : k + 1 ≤ x.1) (hx : FirstOfName name rest (x.1 - (k + 1)) x.2)
        (hne : name x.2 ≠ name b) : FirstOfName name (b :: rest) (x.1 - k) x.2 := by
      have hnumber : x.1 - k = x.1 - (k + 1) + 1 := by omega
      rw [hnumber]
      refine ⟨hx.item, fun m c hm hc => ?_⟩
      cases m with
      | zero =>
        obtain rfl : b = c := Option.some.inj hc
        exact hne.symm
      | succ m => exact hx.earlier m c (Nat.lt_of_succ_lt_succ hm) hc
    split at h
    · rename_i again
      obtain ⟨hk, hx, hunseen⟩ := ih h
      have hne : name x.2 ≠ name b := by
        intro hname
        rw [hname] at hunseen
        exact hunseen (by simpa using again)
      exact ⟨by omega, hlater hk hx hne, hunseen⟩
    · rename_i fresh
      obtain rfl | h := List.mem_cons.1 h
      · refine ⟨Nat.le_refl k, ⟨by rw [Nat.sub_self]; rfl, fun m c hm => ?_⟩, by simpa using fresh⟩
        omega
      · obtain ⟨hk, hx, hunseen⟩ := ih h
        rw [List.mem_cons, not_or] at hunseen
        exact ⟨by omega, hlater hk hx hunseen.1, hunseen.2⟩

/-- An item has the number of its place. -/
theorem number_of_getElem?_repeatsAt {k : Nat} {x : Nat × α × Bool}
    (h : (repeatsAt name seen k as)[n]? = some x) : x.1 = k + n := by
  induction as generalizing seen k n with
  | nil => cases h
  | cons b rest ih =>
    rw [repeatsAt] at h
    cases n with
    | zero => split at h <;> cases h <;> rfl
    | succ n =>
      have hnumber : k + (n + 1) = k + 1 + n := by omega
      rw [hnumber]
      split at h <;> exact ih h

/-- Kept items are found by their names in what is made of them. -/
theorem find?_flatMap_keptAt {β : Type} {title : β → String} {f : Nat × α → Option β}
    (ht : ∀ x s, f x = some s → title s = name x.2) (h : FirstOfName name as n a) :
    ((keptAt name [] 0 as).flatMap fun x => (f x).toList).find? (fun s => title s == name a) =
      f (n, a) := by
  have hmem : (n, a) ∈ keptAt name [] 0 as := h.mem_keptAt
  have hnodup : ((keptAt name [] 0 as).map fun x => name x.2).Nodup := by
    have hn := nodup_keepFirst name [] as
    rwa [← map_snd_keptAt name [] 0 as, List.map_map] at hn
  have hother {kept : List (Nat × α)} (hk : name a ∉ kept.map fun x => name x.2) :
      (kept.flatMap fun x => (f x).toList).find? (fun s => title s == name a) = none := by
    rw [List.find?_eq_none]
    intro s hs heq
    obtain ⟨x, hx, hfx⟩ := List.mem_flatMap.1 hs
    refine hk (List.mem_map.2 ⟨x, hx, ?_⟩)
    rw [← ht x s (Option.mem_toList.1 hfx)]
    exact beq_iff_eq.1 heq
  generalize keptAt name [] 0 as = kept at hmem hnodup
  induction kept with
  | nil => cases hmem
  | cons x rest ih =>
    rw [List.map_cons, List.nodup_cons] at hnodup
    rw [List.flatMap_cons, List.find?_append]
    obtain rfl | hm := List.mem_cons.1 hmem
    · rw [hother hnodup.1, Option.or_none]
      cases hf : f (n, a) with
      | none => rfl
      | some s =>
        rw [Option.toList_some, List.find?_singleton, ht _ s hf, beq_self_eq_true, if_pos rfl]
    · have hx : name x.2 ≠ name a := by
        intro heq
        exact hnodup.1 (heq ▸ List.mem_map_of_mem (f := fun x => name x.2) hm)
      have hfirst : (f x).toList.find? (fun s => title s == name a) = none := by
        rw [List.find?_eq_none]
        intro s hs heq
        rw [ht x s (Option.mem_toList.1 hs)] at heq
        exact hx (beq_iff_eq.1 heq)
      rw [hfirst, Option.none_or, ih hm hnodup.2]

end FirstItems

/-! ## Issues of the loops -/

namespace Compile

/-- The columns of a group report what the kept ones report, and nothing for the others. -/
theorem issues_columns (index : ColumnIndex) (page group : String) (around : Scope) (theme : SheetTheme)
    (site : Site) (path : Path) (seen : List String) (k : Nat) (cs : List Column) :
    (columns index page group around theme site path seen k cs).issues =
      (repeatsAt Column.name seen k cs).flatMap fun (k, c, again) =>
        if again then [] else
          (column index page group around theme (site ++ [k]) (path.index k) c).issues := by
  induction cs generalizing seen k with
  | nil => rfl
  | cons c cs ih =>
    rw [columns, repeatsAt]
    split
    · exact ih seen (k + 1)
    · simp only [Outcome.issues_bind, Outcome.issues_pure, ih, List.append_nil, List.flatMap_cons,
        Bool.false_eq_true, if_false]

/-- The groups of a page report what the kept ones report, and the names of the others. -/
theorem issues_groups (index : ColumnIndex) (page : String) (around : Scope) (theme : SheetTheme)
    (site : Site) (path : Path) (seen : List String) (j : Nat) (gs : List Group) :
    (groups index page around theme site path seen j gs).issues =
      (repeatsAt Group.name seen j gs).flatMap fun (j, g, again) =>
        if again then [duplicateGroup (path.index j) page g.name] else
          (group index page around theme (site ++ [j]) (path.index j) g).issues := by
  induction gs generalizing seen j with
  | nil => rfl
  | cons g gs ih =>
    rw [groups, repeatsAt]
    split
    · simp only [Outcome.issues_bind, Outcome.issues_report, ih, List.flatMap_cons, if_true]
    · simp only [Outcome.issues_bind, Outcome.issues_pure, ih, List.append_nil, List.flatMap_cons,
        Bool.false_eq_true, if_false]

/-- The pages of a book report what the kept ones report, and the names of the others. -/
theorem issues_pages (index : ColumnIndex) (around : Scope) (theme : SheetTheme) (path : Path)
    (seen : List String) (i : Nat) (ps : List Page) :
    (pages index around theme path seen i ps).issues =
      (repeatsAt Page.name seen i ps).flatMap fun (i, p, again) =>
        if again then [duplicatePage (path.index i) p.name] else
          (page index around theme [i] (path.index i) p).issues := by
  induction ps generalizing seen i with
  | nil => rfl
  | cons p ps ih =>
    rw [pages, repeatsAt]
    split
    · simp only [Outcome.issues_bind, Outcome.issues_report, ih, List.flatMap_cons, if_true]
    · simp only [Outcome.issues_bind, Outcome.issues_pure, ih, List.append_nil, List.flatMap_cons,
        Bool.false_eq_true, if_false]

/-! ## Every level reports under its path -/

/-- The behavior of a column reports under its data type. -/
theorem behavior_under (ctx : BehaviorContext) (path : Path) (t : Ref DataType) :
    (behavior ctx path t).Under path :=
  .bind (ctx.resolve_under path t) fun _ => .pure _

/-- A column reports under its path. -/
theorem column_under (index : ColumnIndex) (page group : String) (around : Scope) (theme : SheetTheme)
    (site : Site) (path : Path) (c : Column) :
    (column index page group around theme site path c).Under path := by
  refine .bind (.record _) fun _ => .bind (levelTheme_under _ _ _ _).ofKey fun _ => ?_
  dsimp only
  split
  · exact .bind (.report (.processing _ _)) fun _ => .pure _
  · exact .bind (behavior_under _ _ _).ofKey fun _ =>
      .bind (Outcome.Under.ofKey (.forOption (value_under _ _) _)) fun _ => .pure _

/-- The columns of a group report under their list. -/
theorem columns_under (index : ColumnIndex) (page group : String) (around : Scope) (theme : SheetTheme)
    (site : Site) (path : Path) (seen : List String) (k : Nat) (cs : List Column) :
    (columns index page group around theme site path seen k cs).Under path := by
  induction cs generalizing seen k with
  | nil => exact .pure _
  | cons c cs ih =>
    rw [columns]
    split
    · exact ih seen (k + 1)
    · exact .bind (column_under _ _ _ _ _ _ _ _).ofIndex fun _ => .bind (ih _ _) fun _ => .pure _

/-- A group reports under its path. -/
theorem group_under (index : ColumnIndex) (page : String) (around : Scope) (theme : SheetTheme)
    (site : Site) (path : Path) (g : Group) : (group index page around theme site path g).Under path :=
  .bind (.record _) fun _ => .bind (levelTheme_under _ _ _ _).ofKey fun _ =>
    .bind (columns_under _ _ _ _ _ _ _ _ _ _).ofKey fun _ => .pure _

/-- The groups of a page report under their list. -/
theorem groups_under (index : ColumnIndex) (page : String) (around : Scope) (theme : SheetTheme)
    (site : Site) (path : Path) (seen : List String) (j : Nat) (gs : List Group) :
    (groups index page around theme site path seen j gs).Under path := by
  induction gs generalizing seen j with
  | nil => exact .pure _
  | cons g gs ih =>
    rw [groups]
    split
    · exact .bind (.report (Issue.Under.processing _ _).ofKey.ofIndex) fun _ => ih _ _
    · exact .bind (group_under _ _ _ _ _ _ _).ofIndex fun _ => .bind (ih _ _) fun _ => .pure _

/-- A page reports under its path. -/
theorem page_under (index : ColumnIndex) (around : Scope) (theme : SheetTheme) (site : Site) (path : Path)
    (p : Page) : (page index around theme site path p).Under path :=
  .bind (.record _) fun _ => .bind (levelTheme_under _ _ _ _).ofKey fun _ =>
    .bind (groups_under _ _ _ _ _ _ _ _ _).ofKey fun _ => .bind (.record _) fun _ => .pure _

/-! ## What stands under a kept item -/

variable {q : Path}

/-- Lists of issues that stand under the numbers of items: those under one number are those of its item. -/
theorem issuesUnder_flatMap_of_getElem? {name : α → String} {as : List α} {n : Nat} {x : Nat × α × Bool}
    {path : Path} (hitem : (repeatsAt name [] 0 as)[n]? = some x) (hq : (path.index n).Within q)
    (f : Nat × α × Bool → List Issue) (hf : ∀ x, ∀ i ∈ f x, i.Under (path.index x.1)) :
    issuesUnder q ((repeatsAt name [] 0 as).flatMap f) = issuesUnder q (f x) := by
  refine filter_flatMap_of_getElem? hitem fun m x hx hne => ?_
  refine issuesUnder_of_none fun i hi hunder => hne ?_
  have hnumber := number_of_getElem?_repeatsAt hx
  rw [Nat.zero_add] at hnumber
  rw [← hnumber]
  exact (hf x i hi).index_inj (hunder.within hq)

/-- Those under the number of a first item are those of the item as one that repeats no name. -/
theorem issuesUnder_flatMap_repeatsAt {name : α → String} {as : List α} {n : Nat} {a : α} {path : Path}
    (h : FirstOfName name as n a) (hq : (path.index n).Within q) (f : Nat × α × Bool → List Issue)
    (hf : ∀ x, ∀ i ∈ f x, i.Under (path.index x.1)) :
    issuesUnder q ((repeatsAt name [] 0 as).flatMap f) = issuesUnder q (f (n, a, false)) :=
  issuesUnder_flatMap_of_getElem? h.getElem?_first hq f hf

/-- Under a kept column stand the issues of that column only. -/
theorem issuesUnder_columns (index : ColumnIndex) (page group : String) (around : Scope)
    (theme : SheetTheme) (site : Site) (path : Path) {cs : List Column} {k : Nat} {c : Column}
    (h : FirstOfName Column.name cs k c) (hq : (path.index k).Within q) :
    issuesUnder q (columns index page group around theme site path [] 0 cs).issues =
      issuesUnder q (column index page group around theme (site ++ [k]) (path.index k) c).issues := by
  rw [issues_columns]
  refine issuesUnder_flatMap_repeatsAt h hq _ ?_
  rintro ⟨k, c, _ | _⟩ i hi
  · exact column_under _ _ _ _ _ _ _ _ i hi
  · cases hi

/-- Under a kept group stand the issues of that group only. -/
theorem issuesUnder_groups (index : ColumnIndex) (page : String) (around : Scope) (theme : SheetTheme)
    (site : Site) (path : Path) {gs : List Group} {j : Nat} {g : Group}
    (h : FirstOfName Group.name gs j g) (hq : (path.index j).Within q) :
    issuesUnder q (groups index page around theme site path [] 0 gs).issues =
      issuesUnder q (group index page around theme (site ++ [j]) (path.index j) g).issues := by
  rw [issues_groups]
  refine issuesUnder_flatMap_repeatsAt h hq _ ?_
  rintro ⟨j, g, _ | _⟩ i hi
  · exact group_under _ _ _ _ _ _ _ i hi
  · rw [List.mem_singleton.1 hi]
    exact (Issue.Under.processing _ _).ofKey

/-- Under a kept page stand the issues of that page only. -/
theorem issuesUnder_pages (index : ColumnIndex) (around : Scope) (theme : SheetTheme) (path : Path)
    {ps : List Page} {i : Nat} {p : Page} (h : FirstOfName Page.name ps i p)
    (hq : (path.index i).Within q) :
    issuesUnder q (pages index around theme path [] 0 ps).issues =
      issuesUnder q (page index around theme [i] (path.index i) p).issues := by
  rw [issues_pages]
  refine issuesUnder_flatMap_repeatsAt h hq _ ?_
  rintro ⟨i, p, _ | _⟩ issue hi
  · exact page_under _ _ _ _ _ _ issue hi
  · rw [List.mem_singleton.1 hi]
    exact (Issue.Under.processing _ _).ofKey

end Compile

end Workbook
