import Workbook.Log
import Workbook.Proofs.Journals
import Workbook.Proofs.Sessions

/-!
# One memory for a whole compilation

All levels of a book share one memory while the book is compiled, and a level without definitions of its
own shares even its entries with the level around it. The journal of a compilation lists what is asked of
the memory, in order. Each of these questions is about the scope of some level, the scopes of all levels
are a coherent family of views, and so every question is answered as the scope that is asked answers it
alone: what other pages have left in the memory never shows.
-/

namespace Workbook

/-! ## Questions of some work -/

/-- All names that some work asks for are asked of scopes of a kind. -/
def Outcome.Asks {α : Type} (scopes : Scope → Prop) (o : Outcome α) : Prop :=
  ∀ s k name, Entry.lookup s k name ∈ o.journal → scopes s

namespace Outcome.Asks

variable {α β : Type} {scopes : Scope → Prop}

theorem pure (a : α) : (Pure.pure a : Outcome α).Asks scopes := by
  intro s k name h
  cases h

theorem report (i : Issue) : (Outcome.report i).Asks scopes := by
  intro s k name h
  cases h

theorem compiled (part : Part) : (record (.compiled part)).Asks scopes := by
  intro s k name h
  cases List.mem_singleton.1 h

theorem note (level : LogLevel) (text : String) : (record (.note level text)).Asks scopes := by
  intro s k name h
  cases List.mem_singleton.1 h

/-- Work asks what its parts ask. -/
theorem bind {a : Outcome α} {f : α → Outcome β} (ha : a.Asks scopes) (hf : ∀ x, (f x).Asks scopes) :
    (a >>= f).Asks scopes := by
  intro s k name h
  obtain h | h := List.mem_append.1 h
  · exact ha s k name h
  · exact hf a.value s k name h

theorem ofExcept (r : Except Issue α) : (Outcome.ofExcept r).Asks scopes := by
  cases r with
  | ok a => exact Asks.pure _
  | error i =>
    intro s k name h
    cases h

/-- Work on a value that may be missing asks what the work asks. -/
theorem forOption {f : α → Outcome (Option β)} (hf : ∀ a, (f a).Asks scopes) (o : Option α) :
    (Outcome.forOption f o).Asks scopes := by
  cases o with
  | none => exact Asks.pure _
  | some a => exact hf a

/-- Work that consults a scope asks what is of its kind. -/
theorem of_consults {s : Scope} (h : scopes s) {o : Outcome α} (ho : o.Consults s) : o.Asks scopes := by
  intro s' k name hmem
  obtain ⟨k', name', heq⟩ := ho _ hmem
  cases heq
  exact h

theorem forM_report (issues : List Issue) : (issues.forM Outcome.report).Asks scopes := by
  induction issues with
  | nil => exact Asks.pure _
  | cons i rest ih => exact bind (report i) fun _ => ih

end Outcome.Asks

variable {scopes : Scope → Prop}

/-! ## The levels of a book -/

/-- The scope of a column, on top of the scope around it, is of a kind. -/
def Column.Asked (scopes : Scope → Prop) (around : Scope) (site : Site) (c : Column) : Prop :=
  scopes (around.overlay site c.definitions)

/-- The scopes of a group and of its columns are of a kind. -/
structure Group.Asked (scopes : Scope → Prop) (around : Scope) (site : Site) (g : Group) : Prop where
  own : scopes (around.overlay site g.definitions)
  columns : ∀ (k : Nat) (c : Column), g.columns[k]? = some c →
    c.Asked scopes (around.overlay site g.definitions) (site ++ [k])

/-- The scopes of a page, of its groups and of their columns are of a kind. -/
structure Page.Asked (scopes : Scope → Prop) (around : Scope) (site : Site) (p : Page) : Prop where
  own : scopes (around.overlay site p.definitions)
  groups : ∀ (j : Nat) (g : Group), p.groups[j]? = some g →
    g.Asked scopes (around.overlay site p.definitions) (site ++ [j])

namespace Compile

/-- The theme of a level asks the scope of the level. -/
theorem levelTheme_asks (around : SheetTheme) {s : Scope} (h : scopes s) (path : Path)
    (t : Option (Ref Theme)) : (levelTheme around s path t).Asks scopes :=
  .of_consults h (levelTheme_consults around s path t)

/-- A column value asks nothing. -/
theorem value_asks (cell : FormulaCell) (path : Path) (e : Expression) :
    (value cell path e).Asks scopes := by
  refine .bind (.ofExcept _) fun formula => ?_
  split
  · exact .bind (.compiled _) fun _ => .pure _
  · exact .pure _

/-- A column asks its scope. -/
theorem column_asks (index : ColumnIndex) (page group : String) {around : Scope} (theme : SheetTheme)
    {site : Site} (path : Path) {c : Column} (h : c.Asked scopes around site) :
    (column index page group around theme site path c).Asks scopes := by
  refine .bind (.compiled _) fun _ => .bind (levelTheme_asks _ h _ _) fun _ => ?_
  dsimp only
  split
  · exact .bind (.report _) fun _ => .pure _
  · exact .bind (.of_consults h (behavior_consults _ _ _)) fun _ =>
      .bind (.forOption (fun e => value_asks _ _ e) _) fun _ => .pure _

/-- The columns of a group ask their scopes. -/
theorem columns_asks (index : ColumnIndex) (page group : String) {around : Scope} (theme : SheetTheme)
    {site : Site} (path : Path) (seen : List String) (k : Nat) {cs : List Column}
    (h : ∀ (n : Nat) (c : Column), cs[n]? = some c → c.Asked scopes around (site ++ [k + n])) :
    (columns index page group around theme site path seen k cs).Asks scopes := by
  induction cs generalizing seen k with
  | nil => exact .pure _
  | cons c cs ih =>
    have hrest : ∀ (n : Nat) (d : Column), cs[n]? = some d → d.Asked scopes around (site ++ [k + 1 + n]) := by
      intro n d hd
      rw [Nat.add_assoc, Nat.add_comm 1 n]
      exact h (n + 1) d hd
    rw [columns]
    split
    · exact ih seen (k + 1) hrest
    · exact .bind (column_asks _ _ _ _ _ (h 0 c rfl)) fun _ => .bind (ih _ _ hrest) fun _ => .pure _

/-- A group asks its scope and those of its columns. -/
theorem group_asks (index : ColumnIndex) (page : String) {around : Scope} (theme : SheetTheme)
    {site : Site} (path : Path) {g : Group} (h : g.Asked scopes around site) :
    (group index page around theme site path g).Asks scopes := by
  refine .bind (.compiled _) fun _ => .bind (levelTheme_asks _ h.own _ _) fun _ =>
    .bind (columns_asks _ _ _ _ _ _ _ fun k c hc => ?_) fun _ => .pure _
  rw [Nat.zero_add]
  exact h.columns k c hc

/-- The groups of a page ask their scopes and those of their columns. -/
theorem groups_asks (index : ColumnIndex) (page : String) {around : Scope} (theme : SheetTheme)
    {site : Site} (path : Path) (seen : List String) (j : Nat) {gs : List Group}
    (h : ∀ (n : Nat) (g : Group), gs[n]? = some g → g.Asked scopes around (site ++ [j + n])) :
    (groups index page around theme site path seen j gs).Asks scopes := by
  induction gs generalizing seen j with
  | nil => exact .pure _
  | cons g gs ih =>
    have hrest : ∀ (n : Nat) (d : Group), gs[n]? = some d → d.Asked scopes around (site ++ [j + 1 + n]) := by
      intro n d hd
      rw [Nat.add_assoc, Nat.add_comm 1 n]
      exact h (n + 1) d hd
    rw [groups]
    split
    · exact .bind (.report _) fun _ => ih _ _ hrest
    · exact .bind (group_asks _ _ _ _ (h 0 g rfl)) fun _ => .bind (ih _ _ hrest) fun _ => .pure _

/-- A page asks its scope and those inside it. -/
theorem page_asks (index : ColumnIndex) {around : Scope} (theme : SheetTheme) {site : Site} (path : Path)
    {p : Page} (h : p.Asked scopes around site) :
    (page index around theme site path p).Asks scopes := by
  refine .bind (.compiled _) fun _ => .bind (levelTheme_asks _ h.own _ _) fun _ =>
    .bind (groups_asks _ _ _ _ _ _ fun j g hg => ?_) fun _ => .bind (.note _ _) fun _ => .pure _
  rw [Nat.zero_add]
  exact h.groups j g hg

/-- The pages of a book ask their scopes and those inside them. -/
theorem pages_asks (index : ColumnIndex) {around : Scope} (theme : SheetTheme) (path : Path)
    (seen : List String) (i : Nat) {ps : List Page}
    (h : ∀ (n : Nat) (p : Page), ps[n]? = some p → p.Asked scopes around [i + n]) :
    (pages index around theme path seen i ps).Asks scopes := by
  induction ps generalizing seen i with
  | nil => exact .pure _
  | cons p ps ih =>
    have hrest : ∀ (n : Nat) (q : Page), ps[n]? = some q → q.Asked scopes around [i + 1 + n] := by
      intro n q hq
      rw [Nat.add_assoc, Nat.add_comm 1 n]
      exact h (n + 1) q hq
    rw [pages]
    split
    · exact .bind (.report _) fun _ => ih _ _ hrest
    · exact .bind (page_asks _ _ _ (h 0 p rfl)) fun _ => .bind (ih _ _ hrest) fun _ => .pure _

end Compile

/-- The scopes of the levels of a book, each at the site of its level. -/
inductive Book.ScopeAt (b : Book) (options : CompileOptions) : Site → Scope → Prop
  | book : ScopeAt b options [] (Scope.root b.definitions options)
  | page {i : Nat} {p : Page} (hp : b.pages[i]? = some p) :
    ScopeAt b options [i] ((Scope.root b.definitions options).overlay [i] p.definitions)
  | group {i j : Nat} {p : Page} {g : Group} {s : Scope} (hp : b.pages[i]? = some p)
    (hg : p.groups[j]? = some g) (around : ScopeAt b options [i] s) :
    ScopeAt b options [i, j] (s.overlay [i, j] g.definitions)
  | column {i j k : Nat} {p : Page} {g : Group} {c : Column} {s : Scope} (hp : b.pages[i]? = some p)
    (hg : p.groups[j]? = some g) (hc : g.columns[k]? = some c) (around : ScopeAt b options [i, j] s) :
    ScopeAt b options [i, j, k] (s.overlay [i, j, k] c.definitions)

namespace Book.ScopeAt

variable {b : Book} {options : CompileOptions} {site : Site} {s s' : Scope}

/-- A level has one scope. -/
theorem unique (h : b.ScopeAt options site s) (h' : b.ScopeAt options site s') : s = s' := by
  induction h generalizing s' with
  | book =>
    cases h'
    rfl
  | page hp =>
    cases h' with
    | page hp' =>
      cases hp.symm.trans hp'
      rfl
  | group hp hg _ ih =>
    cases h' with
    | group hp' hg' around =>
      cases hp.symm.trans hp'
      cases hg.symm.trans hg'
      rw [ih around]
  | column hp hg hc _ ih =>
    cases h' with
    | column hp' hg' hc' around =>
      cases hp.symm.trans hp'
      cases hg.symm.trans hg'
      cases hc.symm.trans hc'
      rw [ih around]

/-- Of each kind, a level sees what the level that its memory belongs to sees. -/
theorem home (h : b.ScopeAt options site s) (k : Kind) :
    ∃ s', b.ScopeAt options (s.layers k).site s' ∧ s'.layers k = s.layers k := by
  -- a level on top of others without definitions of the kind belongs to the memory below it
  have step {around : Scope} {above : Site} {d : Option Definitions}
      (hover : b.ScopeAt options above (around.overlay above d))
      (ih : ∃ s', b.ScopeAt options (around.layers k).site s' ∧ s'.layers k = around.layers k) :
      ∃ s', b.ScopeAt options ((around.overlay above d).layers k).site s' ∧
        s'.layers k = (around.overlay above d).layers k := by
    by_cases hempty : ((d.getD {}).entries k).isEmpty
    · have hsame : (around.overlay above d).layers k = around.layers k := by
        rw [Scope.layers_overlay, Layers.overlay, if_pos hempty]
      rw [hsame]
      exact ih
    · have hsite : ((around.overlay above d).layers k).site = above := by
        rw [Scope.layers_overlay, Layers.overlay, if_neg hempty]
        rfl
      rw [hsite]
      exact ⟨_, hover, rfl⟩
  have hbook : ∃ s', b.ScopeAt options ((Scope.root b.definitions options).layers k).site s' ∧
      s'.layers k = (Scope.root b.definitions options).layers k := by
    refine ⟨_, ?_, rfl⟩
    rw [Scope.site_root]
    exact .book
  induction h with
  | book => exact hbook
  | page hp => exact step (.page hp) hbook
  | group hp hg around ih => exact step (.group hp hg around) ih
  | column hp hg hc around ih => exact step (.column hp hg hc around) ih

/-- Levels have the standard libraries of the book. -/
theorem standard_eq (h : b.ScopeAt options site s) (k : Kind) :
    s.standard k = (Scope.root b.definitions options).standard k := by
  induction h with
  | book => rfl
  | page hp => rw [Scope.standard_overlay]
  | group hp hg _ ih => rw [Scope.standard_overlay, ih]
  | column hp hg hc _ ih => rw [Scope.standard_overlay, ih]

/-- No level hides a definition of the book. -/
theorem find?_root (h : b.ScopeAt options site s) (k : Kind) {name : String}
    (hnone : (s.layers k).find? name = none) :
    ((Scope.root b.definitions options).layers k).find? name = none := by
  induction h with
  | book => exact hnone
  | page hp =>
    rw [Scope.layers_overlay] at hnone
    exact Layers.find?_overlay_eq_none hnone
  | group hp hg _ ih =>
    rw [Scope.layers_overlay] at hnone
    exact ih (Layers.find?_overlay_eq_none hnone)
  | column hp hg hc _ ih =>
    rw [Scope.layers_overlay] at hnone
    exact ih (Layers.find?_overlay_eq_none hnone)

end Book.ScopeAt

namespace Book

variable (b : Book) (options : CompileOptions)

/-- A scope of some level of the book. -/
def HasScope (s : Scope) : Prop := ∃ site, b.ScopeAt options site s

/-- Definitions of a kind as some level of the book sees them. -/
def HasView (k : Kind) (a : Layers k.Value) : Prop := ∃ s, b.HasScope options s ∧ s.layers k = a

/-- The levels of a book are a coherent family, although levels without definitions share their views. -/
theorem coherent (k : Kind) :
    Coherent (b.HasView options k) ((Scope.root b.definitions options).layers k) where
  root_mem := ⟨_, ⟨[], .book⟩, rfl⟩
  root_site := Scope.site_root _ _ k
  site_inj := by
    rintro _ _ ⟨s, ⟨site, h⟩, rfl⟩ ⟨s', ⟨site', h'⟩, rfl⟩ hsite
    obtain ⟨t, ht, hview⟩ := h.home k
    obtain ⟨t', ht', hview'⟩ := h'.home k
    rw [← hsite] at ht'
    rw [← hview, ← hview', ht.unique ht']
  root_find? := by
    rintro _ ⟨s, ⟨site, h⟩, rfl⟩ name hnone
    exact h.find?_root k hnone

/-- A compilation asks nothing but the scopes of the levels of its book. -/
theorem work_asks : (Compile.book options b).Asks (b.HasScope options) := by
  refine .bind (.note _ _) fun _ => .bind (.forM_report _) fun _ =>
    .bind (Compile.levelTheme_asks _ ⟨[], .book⟩ _ _) fun _ =>
    .bind (Compile.pages_asks _ _ _ _ _ fun i p hp => ?_) fun _ => .pure _
  rw [Nat.zero_add]
  refine ⟨⟨_, .page hp⟩, fun j g hg => ⟨⟨_, .group hp hg (.page hp)⟩, fun k c hc => ?_⟩⟩
  exact ⟨_, .column hp hg hc (.group hp hg (.page hp))⟩

end Book

/-! ## The memory of a compilation -/

namespace Memos

variable {b : Book} {options : CompileOptions} {m : Memos}

/-- What is remembered is right for every kind of definitions. -/
def Sound (b : Book) (options : CompileOptions) (m : Memos) : Prop :=
  ∀ k, (m.get k).Sound ((Scope.root b.definitions options).standard k) (b.HasView options k)

/-- Nothing is remembered at first. -/
theorem sound_empty : ({} : Memos).Sound b options := by
  intro k
  cases k <;> exact .empty

/-- A question about a level is answered as the level answers it alone, and what is remembered stays
right. -/
theorem resolve_sound (hm : m.Sound b options) {s : Scope} (hs : b.HasScope options s) (k : Kind)
    (name : String) :
    (m.resolve s k name).1 = s.resolve k name ∧ (m.resolve s k name).2.1.Sound b options := by
  obtain ⟨site, hat⟩ := hs
  obtain ⟨hanswer, hmemo⟩ := Memo.resolve_sound (b.coherent options k) (hm k) ⟨s, ⟨site, hat⟩, rfl⟩ name
  rw [← hat.standard_eq] at hanswer hmemo
  refine ⟨hanswer, fun k' => ?_⟩
  change ((m.set k _).get k').Sound _ _
  by_cases hk : k' = k
  · subst hk
    rw [get_set, ← hat.standard_eq]
    exact hmemo
  · rw [get_set_of_ne m hk]
    exact hm k'

/-- Writing the journal of questions about levels keeps what is remembered right. -/
theorem replayAll_sound (hm : m.Sound b options) {journal : List Entry}
    (h : ∀ s k name, Entry.lookup s k name ∈ journal → b.HasScope options s) :
    (m.replayAll journal).1.Sound b options := by
  induction journal generalizing m with
  | nil => exact hm
  | cons entry rest ih =>
    have hrest := fun s k name hmem => h s k name (List.mem_cons_of_mem entry hmem)
    refine ih (m := (m.replay entry).1) ?_ hrest
    cases entry with
    | lookup s k name => exact (resolve_sound hm (h s k name List.mem_cons_self) k name).2
    | compiled part => exact hm
    | note level text => exact hm

end Memos

/-- Whenever the compilation asks for a name, the memory that its earlier questions have filled gives the
answer of the scope alone. -/
def Compilation.AnswersAlone (c : Compilation) : Prop :=
  ∀ (before after : List Entry) (s : Scope) (k : Kind) (name : String),
    c.journal = before ++ .lookup s k name :: after →
      ((({} : Memos).replayAll before).1.resolve s k name).1 = s.resolve k name

/-- What all levels of a book remember together never shows in a compilation. -/
theorem Compilation.answersAlone_compile (options : CompileOptions) (b : Book) :
    (compile options b).AnswersAlone := by
  intro before after s k name hjournal
  have hasks : ∀ s k name, Entry.lookup s k name ∈ (compile options b).journal → b.HasScope options s := by
    intro s k name hmem
    obtain hmem | hmem := List.mem_append.1 hmem
    · exact b.work_asks options s k name hmem
    · have hclosing := List.mem_singleton.1 hmem
      unfold closing at hclosing
      split at hclosing <;> cases hclosing
  rw [hjournal] at hasks
  have hbefore : (({} : Memos).replayAll before).1.Sound b options :=
    Memos.replayAll_sound Memos.sound_empty fun s k name hmem => hasks s k name (List.mem_append_left _ hmem)
  exact (Memos.resolve_sound hbefore (hasks s k name (by simp)) k name).1

end Workbook
