import Workbook.Proofs.Journals
import Workbook.Proofs.Placement

/-!
# What the metrics count

A compilation records a part of the book when it starts with it, before it is known what becomes of it. The
parts that the journal records are still those of the output, each in front of its members: a repeated name
is passed over before anything is recorded, a column that is started is in the index and so in the output,
and a formula is recorded after it was made. The numbers that are counted along the journal are therefore
numbers of the output.
-/

namespace Workbook

/-! ## Parts of a journal -/

/-- The part that an entry of a journal records. -/
def Entry.part? : Entry → Option Part
  | .lookup _ _ _ => none
  | .compiled part => some part
  | .note _ _ => none

/-- The number of parts of a kind is their number among the recorded parts. -/
theorem partCount_eq_count (part : Part) (journal : List Entry) :
    partCount part journal = (journal.filterMap Entry.part?).count part := by
  rw [partCount, List.count, List.countP_filterMap]
  refine List.countP_congr fun e _ => ?_
  cases e <;> simp [Entry.part?]

namespace Outcome

variable {α β : Type}

/-- The parts that some work records, in their order. -/
def parts (o : Outcome α) : List Part := o.journal.filterMap Entry.part?

@[simp] theorem parts_pure (a : α) : (pure a : Outcome α).parts = [] := rfl

@[simp] theorem parts_bind (a : Outcome α) (f : α → Outcome β) :
    (a >>= f).parts = a.parts ++ (f a.value).parts :=
  List.filterMap_append

@[simp] theorem parts_report (i : Issue) : (report i).parts = [] := rfl

@[simp] theorem parts_compiled (part : Part) : (record (.compiled part)).parts = [part] := rfl

@[simp] theorem parts_note (level : LogLevel) (text : String) : (record (.note level text)).parts = [] := rfl

@[simp] theorem parts_ofExcept (r : Except Issue α) : (ofExcept r).parts = [] := by
  cases r <;> rfl

@[simp] theorem parts_forM_report (issues : List Issue) :
    (forM issues report : Outcome PUnit).parts = [] := by
  induction issues with
  | nil => rfl
  | cons i rest ih => rw [List.forM_cons, parts_bind, ih, parts_report, List.nil_append]

/-- Questions about a scope record no part. -/
theorem Consults.parts_eq_nil {s : Scope} {o : Outcome α} (h : o.Consults s) : o.parts = [] := by
  rw [parts, List.filterMap_eq_nil_iff]
  intro e he
  obtain ⟨k, name, rfl⟩ := h e he
  rfl

end Outcome

/-! ## Parts of the output -/

/-- The column and the formula in it. -/
def SheetColumn.parts (c : SheetColumn) : List Part :=
  .column :: if c.valueExpression.isSome then [.formula] else []

/-- The group and the parts of its columns. -/
def SheetGroup.parts (g : SheetGroup) : List Part := .group :: g.columns.flatMap SheetColumn.parts

/-- The page and the parts of its groups. -/
def SheetPage.parts (p : SheetPage) : List Part := .page :: p.groups.flatMap SheetGroup.parts

/-- The parts of the pages of a book. -/
def SheetBook.parts (b : SheetBook) : List Part := b.pages.flatMap SheetPage.parts

/-! ## The walk records what it puts out -/

namespace Compile

/-- A formula is recorded if there is one. -/
theorem parts_value (cell : FormulaCell) (path : Path) (e : Expression) :
    (value cell path e).parts = if (value cell path e).value.isSome then [.formula] else [] := by
  unfold value
  cases Formula.ofExpression cell path e <;> rfl

/-- A column value records a formula if it has one. -/
theorem parts_forOption_value (cell : FormulaCell) (path : Path) (e : Option Expression) :
    (Outcome.forOption (value cell path) e).parts =
      if (Outcome.forOption (value cell path) e).value.isSome then [.formula] else [] := by
  cases e with
  | none => rfl
  | some e => exact parts_value cell path e

/-- A column that is placed records the parts of its output. -/
theorem parts_column {index : ColumnIndex} {page group : String} (around : Scope) (theme : SheetTheme)
    (site : Site) (path : Path) {c : Column} (h : (index.get? ⟨page, group, c.name⟩).isSome) :
    (column index page group around theme site path c).parts =
      (column index page group around theme site path c).value.toList.flatMap SheetColumn.parts := by
  obtain ⟨placement, hget⟩ := Option.isSome_iff_exists.1 h
  unfold column
  simp only [Outcome.parts_bind, Outcome.value_bind, Outcome.parts_compiled,
    (levelTheme_consults _ _ _ _).parts_eq_nil, List.nil_append]
  rw [hget]
  simp only [Outcome.parts_bind, Outcome.value_bind, Outcome.parts_pure, Outcome.value_pure,
    (behavior_consults _ _ _).parts_eq_nil, parts_forOption_value, List.nil_append, List.append_nil,
    Option.toList_some, List.flatMap_singleton]
  rfl

/-- The columns of a group record the parts of what they become. -/
theorem parts_columns (index : ColumnIndex) (page group : String) (around : Scope) (theme : SheetTheme)
    (site : Site) (path : Path) (seen : List String) (k : Nat) {cs : List Column}
    (h : ∀ c ∈ keepFirst Column.name seen cs, (index.get? ⟨page, group, c.name⟩).isSome) :
    (columns index page group around theme site path seen k cs).parts =
      (columns index page group around theme site path seen k cs).value.flatMap SheetColumn.parts := by
  induction cs generalizing seen k with
  | nil => rfl
  | cons c cs ih =>
    rw [keepFirst] at h
    rw [columns]
    split
    · rename_i again
      rw [if_pos again] at h
      exact ih seen (k + 1) h
    · rename_i fresh
      rw [if_neg fresh, List.forall_mem_cons] at h
      rw [Outcome.parts_bind, parts_column _ _ _ _ h.1, Outcome.parts_bind, ih _ _ h.2, Outcome.parts_pure,
        List.append_nil, ← List.flatMap_append]
      rfl

/-- A group whose kept columns are placed records the parts of its output. -/
theorem parts_group {index : ColumnIndex} {page : String} (around : Scope) (theme : SheetTheme)
    (site : Site) (path : Path) {g : Group} (h : g.Placed index page) :
    (group index page around theme site path g).parts =
      (group index page around theme site path g).value.parts := by
  unfold group
  simp only [Outcome.parts_bind, Outcome.value_bind, Outcome.parts_compiled, Outcome.parts_pure,
    (levelTheme_consults _ _ _ _).parts_eq_nil, parts_columns _ _ _ _ _ _ _ _ _ h, List.nil_append,
    List.append_nil]
  rfl

/-- The groups of a page record the parts of what they become. -/
theorem parts_groups (index : ColumnIndex) (page : String) (around : Scope) (theme : SheetTheme)
    (site : Site) (path : Path) (seen : List String) (j : Nat) {gs : List Group}
    (h : ∀ g ∈ keepFirst Group.name seen gs, g.Placed index page) :
    (groups index page around theme site path seen j gs).parts =
      (groups index page around theme site path seen j gs).value.flatMap SheetGroup.parts := by
  induction gs generalizing seen j with
  | nil => rfl
  | cons g gs ih =>
    rw [keepFirst] at h
    rw [groups]
    split
    · rename_i again
      rw [if_pos again] at h
      rw [Outcome.parts_bind, ih _ _ h]
      rfl
    · rename_i fresh
      rw [if_neg fresh, List.forall_mem_cons] at h
      rw [Outcome.parts_bind, parts_group _ _ _ _ h.1, Outcome.parts_bind, ih _ _ h.2, Outcome.parts_pure,
        List.append_nil]
      rfl

/-- A page whose kept columns are placed records the parts of its output. -/
theorem parts_page {index : ColumnIndex} (around : Scope) (theme : SheetTheme) (site : Site) (path : Path)
    {p : Page} (h : p.Placed index) :
    (page index around theme site path p).parts = (page index around theme site path p).value.parts := by
  unfold page
  simp only [Outcome.parts_bind, Outcome.value_bind, Outcome.parts_compiled, Outcome.parts_pure, pageNote,
    Outcome.parts_note, (levelTheme_consults _ _ _ _).parts_eq_nil, parts_groups _ _ _ _ _ _ _ _ h,
    List.nil_append, List.append_nil]
  rfl

/-- The pages of a book record the parts of what they become. -/
theorem parts_pages (index : ColumnIndex) (around : Scope) (theme : SheetTheme) (path : Path)
    (seen : List String) (i : Nat) {ps : List Page}
    (h : ∀ p ∈ keepFirst Page.name seen ps, p.Placed index) :
    (pages index around theme path seen i ps).parts =
      (pages index around theme path seen i ps).value.flatMap SheetPage.parts := by
  induction ps generalizing seen i with
  | nil => rfl
  | cons p ps ih =>
    rw [keepFirst] at h
    rw [pages]
    split
    · rename_i again
      rw [if_pos again] at h
      rw [Outcome.parts_bind, ih _ _ h]
      rfl
    · rename_i fresh
      rw [if_neg fresh, List.forall_mem_cons] at h
      rw [Outcome.parts_bind, parts_page _ _ _ _ h.1, Outcome.parts_bind, ih _ _ h.2, Outcome.parts_pure,
        List.append_nil]
      rfl

/-- A compilation records the parts of its output, each in front of its members. -/
theorem parts_book (options : CompileOptions) (b : Book) :
    (book options b).parts = (book options b).value.parts := by
  unfold book
  simp only [Outcome.parts_bind, Outcome.value_bind, Outcome.parts_pure, Outcome.parts_note,
    List.forM_eq_forM, Outcome.parts_forM_report, (levelTheme_consults _ _ _ _).parts_eq_nil,
    parts_pages _ _ _ _ _ _ fun _ => Book.placed_firstSeen, List.nil_append, List.append_nil]
  rfl

end Compile

/-! ## Numbers of parts -/

/-- Of lists that all begin with one part, the first parts and the others are counted apart. -/
theorem count_flatMap_cons {α : Type} (first part : Part) (f : α → List Part) (as : List α) :
    (as.flatMap fun a => first :: f a).count part =
      (if first = part then as.length else 0) + (as.flatMap f).count part := by
  induction as with
  | nil => simp
  | cons a rest ih =>
    simp only [List.flatMap_cons, List.count_append, List.count_cons, List.length_cons, beq_iff_eq, ih]
    split <;> omega

namespace SheetBook

/-- The groups of all pages. -/
def groups (b : SheetBook) : List SheetGroup := b.pages.flatMap SheetPage.groups

/-- The columns of all groups. -/
def columns (b : SheetBook) : List SheetColumn := b.groups.flatMap SheetGroup.columns

/-- The number of columns that have a formula for their value. -/
def formulas (b : SheetBook) : Nat := b.columns.countP (·.valueExpression.isSome)

/-- The parts of a book are its pages, groups and columns, and the formulas of its columns. -/
theorem count_parts (b : SheetBook) (part : Part) : b.parts.count part =
    (if .page = part then b.pages.length else 0) + ((if .group = part then b.groups.length else 0) +
      ((if .column = part then b.columns.length else 0) + if .formula = part then b.formulas else 0)) := by
  have hformulas (cs : List SheetColumn) :
      (cs.flatMap fun c => if c.valueExpression.isSome then [Part.formula] else []).count part =
        if .formula = part then cs.countP (·.valueExpression.isSome) else 0 := by
    induction cs with
    | nil => simp
    | cons c rest ih =>
      rw [List.flatMap_cons, List.count_append, ih, List.countP_cons]
      cases c.valueExpression <;> cases part <;> simp [Nat.add_comm]
  unfold parts SheetPage.parts
  rw [count_flatMap_cons, ← List.flatMap_assoc]
  unfold SheetGroup.parts
  rw [count_flatMap_cons, ← List.flatMap_assoc]
  unfold SheetColumn.parts
  rw [count_flatMap_cons, hformulas]
  rfl

end SheetBook

/-- The numbers of a book of the output and of the issues of its making. -/
def Metrics.ofOutput (b : SheetBook) (issues : List Issue) : Metrics where
  pages := b.pages.length
  groups := b.groups.length
  columns := b.columns.length
  formulas := b.formulas
  issues := issues.length

/-- What is counted along the journal of a compilation is what its output has. -/
theorem Metrics.of_book (options : CompileOptions) (b : Book) :
    Metrics.of (Compile.book options b) =
      ofOutput (Compile.book options b).value (Compile.book options b).issues := by
  have hcount (part : Part) : partCount part (Compile.book options b).journal =
      (Compile.book options b).value.parts.count part := by
    rw [partCount_eq_count, ← Compile.parts_book]
    rfl
  unfold Metrics.of ofOutput
  simp only [hcount, SheetBook.count_parts, reduceCtorEq, if_true, if_false, Nat.add_zero, Nat.zero_add]

/-- The metrics of a compilation, if it has any, are the numbers of pages, groups, columns and columns with
a formula in its output, and of its issues. With metrics or without, the output, the issues and the journal
are the same. -/
theorem metrics_count_output (options : CompileOptions) (b : Book) :
    let c := Compilation.compile options b
    c.metrics = (if options.metrics then some (Metrics.ofOutput c.book c.issues) else none) ∧
      ∀ counted, Compilation.compile { options with metrics := counted } b =
        { c with metrics := if counted then some (Metrics.ofOutput c.book c.issues) else none } := by
  have hmetrics (options : CompileOptions) : (Compilation.compile options b).metrics =
      if options.metrics then some (Metrics.ofOutput (Compilation.compile options b).book
        (Compilation.compile options b).issues) else none :=
    congrArg (fun m => if options.metrics then some m else none) (Metrics.of_book options b)
  refine ⟨hmetrics options, fun counted => ?_⟩
  -- the work never reads whether it is counted
  have hwork : Compile.book { options with metrics := counted } b = Compile.book options b := rfl
  have hcounted := hmetrics { options with metrics := counted }
  unfold Compilation.compile at hcounted ⊢
  rw [hwork] at hcounted ⊢
  rw [Compilation.mk.injEq]
  exact ⟨rfl, rfl, hcounted, rfl⟩

end Workbook
