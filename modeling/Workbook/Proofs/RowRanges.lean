import Workbook.Proofs.FormulaTrees
import Workbook.Proofs.Repeats
import Workbook.Proofs.Selections

/-!
# Ranges of rows

A range of rows may be written from either of its ends. Its units are put in order by their numbers, before
fixed rows are moved below the header rows and before offsets start from the row of the formula. On the page
of the formula both movements are by the same number of rows, and neither leads out of the grid, so the first
row of the text is never below the last.
-/

namespace Workbook

/-- The rows of a target between two units. -/
def rowRange (t : ColumnTarget) (a b : String) : Selector := .target ⟨t, .units (.range a b)⟩

/-! ## The order of units -/

namespace CellUnit

/-- A row precedes another if it is smaller, or the same and before it in a tie. -/
theorem precedes_iff {a b : CellUnit} :
    a.precedes b ↔ a.value < b.value ∨ (a.value = b.value ∧ a.tie < b.tie) := by
  rw [precedes, Bool.or_eq_true, Bool.and_eq_true, decide_eq_true_eq, decide_eq_true_eq, beq_iff_eq]

/-- No row precedes one that precedes it. -/
theorem not_precedes_of_precedes {a b : CellUnit} (h : a.precedes b) : ¬b.precedes a := by
  rw [precedes_iff] at h ⊢
  omega

/-- Units of which neither comes first are the same. -/
theorem eq_of_not_precedes {a b : CellUnit} (hab : ¬a.precedes b) (hba : ¬b.precedes a) : a = b := by
  rw [precedes_iff] at hab hba
  have hvalue : a.value = b.value := by omega
  have htie : a.tie = b.tie := by omega
  cases a with
  | absolute m =>
    cases b with
    | absolute n => exact congrArg absolute (Int.ofNat.inj hvalue)
    | relative _ => cases htie
  | relative k =>
    cases b with
    | absolute _ => cases htie
    | relative l => exact congrArg relative hvalue

/-- Two units are put in order from either side. -/
theorem ordered_comm (a b : CellUnit) : ordered a b = ordered b a := by
  unfold ordered
  by_cases hba : b.precedes a
  · rw [if_pos hba, if_neg (not_precedes_of_precedes hba)]
  · by_cases hab : a.precedes b
    · rw [if_neg hba, if_pos hab]
    · rw [if_neg hba, if_neg hab, eq_of_not_precedes hab hba]

/-- The second of two units in order does not come before the first. -/
theorem not_precedes_ordered (a b : CellUnit) : ¬(ordered a b).2.precedes (ordered a b).1 := by
  unfold ordered
  by_cases hba : b.precedes a
  · rw [if_pos hba]
    exact not_precedes_of_precedes hba
  · rw [if_neg hba]
    exact hba

/-- The row on which a unit lands after it was moved: offsets start at the origin, and fixed rows are moved
by the header rows but not out of the grid. -/
theorem position_of_placed? {u : CellUnit} {header origin : Nat} {c : A1.Component}
    (h : (u.shift header).placed? origin = some c) :
    (∃ n, u = .absolute n ∧ c.position = min (n + header) (gridSize - 1)) ∨
      ∃ k, u = .relative k ∧ (c.position : Int) = origin + k ∧ c.position < gridSize := by
  cases u with
  | absolute n =>
    have hc : c = ⟨true, min (n + header) (gridSize - 1)⟩ := (Option.some.inj h).symm
    exact .inl ⟨n, rfl, congrArg A1.Component.position hc⟩
  | relative k =>
    obtain ⟨hlow, hhigh, hc⟩ := placed?_relative.1 h
    have hposition : c.position = ((origin : Int) + k).toNat := congrArg A1.Component.position hc
    exact .inr ⟨k, rfl, by omega, by omega⟩

/-- Units in order land in order, when fixed rows are moved as far as the origin of offsets is. -/
theorem position_le {a b : CellUnit} (order : ¬b.precedes a) {header : Nat} {c d : A1.Component}
    (ha : (a.shift header).placed? header = some c) (hb : (b.shift header).placed? header = some d) :
    c.position ≤ d.position := by
  have hsize : 0 < gridSize := by decide
  rw [precedes_iff] at order
  -- a tie between the kinds decides only that an offset comes before the fixed row of its number
  obtain ⟨m, rfl, hc⟩ | ⟨k, rfl, hc, hlast⟩ := position_of_placed? ha
  · obtain ⟨n, rfl, hd⟩ | ⟨l, rfl, hd, hlast⟩ := position_of_placed? hb
    · simp only [value, tie] at order
      omega
    · simp only [value, tie] at order
      omega
  · obtain ⟨n, rfl, hd⟩ | ⟨l, rfl, hd, -⟩ := position_of_placed? hb
    · simp only [value, tie] at order
      omega
    · simp only [value, tie] at order
      omega

end CellUnit

/-! ## The addresses of ranges -/

namespace Selector

/-- The rows between two units are found when both are read, in whatever order they are written. -/
theorem toOption_resolveRows_range (column : CellUnit) (header : Nat) (path : Path) (a b : String) :
    (resolveRows column header path (.units (.range a b))).toOption =
      (CellUnit.ofChars? a.toList).bind fun x => (CellUnit.ofChars? b.toList).map fun y =>
        ((CellUnit.ordered x y).1.shift header,
          some (.cell ⟨column, (CellUnit.ordered x y).2.shift header⟩)) := by
  rw [resolveRows, toOption_bind, CellUnit.toOption_parse_eq]
  congr 1
  funext x
  rw [toOption_bind, CellUnit.toOption_parse_eq]
  cases CellUnit.ofChars? b.toList <;> rfl

/-- A range of rows and the range that is written from its other end are one. -/
theorem toOption_resolveRows_swap (column : CellUnit) (header : Nat) (path : Path) (a b : String) :
    (resolveRows column header path (.units (.range a b))).toOption =
      (resolveRows column header path (.units (.range b a))).toOption := by
  rw [toOption_resolveRows_range, toOption_resolveRows_range]
  cases CellUnit.ofChars? a.toList with
  | none => cases CellUnit.ofChars? b.toList <;> rfl
  | some x =>
    cases CellUnit.ofChars? b.toList with
    | none => rfl
    | some y =>
      have hswap := CellUnit.ordered_comm x y
      simp only [Option.bind_some, Option.map_some, hswap]

/-- Swapping the ends of a range of rows changes nothing about its address. -/
theorem toOption_resolve_swap (v : Vantage) (t : ColumnTarget) (a b : String) (path : Path) :
    ((rowRange t a b).resolve v path).toOption = ((rowRange t b a).resolve v path).toOption := by
  rw [rowRange, rowRange, resolve, resolve, toOption_bind, toOption_bind]
  congr 1
  funext found
  rw [toOption_bind, toOption_bind, toOption_resolveRows_swap]

/-- The address of a range in a column that is placed has two units of one column, in their order. -/
theorem exists_units_of_resolve {v : Vantage} {t : ColumnTarget} {a b : String} {path : Path}
    {target : Placement} {address : Address} (hget : v.columns.get? (t.key v.key) = some target)
    (h : (rowRange t a b).resolve v path = .ok address) :
    ∃ (page : Option String) (column first last : CellUnit), ¬last.precedes first ∧
      address = ⟨page, ⟨column, first.shift target.headerRows⟩,
        some (.cell ⟨column, last.shift target.headerRows⟩)⟩ := by
  obtain ⟨⟨column, placement⟩, hcolumn, h⟩ := bind_eq_ok h
  have hfound := (Vantage.resolveColumn_of_get? hget path).symm.trans hcolumn
  have hplacement : target = placement := (Prod.mk.inj (Except.ok.inj hfound)).2
  obtain ⟨⟨row, far⟩, hrows, haddress⟩ := bind_eq_ok h
  have hoption := toOption_resolveRows_range column placement.headerRows (path.key "rows") a b
  rw [hrows] at hoption
  obtain ⟨x, -, hx⟩ := Option.bind_eq_some_iff.1 hoption.symm
  obtain ⟨y, -, hy⟩ := Option.map_eq_some_iff.1 hx
  have hunits := Prod.mk.inj hy
  refine ⟨if placement.page = v.key.page then none else some placement.page, column,
    (CellUnit.ordered x y).1, (CellUnit.ordered x y).2, CellUnit.not_precedes_ordered x y, ?_⟩
  rw [hplacement, hunits.1, hunits.2]
  exact (Except.ok.inj haddress).symm

end Selector

/-- The reference that a range of cells is for a formula. -/
theorem Address.placed?_range {page : Option String} {p q : CellPosition} {column row : Nat}
    {r : A1.Reference} (h : (⟨page, p, some (.cell q)⟩ : Address).placed? column row = some r) :
    ∃ last, r.last = some (.cell last) ∧ p.row.placed? row = some r.first.row ∧
      q.row.placed? row = some last.row := by
  obtain ⟨c, hc, h⟩ := Option.bind_eq_some_iff.1 h
  obtain ⟨_, he, h⟩ := Option.bind_eq_some_iff.1 h
  obtain ⟨_, hcell, rfl⟩ := Option.map_eq_some_iff.1 he
  obtain ⟨d, hd, rfl⟩ := Option.map_eq_some_iff.1 hcell
  have hr : r = ⟨page, c, some (.cell d)⟩ := (Option.some.inj h).symm
  have hrow {s : CellPosition} {e : A1.Cell} (hs : s.placed? column row = some e) :
      s.row.placed? row = some e.row := by
    obtain ⟨u, -, hs⟩ := Option.bind_eq_some_iff.1 hs
    obtain ⟨w, hw, hs⟩ := Option.bind_eq_some_iff.1 hs
    have he : e = ⟨u, w⟩ := (Option.some.inj hs).symm
    rw [hw, he]
  rw [hr]
  exact ⟨d, rfl, hrow hc, hrow hd⟩

/-! ## Columns of one page -/

/-- Two columns are placed on one page: under one name, and both or neither below a row of group titles. In
the index of all columns of a book that repeats a page name, columns of different pages can have one name. -/
def Placement.SharesPage (p q : Placement) : Prop := p.page = q.page ∧ p.grouped = q.grouped

namespace ColumnIndex

/-- What is placed after some columns were indexed was placed before, or is one of them. -/
theorem mem_of_get?_add {index : ColumnIndex} {os : List Occurrence} {key : ColumnKey} {p : Placement}
    (h : (add index os).1.get? key = some p) :
    index.get? key = some p ∨ (key, p) ∈ os.map fun o => (o.key, o.placement) := by
  induction os generalizing index with
  | nil => exact .inl h
  | cons o rest ih =>
    have hnext : (add (index.insert o.key o.placement) rest).1.get? key = some p := h
    obtain hbefore | hrest := ih hnext
    · rw [get?_insert] at hbefore
      split at hbefore
      · rename_i hkey
        have hp : o.placement = p := Option.some.inj hbefore
        rw [hkey, ← hp]
        exact .inr List.mem_cons_self
      · exact .inl hbefore
    · exact .inr (List.mem_cons_of_mem _ hrest)

/-- An index of a book places a column on a page of the book, below its titles. -/
theorem exists_page_of_get? {b : Book} {key : ColumnKey} {p : Placement}
    (h : (build b).1.get? key = some p) :
    ∃ page ∈ b.pages, key.page = page.name ∧ p.page = page.name ∧
      p.grouped = decide (1 < page.groups.length) := by
  obtain hnone | hmem := mem_of_get?_add h
  · cases hnone
  · rw [Book.entries_occurrences, Book.entries, List.mem_flatMap] at hmem
    obtain ⟨page, hpage, hentry⟩ := hmem
    obtain ⟨t, k, -, he⟩ := mem_entriesOn.1 hentry
    obtain ⟨hkey, hp⟩ := Prod.mk.inj he
    rw [hkey, hp]
    exact ⟨page, hpage, rfl, rfl, rfl⟩

/-- In a book whose pages have different names, columns under one page name are on one page. -/
theorem sharesPage_of_nodup {b : Book} (hn : (b.pages.map Page.name).Nodup) {key key' : ColumnKey}
    {p q : Placement} (hp : (build b).1.get? key = some p) (hq : (build b).1.get? key' = some q)
    (hpage : q.page = key.page) : p.SharesPage q := by
  obtain ⟨page, hmem, hkey, hname, hgrouped⟩ := exists_page_of_get? hp
  obtain ⟨page', hmem', -, hname', hgrouped'⟩ := exists_page_of_get? hq
  have hsame : page = page' := List.inj_on_of_nodup_map hn hmem hmem'
    (hkey.symm.trans (hpage.symm.trans hname'))
  rw [← hsame] at hname' hgrouped'
  exact ⟨hname.trans hname'.symm, hgrouped.trans hgrouped'.symm⟩

end ColumnIndex

/-- A range of rows has the same address from either of its ends, or none from both. On the formula's own
page, in a formula for the first data cell of its column, its first row is not below its last. The page of
a column is told by its name in the index of kept columns, and in any index of a book whose pages have
different names. -/
theorem row_ranges_swap_and_ascend (v : Vantage) (t : ColumnTarget) (a b : String) (path : Path) :
    ((rowRange t a b).resolve v path).toOption = ((rowRange t b a).resolve v path).toOption ∧
    ∀ own target, v.columns.get? v.key = some own → v.columns.get? (t.key v.key) = some target →
      ((∃ book, v.columns = .firstSeen book ∨
          v.columns = (ColumnIndex.build book).1 ∧ (book.pages.map Page.name).Nodup) →
        target.page = v.key.page → own.SharesPage target) ∧
      (own.SharesPage target → ∀ text,
        (FormulaCell.mk v own.index own.headerRows).selectorText (rowRange t a b) path = .ok text →
          ∃ r last, A1.reference? text.toList = some (r, []) ∧ r.last = some (.cell last) ∧
            r.first.row.position ≤ last.row.position) := by
  refine ⟨Selector.toOption_resolve_swap v t a b path, fun own target hown htarget => ⟨?_, ?_⟩⟩
  · rintro ⟨book, hindex⟩ hpage
    obtain hkept | ⟨hall, hn⟩ := hindex
    · rw [hkept] at hown htarget
      exact ColumnIndex.sharesPage_of_nodup book.distinct_kept.pages hown htarget hpage
    · rw [hall] at hown htarget
      exact ColumnIndex.sharesPage_of_nodup hn hown htarget hpage
  · intro hshares text htext
    obtain ⟨address, r, hresolve, hplaced, rfl⟩ := FormulaCell.placed_of_selectorText htext
    obtain ⟨page, column, first, last, order, haddress⟩ := Selector.exists_units_of_resolve htarget hresolve
    have hheader : own.headerRows = target.headerRows := congrArg headerRows hshares.2
    rw [haddress] at hplaced
    obtain ⟨cell, hcell, hfirst, hlast⟩ := Address.placed?_range hplaced
    rw [← hheader] at hfirst hlast
    exact ⟨r, cell, A1.reference?_ofList r, hcell, CellUnit.position_le order hfirst hlast⟩

/-- A book whose only page has group titles. -/
def titled : Book where
  name := "Book"
  pages := [{
    name := "A"
    rows := 5
    groups := [
      { name := "G1", columns := [{ name := "a", dataType := .inline (.text {}) }] },
      { name := "G2", columns := [{ name := "b", dataType := .inline (.text {}) }] }] }]

/-- The first column of this book. -/
def titledVantage : Vantage := ⟨.firstSeen titled, ⟨"A", "G1", "a"⟩⟩

/-- A fixed row and an offset that have one number land on one row. -/
theorem row_ranges_swap_and_ascend_tie :
    (FormulaCell.mk titledVantage 0 2).selectorText
      (rowRange (.column ⟨none, some "G2", "b"⟩) "$2" "+2") .root = .ok "$B5:$B$5" ∧
    ∃ r last, A1.reference? "$B5:$B$5".toList = some (r, []) ∧ r.last = some (.cell last) ∧
      r.first.row.position ≤ last.row.position := by
  have hown : titledVantage.columns.get? titledVantage.key = some ⟨"A", true, 0⟩ := by decide
  have htarget : titledVantage.columns.get?
      ((ColumnTarget.column ⟨none, some "G2", "b"⟩).key titledVantage.key) = some ⟨"A", true, 1⟩ := by decide
  have htext : (FormulaCell.mk titledVantage 0 2).selectorText
      (rowRange (.column ⟨none, some "G2", "b"⟩) "$2" "+2") .root = .ok "$B5:$B$5" :=
    eq_ok_of_toOption (by decide +kernel)
  obtain ⟨hpage, hascend⟩ := (row_ranges_swap_and_ascend titledVantage (.column ⟨none, some "G2", "b"⟩)
    "$2" "+2" .root).2 _ _ hown htarget
  have hshares : Placement.SharesPage ⟨"A", true, 0⟩ ⟨"A", true, 1⟩ := hpage ⟨titled, .inl rfl⟩ rfl
  exact ⟨htext, hascend hshares _ htext⟩

end Workbook
