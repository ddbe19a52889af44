import Workbook.Proofs.RenderedSelectors

/-!
# Offsets and fixed rows

A formula is written for the first data cell of its column. From there an offset counts rows of the sheet,
while a fixed row counts data rows of the target. The two meet on pages with the same number of header rows,
such as the formula's own, and are one row apart where one page has group titles and the other has none.
-/

namespace Workbook

/-- In the formulas of a book an offset and a fixed row with one number name one row of the sheet. -/
def Book.RowsAligned (b : Book) : Prop :=
  ∀ (c : KeptColumn b) (t : ColumnTarget) (path : Path) (n : Nat) (forward fixed : String),
    WrittenUnit forward '+' n → WrittenUnit fixed '$' n → ∀ r r' : A1.Reference,
      A1.Reads (c.cell.selectorText (.target ⟨t, .units (.single forward)⟩) path) r →
      A1.Reads (c.cell.selectorText (.target ⟨t, .units (.single fixed)⟩) path) r' →
      r.first.row.position = r'.first.row.position

/-- A text is read as one reference. -/
theorem A1.Reads.unique {made : Except Issue String} {r r' : A1.Reference} (h : Reads made r)
    (h' : Reads made r') : r = r' := by
  obtain ⟨text, rfl, hr⟩ := h
  obtain ⟨text', htext, hr'⟩ := h'
  cases htext
  cases hr.symm.trans hr'
  rfl

/-- From the first data cell, offsets name rows below the header rows of the formula's page and fixed rows
name rows below the header rows of the target's page. So an offset and a fixed row with one number name one
row of the sheet exactly when the two pages have the same number of header rows, as columns of one page
do. -/
theorem rows_aligned_iff_headers (options : CompileOptions) (b : Book) (c : KeptColumn b) :
    ∃ place own, (Compilation.compile options b).book.Stands c.key place own ∧
      ∀ (t : ColumnTarget) (number header : Nat) (path : Path),
        (Compilation.compile options b).book.Stands (t.key c.key) number header → t.Lands number →
        ((t.key c.key).page = c.key.page → own = header) ∧
        A1.Reads (c.cell.selectorText (.target ⟨t, .own⟩) path)
          ⟨c.key.qualifier (t.key c.key), ⟨t.component number, ⟨false, own⟩⟩, none⟩ ∧
        ∀ (n : Nat) (forward fixed : String), WrittenUnit forward '+' n → WrittenUnit fixed '$' n →
          own + n < gridSize → header + n < gridSize →
          A1.Reads (c.cell.selectorText (.target ⟨t, .units (.single forward)⟩) path)
            ⟨c.key.qualifier (t.key c.key), ⟨t.component number, ⟨false, own + n⟩⟩, none⟩ ∧
          A1.Reads (c.cell.selectorText (.target ⟨t, .units (.single fixed)⟩) path)
            ⟨c.key.qualifier (t.key c.key), ⟨t.component number, ⟨true, header + n⟩⟩, none⟩ ∧
          ∀ r r' : A1.Reference,
            A1.Reads (c.cell.selectorText (.target ⟨t, .units (.single forward)⟩) path) r →
            A1.Reads (c.cell.selectorText (.target ⟨t, .units (.single fixed)⟩) path) r' →
            (r.first.row.position = r'.first.row.position ↔ own = header) := by
  have hstands := c.stands options
  refine ⟨_, _, hstands, fun t number header path h hcolumn =>
    ⟨fun hpage => hstands.header_eq h hpage.symm, c.reads_ownRow h hcolumn path, ?_⟩⟩
  intro n forward fixed hforward hfixed hown hheader
  have hoffset : A1.Reads (c.cell.selectorText (.target ⟨t, .units (.single forward)⟩) path)
      ⟨c.key.qualifier (t.key c.key), ⟨t.component number, ⟨false, c.placement.headerRows + n⟩⟩,
        none⟩ := by
    have hrow : (c.cell.row : Int) + n = (c.placement.headerRows + n : Nat) := (Int.natCast_add _ _).symm
    have hreads := c.reads_offset h hcolumn ⟨n, .inl ⟨hforward, rfl⟩⟩ (by omega) (by omega) path
    rwa [hrow, Int.toNat_natCast] at hreads
  have hrow := c.reads_fixedRow h hcolumn hfixed hheader path
  refine ⟨hoffset, hrow, fun r r' hr hr' => ?_⟩
  rw [hr.unique hoffset, hr'.unique hrow]
  exact Nat.add_right_cancel_iff

/-- A page with group titles and two columns. -/
def staggeredFirst : Page where
  name := "A"
  rows := 5
  groups := [
    { name := "G1", columns := [{ name := "a", dataType := .inline (.text {}) }] },
    { name := "G2", columns := [{ name := "b", dataType := .inline (.text {}) }] }]

/-- A book with group titles on its first page and none on its second. -/
def staggered : Book where
  name := "Book"
  pages := [staggeredFirst,
    { name := "B", rows := 5, groups := [
      { name := "G", columns := [{ name := "x", dataType := .inline (.text {}) }] }] }]

/-- The first column of its first page. -/
def staggeredColumn : KeptColumn staggered where
  pageNumber := 0
  page := staggeredFirst
  firstPage := .of_nodup (by decide) rfl
  groupNumber := 0
  group := { name := "G1", columns := [{ name := "a", dataType := .inline (.text {}) }] }
  firstGroup := .of_nodup (by decide) rfl
  columnNumber := 0
  column := { name := "a", dataType := .inline (.text {}) }
  firstColumn := .of_nodup (by decide) rfl

/-- In this book an offset of zero from the first page names the second data row of the second page, and the
fixed row zero names the first. -/
theorem staggered_not_aligned : ¬staggered.RowsAligned := by
  intro aligned
  have hkey : (Compile.book {} staggered).value.Stands ⟨"B", "G", "x"⟩ 0 1 :=
    stands_iff_get?.2 ⟨⟨"B", false, 0⟩, by decide, rfl, rfl, rfl⟩
  have hown : (Compile.book {} staggered).value.Stands staggeredColumn.key 0 2 :=
    stands_iff_get?.2 ⟨⟨"A", true, 0⟩, by decide, rfl, rfl, rfl⟩
  have hrow : staggeredColumn.cell.row = 2 := ((staggeredColumn.stands {}).unique hown).2
  have htarget : staggeredColumn.TargetStands {} (.column ⟨some "B", some "G", "x"⟩) 0 1 := hkey
  have hforward : WrittenUnit "+0" '+' 0 := writtenUnit_digits (by decide) 0
  have hfixed : WrittenUnit "$0" '$' 0 := writtenUnit_digits (by decide) 0
  have hoffset := staggeredColumn.reads_offset htarget nofun ⟨0, .inl ⟨hforward, rfl⟩⟩ (by omega)
    (by rw [hrow]; decide) .root
  have hdata := staggeredColumn.reads_fixedRow htarget nofun hfixed (by decide) .root
  have hsame := aligned _ _ _ _ _ _ hforward hfixed _ _ hoffset hdata
  rw [hrow] at hsame
  cases hsame

end Workbook
