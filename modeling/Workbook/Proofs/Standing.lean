import Workbook.Proofs.Levels

/-!
# Where columns stand in the output

A page of the output is laid out from its titles: its columns stand side by side over all groups, and the
data rows start below one row of titles, or below two if there is a row of group titles as well. The index
of kept columns is the same layout, looked up by names.
-/

namespace Workbook

/-- The rows above the data rows of a page. -/
def SheetPage.headerRows (p : SheetPage) : Nat := if 1 < p.groups.length then 2 else 1

/-- A column stands on its page with a number, counted from zero from left to right over all groups, and
below a number of header rows. -/
def SheetBook.Stands (b : SheetBook) (key : ColumnKey) (number header : Nat) : Prop :=
  ∃ page ∈ b.pages, page.title = key.page ∧ page.titles[number]? = some (key.group, key.column) ∧
    page.headerRows = header

/-- The header rows of a page are those of the placements on it. -/
theorem SheetPage.headerRows_eq (p : SheetPage) :
    Workbook.headerRows (decide (1 < p.groups.length)) = p.headerRows := by
  unfold Workbook.headerRows SheetPage.headerRows
  simp only [decide_eq_true_eq]

/-- There are two header rows at most. -/
theorem SheetBook.Stands.header_le {b : SheetBook} {key : ColumnKey} {number header : Nat}
    (h : b.Stands key number header) : header ≤ 2 := by
  obtain ⟨page, -, -, -, rfl⟩ := h
  unfold SheetPage.headerRows
  split <;> omega

variable {b : Book} {options : CompileOptions} {key key' : ColumnKey} {number header number' header' : Nat}

/-- The index of kept columns places a column exactly where it stands in the output. -/
theorem stands_iff_get? : (Compile.book options b).value.Stands key number header ↔
    ∃ p, (ColumnIndex.firstSeen b).get? key = some p ∧ p.page = key.page ∧ p.index = number ∧
      p.headerRows = header := by
  constructor
  · rintro ⟨page, hpage, htitle, hnumber, rfl⟩
    have hget := (Compile.describes_book options b).placed page hpage number key.group key.column hnumber
    rw [htitle] at hget
    exact ⟨_, hget, rfl, rfl, page.headerRows_eq⟩
  · rintro ⟨p, hget, -, rfl, rfl⟩
    obtain ⟨q, hq, t, k, ht, rfl, rfl⟩ := ColumnIndex.firstSeen_get?.1 hget
    obtain ⟨page, hpage, houtline⟩ := Compile.exists_output_page options b hq
    refine ⟨page, hpage, title_of_outline houtline, ?_, ?_⟩
    · rw [titles_of_outline houtline]
      exact ht
    · rw [← page.headerRows_eq, length_of_outline houtline]
      rfl

/-- A column stands in one place only. -/
theorem SheetBook.Stands.unique (h : (Compile.book options b).value.Stands key number header)
    (h' : (Compile.book options b).value.Stands key number' header') :
    number = number' ∧ header = header' := by
  obtain ⟨p, hp, -, rfl, rfl⟩ := stands_iff_get?.1 h
  obtain ⟨p', hp', -, rfl, rfl⟩ := stands_iff_get?.1 h'
  obtain rfl : p = p' := Option.some.inj (hp.symm.trans hp')
  exact ⟨rfl, rfl⟩

/-- Columns of one page stand below the same header rows. -/
theorem SheetBook.Stands.header_eq (h : (Compile.book options b).value.Stands key number header)
    (h' : (Compile.book options b).value.Stands key' number' header') (hpage : key.page = key'.page) :
    header = header' := by
  obtain ⟨page, hp, htitle, -, rfl⟩ := h
  obtain ⟨page', hp', htitle', -, rfl⟩ := h'
  have hsame : page = page' := List.inj_on_of_nodup_map (Compile.nodup_pageTitles options b) hp hp'
    (htitle.trans (hpage.trans htitle'.symm))
  rw [hsame]

/-- What is placed stands in the output. -/
theorem stands_of_get? {p : Placement} (h : (ColumnIndex.firstSeen b).get? key = some p) :
    (Compile.book options b).value.Stands key p.index p.headerRows := by
  refine stands_iff_get?.2 ⟨p, h, ?_, rfl, rfl⟩
  obtain ⟨q, _, t, k, _, rfl, rfl⟩ := ColumnIndex.firstSeen_get?.1 h
  rfl

/-- A kept column stands where it is placed. -/
theorem KeptColumn.stands (c : KeptColumn b) (options : CompileOptions) :
    (Compile.book options b).value.Stands c.key c.placement.index c.placement.headerRows :=
  stands_of_get? c.get?_key

/-- The columns that stand in the output are the kept ones. -/
theorem SheetBook.Stands.exists_keptColumn
    (h : (Compile.book options b).value.Stands key number header) : ∃ c : KeptColumn b, c.key = key := by
  obtain ⟨page, hpage, htitle, hnumber, -⟩ := h
  obtain ⟨p, rfl⟩ := Compile.exists_keptPage options hpage
  obtain ⟨group, hgroup, hcolumn⟩ := List.mem_flatMap.1 (List.mem_of_getElem? hnumber)
  obtain ⟨g, rfl, rfl⟩ := p.exists_keptGroup options hgroup
  obtain ⟨column, hmem, hnames⟩ := List.mem_map.1 hcolumn
  obtain ⟨c, rfl, rfl⟩ := g.exists_keptColumn options hmem
  obtain ⟨_, _, _⟩ := key
  cases htitle
  cases hnames
  exact ⟨c, rfl⟩

end Workbook
