import Workbook.Proofs.FormulaFailures
import Workbook.Proofs.RowRanges
import Workbook.Proofs.RowUnits

/-!
# The edges of the grid

A row of an address is fixed, or it is an offset from the cell of the formula. An offset that leads out of
the grid is refused, and the refusal has one wording for both edges: the row is said to be before the first
one, also where it is behind the last. A fixed row that would be moved out of the grid is not refused. It
becomes the last row, which is then the row of several numbers.
-/

namespace Workbook

open Formula (failure? failure?_bind failure?_bind_pure failure?_map failure?_eq_none_iff
  failure?_eq_some_iff)

/-! ## Components that do not land -/

/-- A position is one of the grid. -/
def InGrid (n : Int) : Prop := 0 ≤ n ∧ n < gridSize

instance (n : Int) : Decidable (InGrid n) := inferInstanceAs (Decidable (_ ∧ _))

namespace CellUnit

/-- The offset of a component that does not land in the grid. -/
def astray? (origin : Nat) : CellUnit → Option Int
  | .absolute _ => none
  | .relative k => if InGrid (origin + k) then none else some k

variable {origin : Nat} {u : CellUnit} {k : Int}

/-- A component goes astray with its offset, if the offset leads out of the grid. -/
theorem astray?_eq_some_iff : u.astray? origin = some k ↔ u = .relative k ∧ ¬InGrid (origin + k) := by
  cases u with
  | absolute n => exact ⟨nofun, nofun⟩
  | relative l =>
    rw [astray?]
    split
    · rename_i lands
      refine ⟨nofun, fun ⟨hl, out⟩ => ?_⟩
      cases hl
      exact absurd lands out
    · rename_i out
      refine ⟨fun h => ?_, fun h => congrArg some (relative.inj h.1)⟩
      cases h
      exact ⟨rfl, out⟩

/-- A component does not go astray if its offset, where it has one, leads into the grid. -/
theorem astray?_eq_none_iff : u.astray? origin = none ↔ ∀ k, u = .relative k → InGrid (origin + k) := by
  rw [Option.eq_none_iff_forall_ne_some]
  refine forall_congr' fun k => ?_
  rw [Ne, astray?_eq_some_iff, not_and, not_not]

/-- The origin itself lands. -/
theorem astray?_zero (ho : origin < gridSize) : (relative 0).astray? origin = none := by
  refine astray?_eq_none_iff.2 fun k hk => ?_
  cases hk
  exact ⟨by omega, by omega⟩

end CellUnit

namespace Address

variable {column row : Nat}

/-- An offset lands where it leads, if that is in the grid. -/
theorem landing?_eq (origin : Nat) (k : Int) :
    landing? origin k = if InGrid (origin + k) then some (origin + k : Int).toNat else none := by
  by_cases h : InGrid (origin + k)
  · rw [if_pos h, landing?, if_pos (by simpa [InGrid] using h)]
  · rw [if_neg h, landing?, if_neg (by simpa [InGrid] using h)]

/-- The text of a column fails with the offset that leads out of the grid. -/
theorem failure?_columnText (origin : Nat) (u : CellUnit) :
    failure? (columnText origin u) = (u.astray? origin).map (.column origin) := by
  cases u with
  | absolute n => rfl
  | relative k =>
    rw [columnText, landing?_eq, CellUnit.astray?]
    by_cases h : InGrid (origin + k)
    · rw [if_pos h, if_pos h]
      rfl
    · rw [if_neg h, if_neg h]
      rfl

/-- The text of a row fails with the offset that leads out of the grid. -/
theorem failure?_rowText (origin : Nat) (u : CellUnit) :
    failure? (rowText origin u) = (u.astray? origin).map (.row origin) := by
  cases u with
  | absolute n => rfl
  | relative k =>
    rw [rowText, landing?_eq, CellUnit.astray?]
    by_cases h : InGrid (origin + k)
    · rw [if_pos h, if_pos h]
      rfl
    · rw [if_neg h, if_neg h]
      rfl

/-- A cell whose column lands fails with its row. -/
theorem failure?_cellText {p : CellPosition} (h : p.column.astray? column = none) :
    failure? (cellText column row p) = (p.row.astray? row).map (.row row) := by
  have hrow (c : List Char) : failure? (do let r ← rowText row p.row; return c ++ r) =
      (p.row.astray? row).map (.row row) := by
    rw [failure?_bind_pure, failure?_rowText]
  rw [cellText, failure?_bind hrow, failure?_columnText, h, Option.map_none, Option.none_or]

/-! ## Rows of an address -/

/-- The rows of an address, as they are written. -/
def rows (a : Address) : List CellUnit :=
  a.first.row :: match a.last with
    | some (.cell p) => [p.row]
    | some (.columnEnd _) => []
    | none => []

/-- The columns of an address, as they are written. -/
def columns (a : Address) : List CellUnit := a.first.column :: (a.last.map RangeEnd.ofColumn).toList

/-- An address whose columns land fails with the first of its rows that does not land. -/
theorem failure?_render {a : Address} (h : ∀ u ∈ a.columns, u.astray? column = none) :
    failure? (a.render column row) = (a.rows.findSome? (·.astray? row)).map (.row row) := by
  obtain ⟨page, first, last⟩ := a
  have hfirst : failure? (cellText column row first) = (first.row.astray? row).map (.row row) :=
    failure?_cellText (h _ List.mem_cons_self)
  have hlast : failure? (endText column row last) =
      ((rows ⟨page, first, last⟩).tail.findSome? (·.astray? row)).map (.row row) := by
    cases last with
    | none => rfl
    | some far =>
      have hcolumn : far.ofColumn.astray? column = none := h _ (List.mem_cons_of_mem _ List.mem_cons_self)
      cases far with
      | cell p =>
        rw [endText, failure?_map, failure?_cellText hcolumn]
        exact congrArg _ (List.findSome?_singleton).symm
      | columnEnd c =>
        have hc : c.astray? column = none := hcolumn
        rw [endText, failure?_map, failure?_columnText, hc]
        rfl
  have hrest (c : List Char) : failure? (do
      let e ← endText column row last
      return pageText page ++ c ++ e) =
        ((rows ⟨page, first, last⟩).tail.findSome? (·.astray? row)).map (.row row) := by
    rw [failure?_bind_pure, hlast]
  rw [render, failure?_map, chars, failure?_bind hrest, hfirst, ← Option.map_or, rows, List.findSome?_cons]
  cases first.row.astray? row <;> rfl

end Address

/-! ## Rows of selectors -/

namespace CellUnit

/-- A component is fixed, or its offset is smaller than the grid. -/
def Short (u : CellUnit) : Prop := ∀ k, u = .relative k → k.natAbs < gridSize

/-- Fixed components are short. -/
theorem short_absolute (n : Nat) : (absolute n).Short := nofun

/-- An offset that is smaller than the grid is short. -/
theorem short_relative {k : Int} (h : k.natAbs < gridSize) : (relative k).Short := by
  intro l hl
  cases hl
  exact h

/-- Moving a short component past header rows leaves it short. -/
theorem Short.shift {u : CellUnit} (h : u.Short) (header : Nat) : (u.shift header).Short := by
  cases u with
  | absolute n => exact short_absolute _
  | relative k => exact h

/-- What is spelled is short. -/
theorem SpelledBy.short {u : CellUnit} {inside : List Char} (h : u.SpelledBy inside) : u.Short := by
  cases h with
  | fixed spells small => exact short_absolute _
  | forward spells small =>
    refine short_relative ?_
    rw [Int.natAbs_natCast]
    exact Nat.lt_succ_of_le small
  | backward spells small =>
    refine short_relative ?_
    rw [Int.natAbs_neg, Int.natAbs_natCast]
    exact Nat.lt_succ_of_le small

/-- What is read from a text is short. -/
theorem short_of_parse {unit : String} {path : Path} {u : CellUnit} (h : parse unit path = .ok u) :
    u.Short := (parse_eq_ok_iff.1 h).short

/-- Short components stay short when they are put in order. -/
theorem short_ordered {a b : CellUnit} (ha : a.Short) (hb : b.Short) :
    (ordered a b).1.Short ∧ (ordered a b).2.Short := by
  unfold ordered
  split
  · exact ⟨hb, ha⟩
  · exact ⟨ha, hb⟩

end CellUnit

namespace Selector

variable {v : Vantage} {path : Path} {s : Selector} {a : Address}

/-- The rows of a target are fixed, or short offsets. -/
theorem short_rows_of_resolveRows {column : CellUnit} {header : Nat} {rows : RowTarget} {row : CellUnit}
    {last : Option RangeEnd} (h : resolveRows column header path rows = .ok (row, last))
    (page : Option String) : ∀ u ∈ Address.rows ⟨page, ⟨column, row⟩, last⟩, u.Short := by
  have hown : (CellUnit.relative 0).Short := CellUnit.short_relative (by decide)
  cases rows with
  | own =>
    cases h
    simpa [Address.rows] using hown
  | all =>
    cases h
    simpa [Address.rows] using (CellUnit.short_absolute 0).shift header
  | units rows =>
    cases rows with
    | single unit =>
      obtain ⟨u, hu, hok⟩ := bind_eq_ok h
      cases hok
      simpa [Address.rows] using (CellUnit.short_of_parse hu).shift header
    | range first last =>
      obtain ⟨x, hx, h⟩ := bind_eq_ok h
      obtain ⟨y, hy, hok⟩ := bind_eq_ok h
      cases hok
      obtain ⟨hlow, hhigh⟩ :=
        CellUnit.short_ordered (CellUnit.short_of_parse hx) (CellUnit.short_of_parse hy)
      simpa [Address.rows] using ⟨hlow.shift header, hhigh.shift header⟩

/-- The rows of a resolved selector are fixed, or short offsets. -/
theorem short_rows_of_resolve (h : s.resolve v path = .ok a) : ∀ u ∈ a.rows, u.Short := by
  cases s with
  | own =>
    cases h
    simpa [Address.rows, Address.own] using CellUnit.short_relative (k := 0) (by decide)
  | target cells =>
    obtain ⟨⟨column, placement⟩, -, h⟩ := bind_eq_ok h
    obtain ⟨⟨row, last⟩, hrows, h⟩ := bind_eq_ok h
    cases h
    exact short_rows_of_resolveRows hrows _

/-- The column of a target lands. -/
theorem unit_lands (t : ColumnTarget) (number : Nat) {column : Nat} (hcolumn : column < gridSize) :
    (t.unit number).astray? column = none := by
  cases t with
  | own => exact CellUnit.astray?_zero hcolumn
  | column s => rfl

/-- A target is resolved to its column, wherever that is placed. -/
theorem unit_of_resolveColumn {t : ColumnTarget} {u : CellUnit} {p : Placement}
    (h : resolveColumn v path t = .ok (u, p)) : u = t.unit p.index := by
  cases t with
  | own =>
    obtain ⟨q, -, hq⟩ := map_eq_ok h
    cases hq
    rfl
  | column s =>
    obtain ⟨q, -, hq⟩ := map_eq_ok h
    cases hq
    rfl

/-- The columns of a resolved selector land. -/
theorem columns_land_of_resolve (h : s.resolve v path = .ok a) {column : Nat} (hc : column < gridSize) :
    ∀ u ∈ a.columns, u.astray? column = none := by
  cases s with
  | own =>
    cases h
    simpa [Address.columns, Address.own] using CellUnit.astray?_zero hc
  | target cells =>
    obtain ⟨⟨unit, placement⟩, hcolumn, h⟩ := bind_eq_ok h
    obtain ⟨⟨row, last⟩, hrows, h⟩ := bind_eq_ok h
    cases h
    have hunit : unit.astray? column = none := by
      rw [unit_of_resolveColumn hcolumn]
      exact unit_lands cells.column placement.index hc
    intro u hu
    obtain rfl | hu := List.mem_cons.1 hu
    · exact hunit
    · obtain ⟨far, hfar, rfl⟩ := Option.map_eq_some_iff.1 (Option.mem_toList.1 hu)
      rw [ofColumn_resolveRows hrows far hfar]
      exact hunit

end Selector

/-! ## Refused offsets -/

/-- When and with what the text of an address fails for the formula of a cell. -/
structure Address.FailsAtRows (a : Address) (column row : Nat) : Prop where
  /-- Offsets of its rows are smaller than the grid. -/
  short : ∀ u ∈ a.rows, u.Short
  /-- It does not fail if and only if the offsets of its rows lead to rows of the grid. -/
  text_iff : (∃ text, a.render column row = .ok text) ↔ ∀ k, .relative k ∈ a.rows → InGrid (row + k)
  /-- It fails with the first row whose offset leads out of the grid, and never with a column. -/
  fault_iff : ∀ fault, a.render column row = .error fault ↔
    ∃ k, a.rows.findSome? (·.astray? row) = some k ∧ fault = .row row k
  /-- An offset is reported that leads backwards over the first row, or forwards over the last. -/
  edges : ∀ k, a.render column row = .error (.row row k) → .relative k ∈ a.rows ∧
    (k < 0 ∧ row + k < 0 ∨ 0 < k ∧ gridSize ≤ row + k)

/-- The text of a selector's address fails if and only if the offset of one of its rows leads out of the
grid, at whichever edge. The fault is that of a row before the first one at both edges: it says what happened
where the offset leads backwards, and it is wrong where the offset leads forwards. -/
theorem row_offsets_fail_at_both_edges {v : Vantage} {path : Path} {s : Selector} {a : Address}
    (h : s.resolve v path = .ok a) {column row : Nat} (hcolumn : column < gridSize)
    (hrow : row < gridSize) : a.FailsAtRows column row := by
  have hfails : failure? (a.render column row) = (a.rows.findSome? (·.astray? row)).map (.row row) :=
    Address.failure?_render (Selector.columns_land_of_resolve h hcolumn)
  have hfault (fault : AddressFault) : a.render column row = .error fault ↔
      ∃ k, a.rows.findSome? (·.astray? row) = some k ∧ fault = .row row k := by
    rw [← failure?_eq_some_iff, hfails, Option.map_eq_some_iff]
    exact exists_congr fun k => and_congr_right fun _ => eq_comm
  refine ⟨Selector.short_rows_of_resolve h, ?_, hfault, fun k hk => ?_⟩
  · rw [← failure?_eq_none_iff, hfails, Option.map_eq_none_iff, List.findSome?_eq_none_iff]
    simp only [CellUnit.astray?_eq_none_iff]
    exact ⟨fun hlands k hk => hlands _ hk k rfl, fun hlands u hu k hk => hlands k (hk ▸ hu)⟩
  · obtain ⟨l, hfirst, hkl⟩ := (hfault _).1 hk
    cases hkl
    obtain ⟨u, hu, hastray⟩ := List.exists_of_findSome?_eq_some hfirst
    obtain ⟨rfl, hout⟩ := CellUnit.astray?_eq_some_iff.1 hastray
    refine ⟨hu, ?_⟩
    unfold InGrid at hout
    omega

/-- Of a range from the row above to a row behind the last one, the first row is refused in the first row of
the grid, and the last row in the third one. -/
theorem row_offsets_fail_at_both_edges_range :
    ∃ a, (rowRange .own "-1" "+4294967295").resolve titledVantage .root = .ok a ∧
      a.render 0 0 = .error (.row 0 (-1)) ∧ a.render 0 2 = .error (.row 2 4294967295) := by
  have hresolve : (rowRange .own "-1" "+4294967295").resolve titledVantage .root =
      .ok ⟨none, ⟨.relative 0, .relative (-1)⟩, some (.cell ⟨.relative 0, .relative 4294967295⟩)⟩ :=
    eq_ok_of_toOption (by decide +kernel)
  have hcolumn : 0 < gridSize := by decide
  have hrow : 2 < gridSize := by decide
  have hfirst := row_offsets_fail_at_both_edges hresolve hcolumn hcolumn
  have hlast := row_offsets_fail_at_both_edges hresolve hcolumn hrow
  exact ⟨_, hresolve, (hfirst.fault_iff _).2 ⟨-1, by decide, rfl⟩,
    (hlast.fault_iff _).2 ⟨4294967295, by decide, rfl⟩⟩

/-- An offset to a row behind the last one is said to lead to a row before the first one. -/
theorem row_behind_last_is_before_first :
    ∃ a, Selector.resolve titledVantage .root (.target ⟨.own, .units (.single "+4294967295")⟩) = .ok a ∧
      a.render 0 2 = .error (.row 2 4294967295) ∧ ¬(2 + 4294967295 : Int) < 0 ∧
      (AddressFault.row 2 4294967295).message =
        "relative row offset 4294967295 from row 2 is before the first row" := by
  refine ⟨⟨none, ⟨.relative 0, .relative 4294967295⟩, none⟩, eq_ok_of_toOption (by decide +kernel), ?_,
    by decide, by decide +kernel⟩
  rfl

/-! ## Moved rows -/

/-- One fixed or relative row of a target. -/
def singleRow (t : ColumnTarget) (unit : String) : Selector := .target ⟨t, .units (.single unit)⟩

/-- A row is moved to the same place as another one if they are one row, or both are moved to the last row
or behind it. -/
theorem CellUnit.shift_absolute_inj {header m n : Nat} :
    shift header (.absolute m) = shift header (.absolute n) ↔
      m = n ∨ gridSize ≤ m + header + 1 ∧ gridSize ≤ n + header + 1 := by
  rw [shift, shift, absolute.injEq]
  omega

namespace Selector

variable {v : Vantage} {t : ColumnTarget} {p : Placement} {path : Path}

/-- The address of a fixed row in a column that is placed. -/
theorem resolve_fixedRow (hp : v.columns.get? (t.key v.key) = some p) {unit : String} {n : Nat}
    (hn : CellUnit.parse unit (path.key "rows") = .ok (.absolute n)) :
    (singleRow t unit).resolve v path =
      .ok ⟨if p.page = v.key.page then none else some p.page,
        ⟨t.unit p.index, CellUnit.shift p.headerRows (.absolute n)⟩, none⟩ := by
  rw [singleRow, resolve, Vantage.resolveColumn_of_get? hp]
  change (resolveRows (t.unit p.index) p.headerRows (path.key "rows") (.units (.single unit)) >>= _) = _
  rw [resolveRows, hn]
  rfl

/-- The text of a fixed row ends in its number. -/
theorem render_fixedRow (t : ColumnTarget) (number : Nat) {column : Nat} (hcolumn : column < gridSize)
    (page : Option String) (row : Nat) : ∃ front, ∀ n,
      (⟨page, ⟨t.unit number, .absolute n⟩, none⟩ : Address).render column row =
        .ok (String.ofList (front ++ '$' :: Nat.toDigits 10 (n + 1))) := by
  have hlands : failure? (Address.columnText column (t.unit number)) = none := by
    rw [Address.failure?_columnText, unit_lands t number hcolumn, Option.map_none]
  obtain ⟨letters, hletters⟩ := failure?_eq_none_iff.1 hlands
  refine ⟨Address.pageText page ++ letters, fun n => ?_⟩
  rw [Address.render, Address.chars, Address.cellText, hletters]
  change Except.ok (String.ofList
    (Address.pageText page ++ (letters ++ '$' :: Nat.toDigits 10 (n + 1)) ++ [])) = _
  rw [List.append_nil, List.append_assoc]

end Selector

/-- What a fixed row of a target becomes in the formulas of a cell, after the text that stands in front of
every row of the target. -/
structure FixedRow (v : Vantage) (t : ColumnTarget) (header : Nat) (path : Path) (column row : Nat)
    (front : List Char) (unit : String) (n : Nat) (address : Address) : Prop where
  /-- The row has an address. -/
  resolves : (singleRow t unit).resolve v path = .ok address
  /-- The text ends in a fixed row, which is the row of the number or, if the grid has none, the last one. -/
  renders : ∃ r, address.render column row = .ok (String.ofList (front ++ '$' :: Nat.toDigits 10 (r + 1))) ∧
    (n + header < gridSize → r = n + header) ∧ (gridSize ≤ n + header → r = gridSize - 1)
  /-- Another number has the same address only if both rows are the last one or behind it. -/
  same : ∀ other m, CellUnit.parse other (path.key "rows") = .ok (.absolute m) →
    ((singleRow t other).resolve v path = .ok address ↔
      n = m ∨ gridSize ≤ n + header + 1 ∧ gridSize ≤ m + header + 1)

/-- Every fixed row that is read, of every target that is placed, has an address. It is written as the row of
its number below the header rows, and no other number has this address, as long as that row is in front of
the last one. All numbers from there on have one address, and are written as the last row. -/
theorem fixed_rows_exact_below_last {v : Vantage} {t : ColumnTarget} {p : Placement}
    (hp : v.columns.get? (t.key v.key) = some p) {column : Nat} (hcolumn : column < gridSize) (row : Nat)
    (path : Path) : ∃ front, ∀ unit n, CellUnit.parse unit (path.key "rows") = .ok (.absolute n) →
      ∃ address, FixedRow v t p.headerRows path column row front unit n address := by
  obtain ⟨front, hfront⟩ := Selector.render_fixedRow t p.index hcolumn
    (if p.page = v.key.page then none else some p.page) row
  refine ⟨front, fun unit n hn => ⟨_, Selector.resolve_fixedRow hp hn, ⟨_, hfront _, ?_, ?_⟩, ?_⟩⟩
  · omega
  · omega
  · intro other m hm
    rw [Selector.resolve_fixedRow hp hm, ← CellUnit.shift_absolute_inj, eq_comm]
    simp only [Except.ok.injEq, Address.mk.injEq, CellPosition.mk.injEq, true_and, and_true]

/-- Below the titles of groups and columns, three rows after the first data row, is the sixth row. -/
theorem fixed_rows_exact_below_last_sixth : ∃ front address,
    (singleRow (.column ⟨none, some "G2", "b"⟩) "$3").resolve titledVantage .root = .ok address ∧
      address.render 1 2 = .ok (String.ofList (front ++ '$' :: Nat.toDigits 10 6)) ∧
      (singleRow (.column ⟨none, some "G2", "b"⟩) "$4").resolve titledVantage .root ≠ .ok address := by
  have hplaced : titledVantage.columns.get?
      ((ColumnTarget.column ⟨none, some "G2", "b"⟩).key titledVantage.key) = some ⟨"A", true, 1⟩ := by decide
  have hcolumn : 1 < gridSize := by decide
  have hthree : CellUnit.parse "$3" (Path.root.key "rows") = .ok (.absolute 3) :=
    eq_ok_of_toOption (by decide)
  have hfour : CellUnit.parse "$4" (Path.root.key "rows") = .ok (.absolute 4) :=
    eq_ok_of_toOption (by decide)
  obtain ⟨front, hfront⟩ := fixed_rows_exact_below_last hplaced hcolumn 2 .root
  obtain ⟨address, hresolves, ⟨r, hrender, hexact, -⟩, hsame⟩ := hfront "$3" 3 hthree
  have hr : r = 5 := hexact (by decide)
  rw [hr] at hrender
  exact ⟨front, address, hresolves, hrender, fun h => absurd ((hsame "$4" 4 hfour).1 h) (by decide)⟩

/-- The last two numbers that are read below two header rows have one address, and the last of them is not
written as its row. -/
theorem two_numbers_are_last_row :
    ∃ address, CellUnit.parse "$4294967293" (Path.root.key "rows") = .ok (.absolute 4294967293) ∧
      CellUnit.parse "$4294967294" (Path.root.key "rows") = .ok (.absolute 4294967294) ∧
      (singleRow .own "$4294967293").resolve titledVantage .root = .ok address ∧
      (singleRow .own "$4294967294").resolve titledVantage .root = .ok address ∧
      address.render 0 2 = .ok "A$4294967296" ∧ 4294967296 ≠ 4294967294 + 2 + 1 :=
  ⟨⟨none, ⟨.relative 0, .absolute 4294967295⟩, none⟩, eq_ok_of_toOption (by decide +kernel),
    eq_ok_of_toOption (by decide +kernel), eq_ok_of_toOption (by decide +kernel),
    eq_ok_of_toOption (by decide +kernel), eq_ok_of_toOption (by decide +kernel), by decide⟩

end Workbook
