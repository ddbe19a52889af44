import Workbook.Proofs.Grammar.References
import Workbook.Proofs.Standing
import Workbook.Proofs.TrimmedTexts

/-!
# What rendered selectors name

The text that a selector becomes in a formula of a column, read back as a reference, names cells of the
output book: its column is that of the target, its page is written when it is another one, and its row is
counted below the header rows of the page on which the counting starts. For rows `$n` that is the page of
the target, for rows `+n` and `-n` that of the formula.
-/

namespace Workbook

open Text

/-! ## Reading units -/

/-- A row unit is written with a sign and the digits of a number; blanks around them do not count. -/
def WrittenUnit (unit : String) (sign : Char) (n : Nat) : Prop :=
  ∃ digits, trim unit.toList = sign :: digits ∧ decimal? digits = some n

/-- A row unit is written as an offset from the row of the formula. -/
def WrittenOffset (unit : String) (offset : Int) : Prop :=
  ∃ n : Nat, (WrittenUnit unit '+' n ∧ offset = n) ∨ (WrittenUnit unit '-' n ∧ offset = -n)

namespace CellUnit

variable {unit : String} {n : Nat} {path : Path}

/-- Digits are read as the number of a row if the grid has it. -/
theorem gridNumber?_eq {digits : List Char} (h : decimal? digits = some n) :
    gridNumber? digits = if n < gridSize then some n else none := by
  rw [gridNumber?, h]
  rfl

/-- A written unit becomes the component of its sign, if its number is one of the grid. -/
theorem ofChars?_written {sign : Char} (component : Nat → CellUnit) (h : WrittenUnit unit sign n)
    (hsign : ∀ digits, trim unit.toList = sign :: digits →
      ofChars? unit.toList = (gridNumber? digits).map component) :
    ofChars? unit.toList = if n < gridSize then some (component n) else none := by
  obtain ⟨digits, hcs, hdigits⟩ := h
  rw [hsign digits hcs, gridNumber?_eq hdigits]
  split <;> rfl

/-- What is written with a dollar is read as a fixed row. -/
theorem ofChars?_absolute (h : WrittenUnit unit '$' n) :
    ofChars? unit.toList = if n < gridSize then some (.absolute n) else none := by
  refine ofChars?_written .absolute h fun digits hcs => ?_
  rw [ofChars?, hcs]
  rfl

/-- What is written with a plus is read as an offset. -/
theorem ofChars?_forward (h : WrittenUnit unit '+' n) :
    ofChars? unit.toList = if n < gridSize then some (.relative n) else none := by
  refine ofChars?_written (fun n => .relative n) h fun digits hcs => ?_
  rw [ofChars?, hcs]
  cases hn : gridNumber? digits <;> simp [hn]

/-- What is written with a minus is read as a negative offset. -/
theorem ofChars?_backward (h : WrittenUnit unit '-' n) :
    ofChars? unit.toList = if n < gridSize then some (.relative (-n)) else none := by
  refine ofChars?_written (fun n => .relative (-n)) h fun digits hcs => ?_
  rw [ofChars?, hcs]
  cases hn : gridNumber? digits <;> simp [hn]

/-- A fixed row of the grid is read from what is written for it. -/
theorem parse_absolute (h : WrittenUnit unit '$' n) (hn : n < gridSize) :
    parse unit path = .ok (.absolute n) := by
  rw [parse, ofChars?_absolute h, if_pos hn]

/-- A fixed row is moved below the header rows, where there is room for them. -/
theorem shift_absolute {header : Nat} (hn : header + n < gridSize) :
    shift header (.absolute n) = .absolute (header + n) := by
  rw [shift, Nat.add_comm, Nat.min_eq_left (by omega)]

/-- An offset is read if it is smaller than the grid, forwards or backwards. -/
theorem parse_offset {offset : Int} (h : WrittenOffset unit offset) (path : Path) :
    (offset.natAbs < gridSize ∧ parse unit path = .ok (.relative offset)) ∨
      (gridSize ≤ offset.natAbs ∧ ∃ i, parse unit path = .error i) := by
  have hread : ofChars? unit.toList =
      if offset.natAbs < gridSize then some (.relative offset) else none := by
    obtain ⟨n, ⟨hunit, rfl⟩ | ⟨hunit, rfl⟩⟩ := h
    · rw [ofChars?_forward hunit, Int.natAbs_natCast]
    · rw [ofChars?_backward hunit, Int.natAbs_neg, Int.natAbs_natCast]
  rw [parse, hread]
  by_cases hn : offset.natAbs < gridSize
  · rw [if_pos hn]
    exact .inl ⟨hn, rfl⟩
  · rw [if_neg hn]
    exact .inr ⟨by omega, _, rfl⟩

end CellUnit

/-- A sign in front of the digits of a number is a written unit. -/
theorem writtenUnit_digits {sign : Char} (hsign : isBlank sign = false) (n : Nat) :
    WrittenUnit (String.ofList (sign :: Nat.toDigits 10 n)) sign n := by
  have hblank : ∀ c ∈ sign :: Nat.toDigits 10 n, isBlank c = false := by
    intro c hc
    obtain rfl | hc := List.mem_cons.1 hc
    · exact hsign
    · exact not_blank_of_isDigit ((toDigits_spells n).1 c hc)
  refine ⟨Nat.toDigits 10 n, ?_, decimal?_toDigits n⟩
  rw [String.toList_ofList, trim_of_not_blank hblank]

/-! ## Texts of references -/

namespace A1

/-- A selector becomes a text that is read as a reference. -/
def Reads (made : Except Issue String) (r : Reference) : Prop :=
  ∃ text, made = .ok text ∧ reference? text.toList = some (r, [])

end A1

namespace FormulaCell

variable {cell : FormulaCell} {s : Selector} {path : Path} {address : Address}

/-- The text of a selector is that of the reference that its address is for the cell. -/
theorem selectorText_of_placed {r : A1.Reference} (h : s.resolve cell.vantage path = .ok address)
    (hr : address.placed? cell.column cell.row = some r) :
    cell.selectorText s path = .ok (String.ofList r.chars) := by
  have hchars := address.toOption_chars cell.column cell.row
  rw [hr] at hchars
  have htext : address.render cell.column cell.row = .ok (String.ofList r.chars) := by
    rw [Address.render, eq_ok_of_toOption hchars]
    rfl
  simp only [selectorText, h, htext, bind, Except.bind]

/-- The text of a selector is read as the reference where its address lands. -/
theorem reads_of_placed {r : A1.Reference} (h : s.resolve cell.vantage path = .ok address)
    (hr : address.placed? cell.column cell.row = some r) : A1.Reads (cell.selectorText s path) r :=
  ⟨_, selectorText_of_placed h hr, A1.reference?_ofList r⟩

/-- A selector has a text only if its address lands in the grid. -/
theorem placed_of_selectorText {text : String} (h : cell.selectorText s path = .ok text) :
    ∃ address r, s.resolve cell.vantage path = .ok address ∧
      address.placed? cell.column cell.row = some r ∧ text = String.ofList r.chars := by
  obtain ⟨address, hresolve, hrender⟩ := render_of_selectorText h
  obtain ⟨r, hr, htext⟩ := Address.placed?_of_render hrender
  exact ⟨address, r, hresolve, hr, htext⟩

end FormulaCell

/-! ## Targets -/

/-- An offset lands where the grid has a component. -/
theorem placed?_relative {origin : Nat} {offset : Int} {component : A1.Component} :
    (CellUnit.relative offset).placed? origin = some component ↔
      0 ≤ origin + offset ∧ origin + offset < gridSize ∧ component = ⟨false, (origin + offset).toNat⟩ := by
  unfold CellUnit.placed? Address.landing?
  by_cases h : 0 ≤ origin + offset ∧ origin + offset < gridSize
  · simp [h.1, h.2, eq_comm]
  · dsimp only
    rw [if_neg (by simpa using h)]
    exact ⟨nofun, fun hr => absurd ⟨hr.1, hr.2.1⟩ h⟩

/-- The page in front of a reference to a column, if that is on another page. -/
def ColumnKey.qualifier (own key : ColumnKey) : Option String :=
  if key.page = own.page then none else some key.page

namespace ColumnTarget

/-- The column that is meant in the formulas of a column. -/
def key (own : ColumnKey) : ColumnTarget → ColumnKey
  | .own => own
  | .column s => ⟨s.page.getD own.page, s.group.getD own.group, s.column⟩

/-- The component of an address for a column with a number. -/
def unit (number : Nat) : ColumnTarget → CellUnit
  | .own => .relative 0
  | .column _ => .absolute number

/-- The column of a reference, by its number. Columns that are named are fixed. -/
def component (number : Nat) : ColumnTarget → A1.Component
  | .own => ⟨false, number⟩
  | .column _ => ⟨true, number⟩

/-- A formula's own column is written only if the grid has it. Named columns are written as they are. -/
def Lands (number : Nat) (t : ColumnTarget) : Prop := t = .own → number < gridSize

/-- A column is placed if it lands, and as the component that is meant. -/
theorem placed?_unit {number column : Nat} {t : ColumnTarget} {component : A1.Component}
    (hown : t = .own → number = column) :
    (t.unit number).placed? column = some component ↔ t.Lands number ∧ component = t.component number := by
  cases t with
  | column s => simp [unit, CellUnit.placed?, Lands, ColumnTarget.component, eq_comm]
  | own =>
    obtain rfl := hown rfl
    rw [unit, placed?_relative, Int.add_zero]
    simp [Lands, ColumnTarget.component]

end ColumnTarget

/-- A target that an index places is resolved to its column. -/
theorem Vantage.resolveColumn_of_get? {v : Vantage} {t : ColumnTarget} {p : Placement}
    (h : v.columns.get? (t.key v.key) = some p) (path : Path) :
    Selector.resolveColumn v path t = .ok (t.unit p.index, p) := by
  cases t with
  | own =>
    have hget : v.columns.get? v.key = some p := h
    rw [Selector.resolveColumn, ownPlacement, hget]
    rfl
  | column s =>
    have hget : v.columns.get? (v.keyOf s) = some p := h
    rw [Selector.resolveColumn, placement, hget]
    rfl

/-- Without an offset the origin itself is meant. -/
theorem placed?_zero {origin : Nat} (h : origin < gridSize) :
    (CellUnit.relative 0).placed? origin = some ⟨false, origin⟩ :=
  placed?_relative.2 ⟨by omega, by omega, by rw [Int.add_zero, Int.toNat_natCast]⟩

/-! ## Columns of references -/

/-- The column of the far end of a range. -/
def A1.End.ofColumn : A1.End → A1.Component
  | .cell c => c.column
  | .column c => c

/-- The column of the far end of a range in an address. -/
def RangeEnd.ofColumn : RangeEnd → CellUnit
  | .cell p => p.column
  | .columnEnd c => c

/-- The rows of a target are rows of its column. -/
theorem Selector.ofColumn_resolveRows {column row : CellUnit} {header : Nat} {path : Path}
    {rows : RowTarget} {last : Option RangeEnd}
    (h : resolveRows column header path rows = .ok (row, last)) :
    ∀ e, last = some e → e.ofColumn = column := by
  intro e he
  subst he
  cases rows with
  | own => cases h
  | all =>
    cases h
    rfl
  | units rows =>
    cases rows with
    | single u =>
      obtain ⟨unit, _, hok⟩ := bind_eq_ok h
      cases hok
    | range first last =>
      obtain ⟨a, _, h⟩ := bind_eq_ok h
      obtain ⟨b, _, hok⟩ := bind_eq_ok h
      cases hok
      rfl

namespace Address

variable {column row : Nat} {page : Option String} {u v : CellUnit} {c : A1.Component} {r : A1.Component}

/-- A cell is placed where its column and its row are. -/
theorem placed?_cell (hc : u.placed? column = some c) (hr : v.placed? row = some r) :
    (⟨page, ⟨u, v⟩, none⟩ : Address).placed? column row = some ⟨page, ⟨c, r⟩, none⟩ := by
  simp [placed?, CellPosition.placed?, hc, hr]

end Address

/-! ## Selectors in the formulas of a kept column -/

namespace KeptColumn

variable {b : Book} (c : KeptColumn b) {t : ColumnTarget} {rows : RowTarget} {path : Path}

/-- A target that is placed is resolved to its column. -/
theorem resolveColumn_of_get? {p : Placement} (h : (ColumnIndex.firstSeen b).get? (t.key c.key) = some p)
    (path : Path) : Selector.resolveColumn c.cell.vantage path t = .ok (t.unit p.index, p) :=
  Vantage.resolveColumn_of_get? h path

/-- A target column stands on a page of the output. -/
abbrev TargetStands (options : CompileOptions) (t : ColumnTarget) (number header : Nat) : Prop :=
  (Compile.book options b).value.Stands (t.key c.key) number header

section Target

variable {options : CompileOptions} {number header : Nat}

/-- The address of a target that stands on a page of the output is made of its column and its rows. -/
theorem resolve_target (h : c.TargetStands options t number header) (rows : RowTarget) (path : Path) :
    Selector.resolve c.cell.vantage path (.target ⟨t, rows⟩) =
      (Selector.resolveRows (t.unit number) header (path.key "rows") rows).map fun (row, last) =>
        ⟨c.key.qualifier (t.key c.key), ⟨t.unit number, row⟩, last⟩ := by
  obtain ⟨p, hget, hpage, rfl, rfl⟩ := stands_iff_get?.1 h
  rw [Selector.resolve.eq_2, c.resolveColumn_of_get? hget, ColumnKey.qualifier, ← hpage]
  change (Selector.resolveRows (t.unit p.index) p.headerRows (path.key "rows") rows >>= _) = _
  cases Selector.resolveRows (t.unit p.index) p.headerRows (path.key "rows") rows <;> rfl

/-- One's own column stands where it is placed. -/
theorem TargetStands.own_number (h : c.TargetStands options t number header) :
    t = .own → number = c.cell.column := by
  rintro rfl
  exact (SheetBook.Stands.unique h (c.stands options)).1

/-- Rows that are one row of the grid become a reference to that row of the target. -/
theorem reads_row (h : c.TargetStands options t number header) {row : CellUnit} {r : A1.Component}
    (hrows : Selector.resolveRows (t.unit number) header (path.key "rows") rows = .ok (row, none))
    (hcolumn : t.Lands number) (hrow : row.placed? c.cell.row = some r) :
    A1.Reads (c.cell.selectorText (.target ⟨t, rows⟩) path)
      ⟨c.key.qualifier (t.key c.key), ⟨t.component number, r⟩, none⟩ := by
  have hunit := (ColumnTarget.placed?_unit h.own_number).2 ⟨hcolumn, rfl⟩
  have hresolve := c.resolve_target h rows path
  rw [hrows] at hresolve
  exact FormulaCell.reads_of_placed hresolve (Address.placed?_cell hunit hrow)

/-- A fixed row of a target is a data row on the page of the target. -/
theorem reads_fixedRow (h : c.TargetStands options t number header) (hcolumn : t.Lands number)
    {unit : String} {n : Nat} (hunit : WrittenUnit unit '$' n) (hn : header + n < gridSize) (path : Path) :
    A1.Reads (c.cell.selectorText (.target ⟨t, .units (.single unit)⟩) path)
      ⟨c.key.qualifier (t.key c.key), ⟨t.component number, ⟨true, header + n⟩⟩, none⟩ := by
  have hparse : CellUnit.parse unit (path.key "rows") = .ok (.absolute n) :=
    CellUnit.parse_absolute hunit (by omega)
  have hrows : Selector.resolveRows (t.unit number) header (path.key "rows") (.units (.single unit)) =
      .ok (.absolute (header + n), none) := by
    rw [Selector.resolveRows, hparse, ← CellUnit.shift_absolute hn]
    rfl
  exact c.reads_row h hrows hcolumn rfl

/-- The row of the formula is the first data row of the formula's page, on whatever page the target is. -/
theorem reads_ownRow (h : c.TargetStands options t number header) (hcolumn : t.Lands number) (path : Path) :
    A1.Reads (c.cell.selectorText (.target ⟨t, .own⟩) path)
      ⟨c.key.qualifier (t.key c.key), ⟨t.component number, ⟨false, c.cell.row⟩⟩, none⟩ :=
  c.reads_row h rfl hcolumn (placed?_zero (Nat.lt_of_le_of_lt (c.stands options).header_le (by decide)))

/-- An offset that is read leaves the row as an offset, whatever the header rows are. -/
theorem resolveRows_offset {unit : String} {offset : Int} {column : CellUnit}
    (hparse : CellUnit.parse unit path = .ok (.relative offset)) :
    Selector.resolveRows column header path (.units (.single unit)) = .ok (.relative offset, none) := by
  rw [Selector.resolveRows, hparse]
  rfl

/-- An offset that leads from the first data row of the formula's page to a row of the grid names that
row. -/
theorem reads_offset (h : c.TargetStands options t number header) (hcolumn : t.Lands number)
    {unit : String} {offset : Int} (hunit : WrittenOffset unit offset) (hlow : 0 ≤ c.cell.row + offset)
    (hhigh : c.cell.row + offset < gridSize) (path : Path) :
    A1.Reads (c.cell.selectorText (.target ⟨t, .units (.single unit)⟩) path)
      ⟨c.key.qualifier (t.key c.key), ⟨t.component number, ⟨false, (c.cell.row + offset).toNat⟩⟩,
        none⟩ := by
  have hown : c.cell.row ≤ 2 := (c.stands options).header_le
  obtain ⟨_, hparse⟩ | ⟨hlarge, _⟩ := CellUnit.parse_offset hunit (path.key "rows")
  · exact c.reads_row h (resolveRows_offset hparse) hcolumn (placed?_relative.2 ⟨hlow, hhigh, rfl⟩)
  · have hsize : 2 < gridSize := by decide
    omega

end Target

end KeptColumn

end Workbook
