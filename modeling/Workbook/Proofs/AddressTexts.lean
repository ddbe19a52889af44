import Workbook.Proofs.Grammar.References

/-!
# Texts of addresses

What the text of an address says, read by someone who knows for which cell the formula is written. The text
is that of a reference. A component of the reference that is fixed is a position, and any other component is
an offset from the cell, so the address can be put together again. Nothing of it is lost in its text, not
even in the quotes around a page name.
-/

namespace Workbook

/-! ## Addresses of references -/

namespace A1

/-- The component of an address that a component of a reference is for a formula at an origin. -/
def Component.seenFrom (origin : Nat) (c : Component) : CellUnit :=
  if c.fixed then .absolute c.position else .relative (c.position - origin)

/-- The position that a cell of a reference is for a formula at a column and a row. -/
def Cell.seenFrom (column row : Nat) (c : Cell) : CellPosition :=
  ⟨c.column.seenFrom column, c.row.seenFrom row⟩

/-- The far end of a range in an address. -/
def End.seenFrom (column row : Nat) : End → RangeEnd
  | .cell c => .cell (c.seenFrom column row)
  | .column c => .columnEnd (c.seenFrom column)

/-- The address that a reference is for a formula at a column and a row. -/
def Reference.seenFrom (column row : Nat) (r : Reference) : Address :=
  ⟨r.page, r.first.seenFrom column row, r.last.map (End.seenFrom column row)⟩

end A1

/-! ## Landing and looking back -/

/-- A component that has landed is seen again from its origin. -/
theorem CellUnit.seenFrom_of_placed? {u : CellUnit} {origin : Nat} {c : A1.Component}
    (h : u.placed? origin = some c) : c.seenFrom origin = u := by
  cases u with
  | absolute n =>
    have hc : c = ⟨true, n⟩ := (Option.some.inj h).symm
    rw [hc]
    rfl
  | relative offset =>
    obtain ⟨n, hn, hc⟩ := Option.map_eq_some_iff.1 h
    have hland : (n : Int) = origin + offset := by
      unfold Address.landing? at hn
      dsimp only at hn
      split at hn
      · rename_i hgrid
        have hposition : ((origin : Int) + offset).toNat = n := Option.some.inj hn
        simp only [Bool.and_eq_true, decide_eq_true_eq] at hgrid
        omega
      · cases hn
    have hoffset : (n : Int) - origin = offset := by omega
    rw [← hc]
    exact congrArg CellUnit.relative hoffset

variable {column row : Nat}

/-- A cell is seen from the cell of the formula as the position that is placed there. -/
theorem CellPosition.seenFrom_of_placed? {p : CellPosition} {c : A1.Cell}
    (h : p.placed? column row = some c) : c.seenFrom column row = p := by
  obtain ⟨u, hu, h⟩ := Option.bind_eq_some_iff.1 h
  obtain ⟨w, hw, h⟩ := Option.bind_eq_some_iff.1 h
  have hc : c = ⟨u, w⟩ := (Option.some.inj h).symm
  have hcolumn : u.seenFrom column = p.column := CellUnit.seenFrom_of_placed? hu
  have hrow : w.seenFrom row = p.row := CellUnit.seenFrom_of_placed? hw
  rw [hc, A1.Cell.seenFrom, hcolumn, hrow]

/-- The other end of a range is seen from the cell of the formula as the end that is placed there. -/
theorem RangeEnd.seenFrom_of_placed? {far : RangeEnd} {e : A1.End}
    (h : far.placed? column row = some e) : e.seenFrom column row = far := by
  cases far with
  | cell p =>
    obtain ⟨c, hc, he⟩ := Option.map_eq_some_iff.1 h
    have hcell : c.seenFrom column row = p := CellPosition.seenFrom_of_placed? hc
    rw [← he, A1.End.seenFrom, hcell]
  | columnEnd u =>
    obtain ⟨c, hc, he⟩ := Option.map_eq_some_iff.1 h
    have hcolumn : c.seenFrom column = u := CellUnit.seenFrom_of_placed? hc
    rw [← he, A1.End.seenFrom, hcolumn]

namespace Address

/-- An address is seen again in the reference that it is. -/
theorem seenFrom_of_placed? {a : Address} {r : A1.Reference} (h : a.placed? column row = some r) :
    r.seenFrom column row = a := by
  obtain ⟨page, first, last⟩ := a
  obtain ⟨c, hc, h⟩ := Option.bind_eq_some_iff.1 h
  have hfirst : c.seenFrom column row = first := CellPosition.seenFrom_of_placed? hc
  cases last with
  | none =>
    have hr : r = ⟨page, c, none⟩ := (Option.some.inj h).symm
    rw [hr, A1.Reference.seenFrom, hfirst]
    rfl
  | some far =>
    obtain ⟨_, hsome, h⟩ := Option.bind_eq_some_iff.1 h
    obtain ⟨e, he, rfl⟩ := Option.map_eq_some_iff.1 hsome
    have hfar : e.seenFrom column row = far := RangeEnd.seenFrom_of_placed? he
    have hr : r = ⟨page, c, some e⟩ := (Option.some.inj h).symm
    rw [hr, A1.Reference.seenFrom, hfirst, Option.map_some, hfar]

/-- Who knows the cell of a formula reads the address in its text. -/
theorem reads_render {a : Address} {text : String} (h : a.render column row = .ok text) :
    ∃ r, A1.reference? text.toList = some (r, []) ∧ r.seenFrom column row = a := by
  obtain ⟨r, hplaced, rfl⟩ := placed?_of_render h
  exact ⟨r, A1.reference?_ofList r, seenFrom_of_placed? hplaced⟩

/-- Of two addresses that are written for one cell the texts are equal only if the addresses are: the text
says what the page is, of each component whether it is fixed and what its value is, and whether a cell, a
range of cells or the rest of a column is meant. -/
theorem render_eq_iff {a b : Address} {s t : String} (ha : a.render column row = .ok s)
    (hb : b.render column row = .ok t) : s = t ↔ a = b := by
  constructor
  · intro hst
    obtain ⟨r, hr, hseen⟩ := reads_render ha
    obtain ⟨r', hr', hseen'⟩ := reads_render hb
    rw [hst, hr'] at hr
    have hsame : r' = r := (Prod.mk.inj (Option.some.inj hr)).1
    rw [← hseen, ← hseen', hsame]
  · intro hab
    rw [hab, hb] at ha
    exact (Except.ok.inj ha).symm

/-- Two pages whose names differ in a quote, with ranges that begin one row below the cell of the formula. -/
theorem render_eq_iff_quotes :
    (⟨some "A'!B1:B", ⟨.absolute 1, .relative 1⟩, some (.columnEnd (.absolute 1))⟩ : Address).render 0 3 =
      .ok "'A''!B1:B'!$B5:$B" ∧
    (⟨some "A''!B1:B", ⟨.absolute 1, .relative 1⟩, some (.columnEnd (.absolute 1))⟩ : Address).render 0 3 =
      .ok "'A''''!B1:B'!$B5:$B" ∧
    ("'A''!B1:B'!$B5:$B" = "'A''''!B1:B'!$B5:$B" ↔
      (⟨some "A'!B1:B", ⟨.absolute 1, .relative 1⟩, some (.columnEnd (.absolute 1))⟩ : Address) =
        ⟨some "A''!B1:B", ⟨.absolute 1, .relative 1⟩, some (.columnEnd (.absolute 1))⟩) := by
  have ha : (⟨some "A'!B1:B", ⟨.absolute 1, .relative 1⟩, some (.columnEnd (.absolute 1))⟩ :
      Address).render 0 3 = .ok "'A''!B1:B'!$B5:$B" := eq_ok_of_toOption (by decide +kernel)
  have hb : (⟨some "A''!B1:B", ⟨.absolute 1, .relative 1⟩, some (.columnEnd (.absolute 1))⟩ :
      Address).render 0 3 = .ok "'A''''!B1:B'!$B5:$B" := eq_ok_of_toOption (by decide +kernel)
  exact ⟨ha, hb, render_eq_iff ha hb⟩

end Address

end Workbook
