import Workbook.Proofs.Grammar.Scanning
import Workbook.Proofs.Outcomes
import Workbook.Selection

/-!
# References in A1 notation

A reference names a cell or a range of a page: columns by letters, rows by numbers from one, a `$` in front
of a component that is fixed. The reader here knows nothing of addresses; the text of every address that
lands in the grid is read back to the cells at which the address lands.
-/

namespace Workbook

/-! ## References and their reader -/

namespace A1

/-- A column or a row of a reference. -/
structure Component where
  /-- Written with a `$`. -/
  fixed : Bool
  /-- The number counted from zero. -/
  position : Nat
deriving DecidableEq, Repr

/-- A cell of a reference. -/
structure Cell where
  column : Component
  row : Component
deriving DecidableEq, Repr

/-- The far end of a range: a cell, or the end of a column. -/
inductive End where
  | cell (cell : Cell)
  | column (column : Component)
deriving DecidableEq, Repr

/-- A reference to a cell or a range. -/
structure Reference where
  /-- The page, if it is written. -/
  page : Option String
  first : Cell
  last : Option End
deriving DecidableEq, Repr

/-- Whether a `$` comes next, and what follows it. -/
def marked : List Char → Bool × List Char
  | '$' :: cs => (true, cs)
  | cs => (false, cs)

/-- Read a component whose number is spelled from one by characters of a class. -/
def component? (test : Char → Bool) (number : List Char → Nat) (cs : List Char) :
    Option (Component × List Char) :=
  let (fixed, cs) := marked cs
  match number (cs.takeWhile test) with
  | 0 => none
  | n + 1 => some (⟨fixed, n⟩, cs.dropWhile test)

/-- Read a column. -/
def column? : List Char → Option (Component × List Char) :=
  component? Address.isLetter Address.readLetters

/-- Read a row. -/
def row? : List Char → Option (Component × List Char) := component? Text.isDigit Text.readDecimal

/-- Read a cell. -/
def cell? (cs : List Char) : Option (Cell × List Char) := do
  let (column, cs) ← column? cs
  let (row, cs) ← row? cs
  return (⟨column, row⟩, cs)

/-- Read the page in front of a cell, if there is one. -/
def page? : List Char → Option (Option String × List Char)
  | '\'' :: cs =>
    match quoted? '\'' cs with
    | some (name, '!' :: rest) => some (some (String.ofList name), rest)
    | _ => none
  | cs => some (none, cs)

/-- Read the far end of a range, if there is one. -/
def last? : List Char → Option (Option End × List Char)
  | ':' :: cs => do
    let (column, cs) ← column? cs
    match row? cs with
    | some (row, cs) => return (some (.cell ⟨column, row⟩), cs)
    | none => return (some (.column column), cs)
  | cs => some (none, cs)

/-- Read a reference, and what follows it. -/
def reference? (cs : List Char) : Option (Reference × List Char) := do
  let (page, cs) ← page? cs
  let (first, cs) ← cell? cs
  let (last, cs) ← last? cs
  return (⟨page, first, last⟩, cs)

/-! ## Their text -/

/-- The text of a component in front of which a `$` shows that it is fixed. -/
def Component.chars (spell : Nat → List Char) (c : Component) : List Char :=
  (if c.fixed then ['$'] else []) ++ spell (c.position + 1)

/-- The text of a column. -/
def columnChars : Component → List Char := Component.chars Address.lettersFrom

/-- The text of a row. -/
def rowChars : Component → List Char := Component.chars (Nat.toDigits 10)

/-- The text of a cell. -/
def Cell.chars (c : Cell) : List Char := columnChars c.column ++ rowChars c.row

/-- The text of the far end of a range. -/
def End.chars : End → List Char
  | .cell c => c.chars
  | .column c => columnChars c

/-- The text of a reference. -/
def Reference.chars (r : Reference) : List Char :=
  Address.pageText r.page ++ r.first.chars ++ r.last.elim [] fun e => ':' :: e.chars

/-! ## Reading the text -/

/-- A way to spell numbers from one by characters of a class, which can be read back. -/
structure Spells (test : Char → Bool) (number : List Char → Nat) (spell : Nat → List Char) : Prop where
  empty : number [] = 0
  mark : test '$' = false
  members (n : Nat) : ∀ c ∈ spell n, test c
  value (n : Nat) : number (spell n) = n

/-- Letters spell numbers in base 26, and are read back. -/
theorem spells_letters : Spells Address.isLetter Address.readLetters Address.lettersFrom where
  empty := rfl
  mark := by decide
  members n := (Address.lettersFrom_spells n).1
  value n := (Address.lettersFrom_spells n).2

/-- Digits spell numbers in base 10, and are read back. -/
theorem spells_digits : Spells Text.isDigit Text.readDecimal (Nat.toDigits 10) where
  empty := rfl
  mark := by decide
  members n := (Text.toDigits_spells n).1
  value n := (Text.toDigits_spells n).2

section Components

variable {test : Char → Bool} {number : List Char → Nat} {spell : Nat → List Char}
  (spells : Spells test number spell)

include spells

/-- A number from one on is spelled by some characters. -/
theorem Spells.ne_nil (n : Nat) : spell (n + 1) ≠ [] := by
  intro h
  have hv := spells.value (n + 1)
  rw [h, spells.empty] at hv
  omega

/-- A component is read back when no character of its class comes next. -/
theorem component?_chars (c : Component) {rest : List Char} (stop : StopsAt test rest) :
    component? test number (c.chars spell ++ rest) = some (c, rest) := by
  obtain ⟨fixed, n⟩ := c
  have hmark : marked (Component.chars spell ⟨fixed, n⟩ ++ rest) = (fixed, spell (n + 1) ++ rest) := by
    cases fixed with
    | true => rfl
    | false =>
      obtain ⟨d, ds, hd⟩ := List.exists_cons_of_ne_nil (spells.ne_nil n)
      have hne : d ≠ '$' := by
        rintro rfl
        have hclass := spells.members (n + 1) '$' (by rw [hd]; exact List.mem_cons_self)
        rw [spells.mark] at hclass
        cases hclass
      simp only [Component.chars, hd]
      exact marked.eq_2 _ fun cs heq => hne (List.cons.inj heq).1
  have htake : (spell (n + 1) ++ rest).takeWhile test = spell (n + 1) :=
    takeWhile_append (spells.members (n + 1)) stop
  have hdrop : (spell (n + 1) ++ rest).dropWhile test = rest :=
    dropWhile_append (spells.members (n + 1)) stop
  simp only [component?, hmark, htake, hdrop, spells.value]

/-- No component is read where neither a `$` nor a character of the class comes next. -/
theorem component?_none {rest : List Char} (stop : StopsAt test rest) (unmarked : StopsAt (· == '$') rest) :
    component? test number rest = none := by
  have hmark : marked rest = (false, rest) := by
    apply marked.eq_2
    rintro cs rfl
    have h := unmarked '$' rfl
    simp at h
  simp only [component?, hmark, takeWhile_of_stopsAt stop, spells.empty]

/-- The text of a component begins with a `$` or with a character of its class. -/
theorem stopsAt_chars (c : Component) (rest : List Char) {other : Char → Bool} (mark : other '$' = false)
    (disjoint : ∀ d, test d → other d = false) : StopsAt other (c.chars spell ++ rest) := by
  intro d hd
  obtain ⟨fixed, n⟩ := c
  cases fixed with
  | true =>
    cases hd
    exact mark
  | false =>
    obtain ⟨e, es, he⟩ := List.exists_cons_of_ne_nil (spells.ne_nil n)
    have hclass := spells.members (n + 1) e (by rw [he]; exact List.mem_cons_self)
    simp only [Component.chars, he] at hd
    cases hd
    exact disjoint _ hclass

end Components

/-- No digit is a letter. -/
theorem isLetter_of_isDigit (c : Char) (h : Text.isDigit c) : Address.isLetter c = false := by
  rw [Bool.eq_false_iff, Ne, Address.isLetter_iff]
  rw [Text.isDigit_iff] at h
  omega

/-- No letter is a quote. -/
theorem isQuote_of_isLetter (c : Char) (h : Address.isLetter c) : (c == '\'') = false := by
  rw [beq_eq_false_iff_ne]
  rintro rfl
  revert h
  decide

variable {rest : List Char}

/-- A column is read back from its text. -/
theorem column?_chars (c : Component) (stop : StopsAt Address.isLetter rest) :
    column? (columnChars c ++ rest) = some (c, rest) := component?_chars spells_letters c stop

/-- A row is read back from its text. -/
theorem row?_chars (c : Component) (stop : StopsAt Text.isDigit rest) :
    row? (rowChars c ++ rest) = some (c, rest) := component?_chars spells_digits c stop

/-- A row ends the letters of a column. -/
theorem rowChars_stopsAt (c : Component) (rest : List Char) :
    StopsAt Address.isLetter (rowChars c ++ rest) :=
  stopsAt_chars spells_digits c rest (by decide) isLetter_of_isDigit

/-- A cell is read back when no digit comes next. -/
theorem cell?_chars (c : Cell) (stop : StopsAt Text.isDigit rest) :
    cell? (c.chars ++ rest) = some (c, rest) := by
  have hcolumn := column?_chars c.column (rowChars_stopsAt c.row rest)
  have hrow := row?_chars c.row stop
  rw [cell?, Cell.chars, List.append_assoc, hcolumn]
  change (row? (rowChars c.row ++ rest)).bind _ = _
  rw [hrow]
  rfl

/-- The far end of a range is read back when an operand ends there. -/
theorem last?_chars (last : Option End) (stop : Closes rest) :
    last? ((last.elim [] fun e => ':' :: e.chars) ++ rest) = some (last, rest) := by
  have hletter : StopsAt Address.isLetter rest := stop.stopsAt (by decide)
  have hdigit : StopsAt Text.isDigit rest := stop.stopsAt (by decide)
  cases last with
  | none =>
    apply last?.eq_2
    rintro cs rfl
    have hcolon := stop ':' rfl
    revert hcolon
    decide
  | some e =>
    cases e with
    | cell c =>
      have hcolumn := column?_chars c.column (rowChars_stopsAt c.row rest)
      have hrow := row?_chars c.row hdigit
      simp only [Option.elim_some, End.chars, Cell.chars, List.cons_append, List.append_assoc, last?,
        hcolumn, hrow, Option.bind_eq_bind, Option.bind_some]
      rfl
    | column c =>
      have hcolumn := column?_chars c hletter
      have hrow : row? rest = none := component?_none spells_digits hdigit (stop.stopsAt (by decide))
      simp only [Option.elim_some, End.chars, List.cons_append, last?, hcolumn, hrow,
        Option.bind_eq_bind, Option.bind_some]
      rfl

/-- The page in front of a cell is read back. -/
theorem page?_chars (page : Option String) (c : Cell) (rest : List Char) :
    page? (Address.pageText page ++ (c.chars ++ rest)) = some (page, c.chars ++ rest) := by
  cases page with
  | none =>
    have hquote : StopsAt (· == '\'') (c.chars ++ rest) := by
      rw [Cell.chars, List.append_assoc]
      exact stopsAt_chars spells_letters c.column _ (by decide) isQuote_of_isLetter
    apply page?.eq_2
    intro cs heq
    have hcs : c.chars ++ rest = '\'' :: cs := heq
    have h := hquote '\'' (by rw [hcs]; rfl)
    simp at h
  | some name =>
    have hname : quoted? '\'' (name.toList.flatMap (doubled '\'') ++ '\'' :: '!' :: (c.chars ++ rest)) =
        some (name.toList, '!' :: (c.chars ++ rest)) := quoted?_doubled name.toList (by simp [StopsAt])
    have htext : Address.pageText (some name) ++ (c.chars ++ rest) =
        '\'' :: (name.toList.flatMap (doubled '\'') ++ '\'' :: '!' :: (c.chars ++ rest)) := by
      simp only [Address.pageText, Address.quotePage, List.cons_append, List.append_assoc, List.nil_append]
      rfl
    simp only [htext, page?, hname, String.ofList_toList]

/-- A reference is read back when an operand ends there. -/
theorem reference?_chars (r : Reference) (stop : Closes rest) :
    reference? (r.chars ++ rest) = some (r, rest) := by
  obtain ⟨page, first, last⟩ := r
  have hpage := page?_chars page first ((last.elim [] fun e => ':' :: e.chars) ++ rest)
  have hdigit : StopsAt Text.isDigit ((last.elim [] fun e => ':' :: e.chars) ++ rest) := by
    cases last with
    | none => exact stop.stopsAt (by decide)
    | some e =>
      intro c hc
      cases hc
      decide
  have hfirst := cell?_chars first hdigit
  have hlast := last?_chars last stop
  simp only [reference?, Reference.chars, List.append_assoc, hpage, hfirst, hlast, Option.bind_eq_bind,
    Option.bind_some]
  rfl

/-- The text of a reference is read as that reference and nothing else. -/
theorem reference?_text (r : Reference) : reference? r.chars = some (r, []) := by
  have hend : Closes [] := fun c hc => nomatch hc
  have h := reference?_chars r hend
  rwa [List.append_nil] at h

/-- A reference is read back from the string of its text. -/
theorem reference?_ofList (r : Reference) :
    reference? (String.ofList r.chars).toList = some (r, []) := by
  rw [String.toList_ofList]
  exact reference?_text r

end A1

/-! ## Addresses as references -/

/-- Where a component lands for a formula at an origin. -/
def CellUnit.placed? (origin : Nat) : CellUnit → Option A1.Component
  | .absolute n => some ⟨true, n⟩
  | .relative offset => (Address.landing? origin offset).map (⟨false, ·⟩)

/-- Where a cell lands for a formula at a column and a row. -/
def CellPosition.placed? (column row : Nat) (p : CellPosition) : Option A1.Cell := do
  let c ← p.column.placed? column
  let r ← p.row.placed? row
  return ⟨c, r⟩

/-- Where the far end of a range lands. -/
def RangeEnd.placed? (column row : Nat) : RangeEnd → Option A1.End
  | .cell p => (p.placed? column row).map .cell
  | .columnEnd c => (c.placed? column).map .column

namespace Address

/-- The reference that an address is for a formula at a column and a row, if it lands in the grid. -/
def placed? (a : Address) (column row : Nat) : Option A1.Reference := do
  let first ← a.first.placed? column row
  let last ← match a.last with
    | none => some none
    | some e => (e.placed? column row).map some
  return ⟨a.page, first, last⟩

/-- The text of a column is that of the column where it lands. -/
theorem toOption_columnText (origin : Nat) (u : CellUnit) :
    (columnText origin u).toOption = (u.placed? origin).map A1.columnChars := by
  cases u with
  | absolute n => rfl
  | relative offset =>
    rw [columnText, CellUnit.placed?, Option.map_map]
    cases landing? origin offset <;> rfl

/-- The text of a row is that of the row where it lands. -/
theorem toOption_rowText (origin : Nat) (u : CellUnit) :
    (rowText origin u).toOption = (u.placed? origin).map A1.rowChars := by
  cases u with
  | absolute n => rfl
  | relative offset =>
    rw [rowText, CellUnit.placed?, Option.map_map]
    cases landing? origin offset <;> rfl

/-- The text of a cell is that of the cell where it lands. -/
theorem toOption_cellText (column row : Nat) (p : CellPosition) :
    (cellText column row p).toOption = (p.placed? column row).map A1.Cell.chars := by
  rw [cellText, toOption_bind, toOption_columnText, CellPosition.placed?]
  cases p.column.placed? column with
  | none => rfl
  | some c =>
    simp only [Option.map_some, Option.bind_some, Option.bind_eq_bind, toOption_bind, toOption_rowText]
    cases p.row.placed? row <;> rfl

/-- The text of an address is the text of the reference that it is. -/
theorem toOption_chars (a : Address) (column row : Nat) :
    (a.chars column row).toOption = (a.placed? column row).map A1.Reference.chars := by
  rw [chars, toOption_bind, toOption_cellText, placed?]
  cases a.first.placed? column row with
  | none => rfl
  | some first =>
    simp only [Option.map_some, Option.bind_some, Option.bind_eq_bind, toOption_bind]
    cases a.last with
    | none => rfl
    | some e =>
      cases e with
      | cell p =>
        simp only [endText, toOption_map, toOption_cellText, RangeEnd.placed?]
        cases p.placed? column row <;> rfl
      | columnEnd c =>
        simp only [endText, toOption_map, toOption_columnText, RangeEnd.placed?]
        cases c.placed? column <;> rfl

/-- An address has a text only if it lands in the grid, and then it is the text of the reference. -/
theorem placed?_of_render {a : Address} {column row : Nat} {text : String}
    (h : a.render column row = .ok text) :
    ∃ r, a.placed? column row = some r ∧ text = String.ofList r.chars := by
  have hchars := a.toOption_chars column row
  cases hc : a.chars column row with
  | error fault =>
    rw [render, hc] at h
    cases h
  | ok cs =>
    rw [hc] at hchars
    obtain ⟨r, hplaced, hr⟩ := Option.map_eq_some_iff.1 hchars.symm
    rw [render, hc] at h
    cases h
    exact ⟨r, hplaced, by rw [hr]⟩

end Address

/-- A selector with a text has an address, and that has the text. -/
theorem FormulaCell.render_of_selectorText {cell : FormulaCell} {s : Selector} {path : Path} {text : String}
    (h : cell.selectorText s path = .ok text) :
    ∃ address, s.resolve cell.vantage path = .ok address ∧
      address.render cell.column cell.row = .ok text := by
  obtain ⟨address, hresolve, hrender⟩ := bind_eq_ok h
  refine ⟨address, hresolve, ?_⟩
  cases htext : address.render cell.column cell.row with
  | error fault =>
    rw [htext] at hrender
    cases hrender
  | ok t =>
    rw [htext] at hrender
    cases hrender
    rfl

end Workbook
