/-!
# Cell addresses

Addresses mix fixed components, which are written with a `$`, with components that are offsets from the
cell for which a formula is written. Positions are counted from zero, and rows are written from one.
-/

namespace Workbook

/-- One component of an address. -/
inductive CellUnit where
  /-- A position counted from zero. -/
  | absolute (n : Nat)
  /-- An offset from the cell of the formula. -/
  | relative (offset : Int)
deriving DecidableEq, Repr

/-- The number of rows and of columns that components can name. -/
def gridSize : Nat := UInt32.size

namespace CellUnit

/-- The value of a component, whatever its kind. -/
def value : CellUnit → Int
  | .absolute n => n
  | .relative offset => offset

/-- Of components with one value the relative one comes first. -/
def tie : CellUnit → Nat
  | .absolute _ => 1
  | .relative _ => 0

/-- One component comes before another. -/
def precedes (a b : CellUnit) : Bool := a.value < b.value || (a.value == b.value && a.tie < b.tie)

/-- Move a fixed component down, at most to the last position. Offsets stay, since the cell they start
from has been moved. -/
def shift (rows : Nat) : CellUnit → CellUnit
  | .absolute n => .absolute (min (n + rows) (gridSize - 1))
  | .relative offset => .relative offset

/-- Two components in their order. -/
def ordered (a b : CellUnit) : CellUnit × CellUnit := if b.precedes a then (b, a) else (a, b)

end CellUnit

/-- A cell. -/
structure CellPosition where
  column : CellUnit
  row : CellUnit
deriving DecidableEq, Repr

/-- The far end of a range. -/
inductive RangeEnd where
  | cell (position : CellPosition)
  /-- The end of a column. -/
  | columnEnd (column : CellUnit)
deriving DecidableEq, Repr

/-- The address of a cell or a range. -/
structure Address where
  /-- The page, when it is another one. -/
  page : Option String := none
  first : CellPosition
  last : Option RangeEnd := none
deriving DecidableEq, Repr

/-- A component that does not land in the grid. -/
inductive AddressFault where
  | column (origin : Nat) (offset : Int)
  | row (origin : Nat) (offset : Int)
deriving DecidableEq, Repr

/-- The wording of a component that does not land in the grid. -/
def AddressFault.message : AddressFault → String
  | .column origin offset =>
    "relative column offset " ++ toString offset ++ " from column " ++ toString origin ++
      " is before the first column"
  | .row origin offset =>
    "relative row offset " ++ toString offset ++ " from row " ++ toString origin ++
      " is before the first row"

namespace Address

/-- The byte with a number, if there is one. -/
def byte? (n : Nat) : Option UInt8 := if n < UInt8.size then some (UInt8.ofNat n) else none

/-- The letter with a number below 26. A number that is no byte would have the letter of zero. -/
def letter (n : Nat) : Char := Char.ofNat (65 + ((byte? n).getD 0).toNat)

/-- The letters of a number from one: digits of base 26 without a zero. -/
def lettersFrom (n : Nat) : List Char :=
  if _h : n = 0 then [] else lettersFrom ((n - 1) / 26) ++ [letter ((n - 1) % 26)]
termination_by n
decreasing_by omega

/-- The letters of a column counted from zero. -/
def columnLetters (column : Nat) : List Char := lettersFrom (column + 1)

/-- Where an offset lands, if that is in the grid. -/
def landing? (origin : Nat) (offset : Int) : Option Nat :=
  let n := (origin : Int) + offset
  if 0 ≤ n && n < gridSize then some n.toNat else none

/-- A column of the text of an address. -/
def columnText (origin : Nat) : CellUnit → Except AddressFault (List Char)
  | .absolute n => .ok ('$' :: columnLetters n)
  | .relative offset =>
    match landing? origin offset with
    | some n => .ok (columnLetters n)
    | none => .error (.column origin offset)

/-- A row of the text of an address. -/
def rowText (origin : Nat) : CellUnit → Except AddressFault (List Char)
  | .absolute n => .ok ('$' :: Nat.toDigits 10 (n + 1))
  | .relative offset =>
    match landing? origin offset with
    | some n => .ok (Nat.toDigits 10 (n + 1))
    | none => .error (.row origin offset)

/-- A cell of the text of an address. -/
def cellText (column row : Nat) (p : CellPosition) : Except AddressFault (List Char) := do
  let c ← columnText column p.column
  let r ← rowText row p.row
  return c ++ r

/-- One character of a quoted page name: quotes are doubled. -/
def quotedPageChar (c : Char) : List Char := if c = '\'' then ['\'', '\''] else [c]

/-- A page name between quotes. -/
def quotePage (name : String) : List Char := '\'' :: name.toList.flatMap quotedPageChar ++ ['\'']

/-- The page of the text of an address. -/
def pageText : Option String → List Char
  | none => []
  | some name => quotePage name ++ ['!']

/-- The far end of the text of an address. -/
def endText (column row : Nat) : Option RangeEnd → Except AddressFault (List Char)
  | none => .ok []
  | some (.cell p) => (cellText column row p).map (':' :: ·)
  | some (.columnEnd c) => (columnText column c).map (':' :: ·)

/-- The characters of an address in a formula for the cell at a column and a row. -/
def chars (a : Address) (column row : Nat) : Except AddressFault (List Char) := do
  let first ← cellText column row a.first
  let last ← endText column row a.last
  return pageText a.page ++ first ++ last

/-- The text of an address in a formula for the cell at a column and a row. -/
def render (a : Address) (column row : Nat) : Except AddressFault String :=
  (a.chars column row).map String.ofList

/-- The cell of the formula itself. -/
def own : Address := { first := ⟨.relative 0, .relative 0⟩ }

end Address

end Workbook
