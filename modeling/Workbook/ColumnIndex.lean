import Workbook.Book
import Workbook.Issue

/-!
# The columns of a book

Where the columns of a book are placed. Columns are numbered from zero over all groups of a page, and the
data rows start below one header row, or below two if the page has more than one group. The index of all
columns reports columns that are named twice; the index of kept columns follows the first page, group
and column of each name, which are the ones that a compilation keeps.
-/

namespace Workbook

/-- The names that say which column is meant. -/
structure ColumnKey where
  page : String
  group : String
  column : String
deriving DecidableEq, Repr

/-- Where a column is placed. -/
structure Placement where
  page : String
  /-- The page has a row of group titles. -/
  grouped : Bool
  /-- The number of the column in its page, from zero. -/
  index : Nat
deriving DecidableEq, Repr

/-- The header rows of a page with or without a row of group titles. -/
def headerRows (grouped : Bool) : Nat := if grouped then 2 else 1

/-- The header rows above a column. -/
def Placement.headerRows (p : Placement) : Nat := Workbook.headerRows p.grouped

/-- The placements of columns, each key once. -/
structure ColumnIndex where
  entries : List (ColumnKey × Placement) := []
deriving DecidableEq, Repr

namespace ColumnIndex

/-- The placement of a column. -/
def get? (index : ColumnIndex) (key : ColumnKey) : Option Placement := index.entries.lookup key

/-- The entries with a new placement of a key. -/
def set (key : ColumnKey) (placement : Placement) :
    List (ColumnKey × Placement) → List (ColumnKey × Placement)
  | [] => [(key, placement)]
  | (k, p) :: rest => if k = key then (key, placement) :: rest else (k, p) :: set key placement rest

/-- The index with a new placement of a key. -/
def insert (index : ColumnIndex) (key : ColumnKey) (placement : Placement) : ColumnIndex :=
  ⟨set key placement index.entries⟩

/-- The number of columns. -/
def size (index : ColumnIndex) : Nat := index.entries.length

end ColumnIndex

/-- The items whose name is not the name of an earlier one, nor one of some names. -/
def keepFirst {α : Type} (name : α → String) (seen : List String) : List α → List α
  | [] => []
  | a :: rest =>
    if seen.contains (name a) then keepFirst name seen rest
    else a :: keepFirst name (name a :: seen) rest

/-- A column of a book in document order. -/
structure Occurrence where
  path : Path
  key : ColumnKey
  placement : Placement
deriving DecidableEq, Repr

/-- The columns of a page. -/
def Page.occurrences (path : Path) (page : Page) : List Occurrence :=
  let columns := page.groups.zipIdx.flatMap fun (group, j) =>
    group.columns.zipIdx.map fun (column, k) =>
      ((((path.key "groups").index j).key "columns").index k,
        (⟨page.name, group.name, column.name⟩ : ColumnKey))
  columns.zipIdx.map fun ((path, key), n) =>
    ⟨path, key, ⟨page.name, decide (1 < page.groups.length), n⟩⟩

/-- The columns of a book. -/
def Book.occurrences (book : Book) : List Occurrence :=
  book.pages.zipIdx.flatMap fun (page, i) => page.occurrences ((Path.root.key "pages").index i)

namespace ColumnIndex

/-- The issue of a column whose names have occurred before. -/
def duplicate (o : Occurrence) : Issue :=
  .processing ("duplicate column '" ++ o.key.column ++ "' in group '" ++ o.key.group ++ "' of page '" ++
    o.key.page ++ "'") (o.path.key "name")

/-- Index some columns after others. A later placement replaces an earlier one. -/
def add (index : ColumnIndex) : List Occurrence → ColumnIndex × List Issue
  | [] => (index, [])
  | o :: rest =>
    let (result, issues) := add (index.insert o.key o.placement) rest
    (result, if (index.get? o.key).isSome then duplicate o :: issues else issues)

/-- The index of all columns of a book, with an issue for each column that is named again. -/
def build (book : Book) : ColumnIndex × List Issue := add {} book.occurrences

end ColumnIndex

/-- The page with the first column of each name in the first group of each name. -/
def Page.kept (page : Page) : Page :=
  { page with
    groups := (keepFirst Group.name [] page.groups).map fun group =>
      { group with columns := keepFirst Column.name [] group.columns } }

/-- The book with the pages, groups and columns that a compilation keeps. -/
def Book.kept (book : Book) : Book :=
  { book with pages := (keepFirst Page.name [] book.pages).map Page.kept }

/-- The index of the columns that a compilation keeps. -/
def ColumnIndex.firstSeen (book : Book) : ColumnIndex := (build book.kept).1

end Workbook
