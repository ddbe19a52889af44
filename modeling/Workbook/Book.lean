import Workbook.DataType

/-!
# Books

The declarative document: a book of pages, a page of groups, a group of columns. Every level may have a
theme and definitions of its own.
-/

namespace Workbook

/-- The definitions of one level, by kind. -/
structure Definitions where
  colors : List (String × Ref Color) := []
  styles : List (String × Ref Style) := []
  themes : List (String × Ref Theme) := []
  numerics : List (String × Ref NumericFormat) := []
  temporals : List (String × Ref TemporalFormat) := []
  types : List (String × Ref DataType) := []

/-- A column. -/
structure Column where
  name : String
  theme : Option (Ref Theme) := none
  definitions : Option Definitions := none
  dataType : Ref DataType
  /-- The value of all its cells. -/
  value : Option Expression := none

/-- A group of columns. -/
structure Group where
  name : String
  theme : Option (Ref Theme) := none
  definitions : Option Definitions := none
  columns : List Column

/-- A page. -/
structure Page where
  name : String
  /-- The number of data rows. -/
  rows : UInt32
  theme : Option (Ref Theme) := none
  definitions : Option Definitions := none
  groups : List Group

/-- A book. -/
structure Book where
  name : String
  theme : Option (Ref Theme) := none
  definitions : Option Definitions := none
  pages : List Page

/-- The choices of a compilation. -/
structure CompileOptions where
  /-- Names of no definition may be names of the standard palette. -/
  standardPalette : Bool := true
  /-- Names of no definition may be names of standard formats. -/
  standardFormats : Bool := true
  /-- Count what is compiled. -/
  metrics : Bool := false
deriving DecidableEq, Repr

end Workbook
