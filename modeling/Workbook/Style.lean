import Workbook.Color
import Workbook.Reference

/-!
# Styles and themes

Declared styles and themes hold references; sheet styles and sheet themes hold the values these stand
for. Sheet styles overlay each other field by field: a field that the later style defines wins, and an
undefined field erases nothing.
-/

namespace Workbook

/-- The line of a border. -/
inductive BorderStyle where
  | none
  | dotted
  | dashed
  | solid
  | medium
  | thick
  | double
deriving DecidableEq, Repr

/-- A declared border. -/
structure Border where
  style : BorderStyle
  color : Option (Ref Color) := .none
deriving DecidableEq, Repr

/-- A declared cell style. A field left open is inherited. -/
structure Style where
  fore : Option (Ref Color) := none
  back : Option (Ref Color) := none
  bold : Option Bool := none
  italic : Option Bool := none
  /-- The border under a header row. -/
  beneath : Option Border := none
  /-- The border between neighbouring header cells. -/
  between : Option Border := none
deriving DecidableEq, Repr

/-- A declared theme: the themes it builds on, and its own color and styles. -/
structure Theme where
  /-- Themes folded in before the theme's own fields, in order. -/
  inherits : List (Ref Theme) := []
  tab : Option (Ref Color) := none
  group : Option (Ref Style) := none
  header : Option (Ref Style) := none
  data : Option (Ref Style) := none

/-- A border with its color. -/
structure SheetBorder where
  style : BorderStyle
  color : Option Color := .none
deriving DecidableEq, Repr

/-- A style with every reference replaced by its value. -/
structure SheetStyle where
  fore : Option Color := none
  back : Option Color := none
  bold : Option Bool := none
  italic : Option Bool := none
  beneath : Option SheetBorder := none
  between : Option SheetBorder := none
deriving DecidableEq, Repr

/-- A theme with every reference replaced by its value. -/
structure SheetTheme where
  tab : Option Color := none
  group : SheetStyle := {}
  header : SheetStyle := {}
  data : SheetStyle := {}
deriving DecidableEq, Repr

namespace SheetStyle

/-- The style overlaid by a later one, whose defined fields win. -/
def overlay (s later : SheetStyle) : SheetStyle where
  fore := later.fore.or s.fore
  back := later.back.or s.back
  bold := later.bold.or s.bold
  italic := later.italic.or s.italic
  beneath := later.beneath.or s.beneath
  between := later.between.or s.between

/-- No field is defined. -/
def isEmpty (s : SheetStyle) : Bool := s == {}

/-- The style if it defines a field. -/
def nonEmpty? (s : SheetStyle) : Option SheetStyle := if s.isEmpty then none else some s

end SheetStyle

namespace SheetTheme

/-- The theme overlaid by a later one, bucket by bucket. -/
def overlay (t later : SheetTheme) : SheetTheme where
  tab := later.tab.or t.tab
  group := t.group.overlay later.group
  header := t.header.overlay later.header
  data := t.data.overlay later.data

end SheetTheme

end Workbook
