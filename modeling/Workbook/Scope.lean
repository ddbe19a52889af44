import Workbook.Book
import Workbook.Color.Palette
import Workbook.Layers

/-!
# Scopes

The definitions of all kinds that are visible at a level of a book, and the standard libraries behind
them.
-/

namespace Workbook

/-- The kinds of definitions. -/
inductive Kind where
  | color
  | style
  | theme
  | numeric
  | temporal
  | dataType
deriving DecidableEq, Repr

namespace Kind

/-- What a definition of a kind holds. -/
@[reducible] def Value : Kind → Type
  | .color => Color
  | .style => Style
  | .theme => Theme
  | .numeric => NumericFormat
  | .temporal => TemporalFormat
  | .dataType => DataType

/-- The name of a kind. -/
def label : Kind → String
  | .color => "color"
  | .style => "style"
  | .theme => "theme"
  | .numeric => "numeric format"
  | .temporal => "temporal format"
  | .dataType => "type"

/-- All kinds. -/
def all : List Kind := [.color, .style, .theme, .numeric, .temporal, .dataType]

end Kind

/-- The definitions of a kind. -/
def Definitions.entries (d : Definitions) : (k : Kind) → List (String × Ref k.Value)
  | .color => d.colors
  | .style => d.styles
  | .theme => d.themes
  | .numeric => d.numerics
  | .temporal => d.temporals
  | .dataType => d.types

/-- The definitions that are visible at a level. -/
structure Scope where
  colors : Layers Color := []
  styles : Layers Style := []
  themes : Layers Theme := []
  numerics : Layers NumericFormat := []
  temporals : Layers TemporalFormat := []
  types : Layers DataType := []
  /-- Names of no definition may be names of the standard palette. -/
  standardPalette : Bool
  /-- Names of no definition may be names of standard formats. -/
  standardFormats : Bool

namespace Scope

/-- The layers of a kind. -/
def layers (s : Scope) : (k : Kind) → Layers k.Value
  | .color => s.colors
  | .style => s.styles
  | .theme => s.themes
  | .numeric => s.numerics
  | .temporal => s.temporals
  | .dataType => s.types

/-- The standard library of a kind. -/
def standard (s : Scope) : (k : Kind) → String → Option k.Value
  | .color, name => if s.standardPalette then Palette.color? name else none
  | .numeric, name => if s.standardFormats then NumericFormat.standard? name else none
  | .temporal, name => if s.standardFormats then TemporalFormat.standard? name else none
  | .style, _ => none
  | .theme, _ => none
  | .dataType, _ => none

/-- The scope with the definitions of one more level on top. -/
def overlay (s : Scope) (site : Site) (definitions : Option Definitions) : Scope :=
  let d := definitions.getD {}
  { s with
    colors := s.colors.overlay site d.colors
    styles := s.styles.overlay site d.styles
    themes := s.themes.overlay site d.themes
    numerics := s.numerics.overlay site d.numerics
    temporals := s.temporals.overlay site d.temporals
    types := s.types.overlay site d.types }

/-- The scope of a book. -/
def root (definitions : Option Definitions) (options : CompileOptions) : Scope :=
  overlay { standardPalette := options.standardPalette, standardFormats := options.standardFormats } []
    definitions

/-- The value of a name, or why it has none. -/
def resolve (s : Scope) (k : Kind) (name : String) : Except NameFault (Found k.Value) :=
  (s.layers k).resolve (s.standard k) name

end Scope

end Workbook
