/-!
# Numeric formats

Declared formats of numbers and their format codes. A `0` always shows a digit, a `#` shows one only when
there is one, and a `?` shows a digit or a blank. The fixed digits stand next to the decimal point on
both sides.
-/

namespace Workbook

/-- Numbers of the three kinds of digit placeholders. -/
structure DigitCounts where
  /-- Always shown, padded with zero. -/
  fixed : UInt32 := 0
  /-- Shown when present. -/
  flex : UInt32 := 0
  /-- Shown when present, a blank otherwise. -/
  align : UInt32 := 0
deriving DecidableEq, Repr

/-- Digit placeholders: a number of fixed digits, or the numbers of all kinds. -/
inductive DigitSpec where
  | fixed (n : UInt32)
  | counts (c : DigitCounts)
deriving DecidableEq, Repr

/-- The numbers of all kinds. -/
def DigitSpec.toCounts : DigitSpec → DigitCounts
  | .fixed n => { fixed := n }
  | .counts c => c

/-- What a number is shown as. -/
inductive NumericKind where
  | number
  | percent
  | currency
deriving DecidableEq, Repr

/-- The side of the number on which the currency symbol stands. -/
inductive SymbolSide where
  | leading
  | trailing
deriving DecidableEq, Repr

/-- A declared format of numbers. -/
structure NumericFormat where
  kind : NumericKind := .number
  /-- Digits before the point, one fixed digit when absent. -/
  integer : Option DigitSpec := none
  /-- Digits after the point, none when absent. -/
  decimal : Option DigitSpec := none
  /-- Separate thousands. -/
  commas : Bool := false
  /-- The currency symbol. -/
  symbol : Option String := none
  position : SymbolSide := .leading
deriving DecidableEq, Repr

namespace NumericFormat

/-- The currency symbol of a format without one. -/
def defaultSymbol : String := "$"

/-- Some equal placeholders. -/
def run (c : Char) (n : UInt32) : List Char := List.replicate n.toNat c

/-- A comma before every placeholder that has a multiple of three placeholders from itself to the end,
except the first. -/
def grouped : List Char → List Char
  | [] => []
  | [c] => [c]
  | c :: d :: rest =>
    if (rest.length + 1) % 3 = 0 then c :: ',' :: grouped (d :: rest) else c :: grouped (d :: rest)

/-- The placeholders before the point. Grouping needs at least four of them, so that a comma has one on
each side. -/
def integerPart (c : DigitCounts) (commas : Bool) : List Char :=
  let digits := run '#' c.flex ++ run '?' c.align ++ run '0' c.fixed
  if commas then grouped (List.replicate (4 - digits.length) '#' ++ digits) else digits

/-- The point and the placeholders after it, if there are any. -/
def decimalPart (c : DigitCounts) : List Char :=
  match run '0' c.fixed ++ run '?' c.align ++ run '#' c.flex with
  | [] => []
  | digits => '.' :: digits

/-- The rest of a literal of a format code, in or outside a quoted section. A quote cannot stand in a
section and is written between sections with a backslash. -/
def literalRest : Bool → List Char → List Char
  | false, [] => []
  | true, [] => ['"']
  | false, '"' :: cs => '\\' :: '"' :: literalRest false cs
  | true, '"' :: cs => '"' :: '\\' :: '"' :: literalRest false cs
  | false, c :: cs => '"' :: c :: literalRest true cs
  | true, c :: cs => c :: literalRest true cs

/-- A text as a literal of a format code. -/
def literal (text : List Char) : List Char :=
  match text with
  | [] => ['"', '"']
  | _ => literalRest false text

/-- The format code. -/
def code (f : NumericFormat) : List Char :=
  let digits :=
    integerPart ((f.integer.map DigitSpec.toCounts).getD { fixed := 1 }) f.commas ++
      decimalPart ((f.decimal.map DigitSpec.toCounts).getD {})
  match f.kind, f.position with
  | .number, _ => digits
  | .percent, _ => digits ++ ['%']
  | .currency, .leading => literal (f.symbol.getD defaultSymbol).toList ++ digits
  | .currency, .trailing => digits ++ literal (f.symbol.getD defaultSymbol).toList

/-- The format code as a text. -/
def pattern (f : NumericFormat) : String := String.ofList f.code

/-- Two decimals. -/
def twoPlaces : Option DigitSpec := some (.fixed 2)

/-- The formats that have a name without any definition. -/
def standard : List (String × NumericFormat) :=
  [("integer", {}),
    ("decimal", { decimal := twoPlaces }),
    ("thousands", { commas := true }),
    ("percent", { kind := .percent }),
    ("currency", { kind := .currency, decimal := twoPlaces, commas := true })]

/-- The standard format of a name. -/
def standard? (name : String) : Option NumericFormat := standard.lookup name

end NumericFormat

end Workbook
