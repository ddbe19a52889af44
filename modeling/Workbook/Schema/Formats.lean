import Workbook.Schema.Decoder
import Workbook.Format.Numeric
import Workbook.Format.Temporal

/-!
# Formats as trees
-/

namespace Workbook

open Schema

namespace DigitCounts

/-- The fields of digit counts. -/
def fields : Fields DigitCounts :=
  DigitCounts.mk <$> .defaulted "fixed" count 0 <*> .defaulted "flex" count 0
    <*> .defaulted "align" count 0

/-- The tree of digit counts. -/
def tree (c : DigitCounts) : Json :=
  .object (member "fixed" (ofCount c.fixed) ++ member "flex" (ofCount c.flex) ++
    member "align" (ofCount c.align))

instance : Codec DigitCounts := ⟨record "struct DigitCounts" fields, tree⟩

end DigitCounts

namespace DigitSpec

/-- A number of fixed digits, or the numbers of all kinds. -/
def decoder : Decoder DigitSpec :=
  readings "DigitSpec" [count.map .fixed, (Schema.decoder : Decoder DigitCounts).map .counts]

/-- The tree of a digit specification. -/
def tree : DigitSpec → Json
  | .fixed n => ofCount n
  | .counts c => encode c

instance : Codec DigitSpec := ⟨DigitSpec.decoder, tree⟩

end DigitSpec

/-- The words for what a number is shown as. -/
def NumericKind.words : List (List String × NumericKind) :=
  [(["number"], .number), (["percent"], .percent), (["currency"], .currency)]

instance : Codec NumericKind := ⟨word NumericKind.words, fun k => .text (wordOf NumericKind.words k)⟩

/-- The words for the sides of a symbol. -/
def SymbolSide.words : List (List String × SymbolSide) :=
  [(["prefix"], .leading), (["suffix"], .trailing)]

instance : Codec SymbolSide := ⟨word SymbolSide.words, fun s => .text (wordOf SymbolSide.words s)⟩

namespace NumericFormat

/-- The fields of a numeric format. -/
def fields : Fields NumericFormat :=
  NumericFormat.mk <$> .defaulted "type" decoder .number <*> .optional "integer" decoder
    <*> .optional "decimal" decoder <*> .defaulted "commas" boolean false
    <*> .optional "symbol" text <*> .defaulted "position" decoder .leading

/-- The tree of a numeric format. -/
def tree (f : NumericFormat) : Json :=
  .object (member "type" (encode f.kind) ++ memberIf "integer" encode f.integer ++
    memberIf "decimal" encode f.decimal ++ member "commas" (.boolean f.commas) ++
    memberIf "symbol" .text f.symbol ++ member "position" (encode f.position))

instance : Codec NumericFormat := ⟨record "struct NumericFormat" fields, tree⟩

end NumericFormat

/-- The words for parts of a date or a time. -/
def TemporalUnit.words : List (List String × TemporalUnit) :=
  [(["year"], .year), (["month"], .month), (["monthName", "monthname"], .monthName),
    (["weekday"], .weekday), (["day"], .day), (["hour"], .hour), (["minute"], .minute),
    (["second"], .second), (["meridiem"], .meridiem)]

/-- The word by which a part is written. -/
def TemporalUnit.written : TemporalUnit → String
  | .monthName => "monthname"
  | unit => wordOf TemporalUnit.words unit

instance : Codec TemporalUnit := ⟨word TemporalUnit.words, fun u => .text u.written⟩

/-- The words for the forms of a part. -/
def UnitLength.words : List (List String × UnitLength) := [(["short"], .short), (["long"], .long)]

instance : Codec UnitLength := ⟨word UnitLength.words, fun l => .text (wordOf UnitLength.words l)⟩

namespace TemporalPart

/-- The fields of a part that is no literal. -/
def fields : Fields TemporalPart :=
  TemporalPart.unit <$> .required "unit" decoder <*> .defaulted "length" decoder .short

/-- A literal text, or a part of a date or a time. -/
def decoder : Decoder TemporalPart :=
  readings "TemporalPart" [text.map .literal, namedRecord "struct variant TemporalPart::Unit" fields]

/-- The tree of a part. -/
def tree : TemporalPart → Json
  | .literal s => .text s
  | .unit u l => .object (member "unit" (encode u) ++ member "length" (encode l))

instance : Codec TemporalPart := ⟨TemporalPart.decoder, tree⟩

end TemporalPart

instance : Codec TemporalFormat := ⟨list decoder, fun f => .list (f.map encode)⟩

end Workbook
