import Workbook.Schema.Formats
import Workbook.Proofs.Codecs.Laws

/-!
# Formats are read back

Every format is read back as it is. A digit specification and a part of a temporal format have two readings
each, one of a scalar and one of an object, so the tree of one is never taken for the other.
-/

namespace Workbook

open Schema Channel

section ReadsBack

variable {c : Channel}

/-! ## Numbers -/

/-- Least and greatest numbers of digits are read back. -/
theorem DigitCounts.readsBack (counts : DigitCounts) :
    c.ReadsBack (decoder : Decoder DigitCounts) encode counts :=
  Written.record ((((Written.defaulted (readsBack_count counts.fixed)).map DigitCounts.mk).seq
    (.defaulted (readsBack_count counts.flex)) (by decide)).seq
    (.defaulted (readsBack_count counts.align)) (by decide)) rfl

/-- Numbers of digits are read back. -/
theorem DigitSpec.readsBack (spec : DigitSpec) : c.ReadsBack (decoder : Decoder DigitSpec) encode spec := by
  cases spec with
  | fixed n => exact .here ((readsBack_count n).map DigitSpec.fixed rfl)
  | counts counts =>
    have hcounts := DigitCounts.readsBack (c := c) counts
    refine .there (.here (hcounts.map DigitSpec.counts rfl)) (hcounts.apart fun v b hb hread => ?_)
    cases v <;> first | cases hb | cases hread

/-- Kinds of numbers are read back. -/
theorem NumericKind.readsBack (kind : NumericKind) :
    c.ReadsBack (decoder : Decoder NumericKind) encode kind :=
  readsBack_word rfl (by cases kind <;> rfl)

/-- Sides of symbols are read back. -/
theorem SymbolSide.readsBack (side : SymbolSide) : c.ReadsBack (decoder : Decoder SymbolSide) encode side :=
  readsBack_word rfl (by cases side <;> rfl)

/-- Numeric formats are read back. -/
theorem NumericFormat.readsBack (format : NumericFormat) :
    c.ReadsBack (decoder : Decoder NumericFormat) encode format :=
  Written.record (((((((Written.defaulted (NumericKind.readsBack format.kind)).map NumericFormat.mk).seq
    (.optional fun spec _ => DigitSpec.readsBack spec) (by decide)).seq
    (.optional fun spec _ => DigitSpec.readsBack spec) (by decide)).seq
    (.defaulted (readsBack_boolean format.commas)) (by decide)).seq
    (.optional fun symbol _ => readsBack_text symbol) (by decide)).seq
    (.defaulted (SymbolSide.readsBack format.position)) (by decide)) rfl

/-! ## Dates and times -/

/-- Units of time are read back. -/
theorem TemporalUnit.readsBack (unit : TemporalUnit) :
    c.ReadsBack (decoder : Decoder TemporalUnit) encode unit :=
  readsBack_word rfl (by cases unit <;> rfl)

/-- Lengths of units are read back. -/
theorem UnitLength.readsBack (length : UnitLength) :
    c.ReadsBack (decoder : Decoder UnitLength) encode length :=
  readsBack_word rfl (by cases length <;> rfl)

/-- Parts of temporal formats are read back. -/
theorem TemporalPart.readsBack (part : TemporalPart) :
    c.ReadsBack (decoder : Decoder TemporalPart) encode part := by
  cases part with
  | literal s => exact .here ((readsBack_text s).map TemporalPart.literal rfl)
  | unit unit length =>
    have hunit : c.ReadsBack (namedRecord "struct variant TemporalPart::Unit" TemporalPart.fields)
        TemporalPart.tree (.unit unit length) :=
      Written.namedRecord (((Written.required (TemporalUnit.readsBack unit)).map TemporalPart.unit).seq
        (.defaulted (UnitLength.readsBack length)) (by decide)) rfl
    refine .there (.here hunit) (hunit.apart fun v b hb hread => ?_)
    cases v <;> first | (cases hb; done) | cases hread

/-- Temporal formats are read back. -/
theorem TemporalFormat.readsBack (format : TemporalFormat) :
    c.ReadsBack (decoder : Decoder TemporalFormat) encode format :=
  ReadsBack.list fun part _ => TemporalPart.readsBack part

end ReadsBack

end Workbook
