import Workbook.Schema.Expressions
import Workbook.Schema.Formats
import Workbook.Schema.Styles
import Workbook.DataType

/-!
# Rules and data types as trees

A text rule is chosen by its tag, a rule over ordered values by the fields it has.
-/

namespace Workbook

open Schema

namespace TextRule

/-- The reader of a rule with one text. -/
def valueCase (name : String) (rule : String → TextRule) : Decoder TextRule :=
  record ("struct variant TextRule::" ++ name) (rule <$> .required "value" text)

/-- Read a text rule. -/
def decoder : Decoder TextRule :=
  tagged "TextRule"
    [(["is"], valueCase "Is" .is), (["contains"], valueCase "Contains" .contains),
      (["begins"], valueCase "Begins" .begins), (["ends"], valueCase "Ends" .ends),
      (["custom"], record "struct variant TextRule::Custom"
        (TextRule.custom <$> .required "expression" Schema.decoder))]

/-- The tree of a rule with one text. -/
def valueTree (tag value : String) : Json :=
  .object (member tagKey (.text tag) ++ member "value" (.text value))

/-- The tree of a text rule. -/
def tree : TextRule → Json
  | .is v => valueTree "is" v
  | .contains v => valueTree "contains" v
  | .begins v => valueTree "begins" v
  | .ends v => valueTree "ends" v
  | .custom e => .object (member tagKey (.text "custom") ++ member "expression" (encode e))

instance : Codec TextRule := ⟨TextRule.decoder, tree⟩

end TextRule

/-- The words for comparisons: the sign, or its name. -/
def Comparison.words : List (List String × Comparison) :=
  [(["=", "eq"], .equal), (["<>", "neq"], .notEqual), (["<", "lt"], .less),
    (["<=", "lte"], .lessOrEqual), ([">", "gt"], .greater), ([">=", "gte"], .greaterOrEqual)]

instance : Codec Comparison := ⟨word Comparison.words, fun c => .text (wordOf Comparison.words c)⟩

/-- The words for range tests. -/
def RangeTest.words : List (List String × RangeTest) :=
  [(["between"], .between), (["outside"], .outside)]

instance : Codec RangeTest := ⟨word RangeTest.words, fun t => .text (wordOf RangeTest.words t)⟩

/-- The word for a rule that is an expression. -/
def customWord : String := "custom"

/-- The word `custom`. -/
def decodeCustom : Decoder Unit := word [([customWord], ())]

instance : Codec TemporalValue := ⟨text.map .mk, fun v => .text v.text⟩

instance : Codec Float := ⟨real, .real⟩

namespace OrderedRule

variable {α : Type} [Codec α]

/-- The fields of a range. -/
def rangeFields : Fields (OrderedRule α) :=
  OrderedRule.range <$> .required "type" decoder <*> .required "low" decoder
    <*> .required "high" decoder

/-- The fields of a comparison. -/
def comparisonFields : Fields (OrderedRule α) :=
  OrderedRule.comparison <$> .required "type" decoder <*> .required "value" decoder

/-- The fields of an expression. -/
def customFields : Fields (OrderedRule α) :=
  (fun _ e => OrderedRule.custom e) <$> .required "type" decodeCustom <*> .required "expression" decoder

/-- Read a rule over ordered values. -/
def decoder : Decoder (OrderedRule α) :=
  readings "NumericRule"
    [namedRecord "struct variant NumericRule::Range" rangeFields,
      namedRecord "struct variant NumericRule::Comparison" comparisonFields,
      namedRecord "struct variant NumericRule::Custom" customFields]

/-- The tree of a rule over ordered values. -/
def tree : OrderedRule α → Json
  | .range t low high =>
    .object (member "type" (encode t) ++ member "low" (encode low) ++ member "high" (encode high))
  | .comparison t v => .object (member "type" (encode t) ++ member "value" (encode v))
  | .custom e => .object (member "type" (.text customWord) ++ member "expression" (encode e))

instance : Codec (OrderedRule α) := ⟨OrderedRule.decoder, tree⟩

end OrderedRule

namespace ConditionalStyle

variable {ρ : Type} [Codec ρ]

/-- The fields of a rule with a style. -/
def fields : Fields (ConditionalStyle ρ) :=
  ConditionalStyle.mk <$> .required "rule" decoder <*> .required "apply" decoder

/-- The tree of a rule with a style. -/
def tree (s : ConditionalStyle ρ) : Json :=
  .object (member "rule" (encode s.rule) ++ member "apply" (encode s.apply))

instance : Codec (ConditionalStyle ρ) := ⟨record "struct ConditionalStyle" fields, tree⟩

end ConditionalStyle

namespace EnumItem

/-- The fields of a member with a style. -/
def fields : Fields EnumItem :=
  EnumItem.styled <$> .required "name" text <*> .optional "style" decoder

/-- Read a member of an enumeration. -/
def decoder : Decoder EnumItem :=
  readings "EnumItem" [text.map .bare, namedRecord "struct variant EnumItem::Styled" fields]

/-- The tree of a member of an enumeration. -/
def tree : EnumItem → Json
  | .bare name => .text name
  | .styled name style => .object (member "name" (.text name) ++ memberIf "style" encode style)

instance : Codec EnumItem := ⟨EnumItem.decoder, tree⟩

end EnumItem

namespace TextType

/-- The fields of a text type. -/
def fields : Fields TextType :=
  TextType.mk <$> .optional "rule" decoder <*> .defaulted "styles" (list decoder) []

/-- The members of a text type. -/
def members (t : TextType) : List (String × Json) :=
  memberIf "rule" encode t.rule ++ memberList "styles" encode t.styles

instance : Codec TextType := ⟨record "struct TextType" fields, fun t => .object t.members⟩

end TextType

namespace EnumType

/-- The fields of an enumeration. -/
def fields : Fields EnumType := EnumType.mk <$> .required "values" (list decoder)

/-- The members of an enumeration. -/
def members (t : EnumType) : List (String × Json) := member "values" (.list (t.values.map encode))

instance : Codec EnumType := ⟨record "struct EnumType" fields, fun t => .object t.members⟩

end EnumType

namespace LookupType

/-- The fields of a lookup. -/
def fields : Fields LookupType :=
  LookupType.mk <$> .required "values" decoder <*> .defaulted "styles" (list decoder) []

/-- The members of a lookup. -/
def members (t : LookupType) : List (String × Json) :=
  member "values" (encode t.values) ++ memberList "styles" encode t.styles

instance : Codec LookupType := ⟨record "struct LookupType" fields, fun t => .object t.members⟩

end LookupType

namespace NumericType

/-- The fields of a numeric type. -/
def fields : Fields NumericType :=
  NumericType.mk <$> .optional "rule" decoder <*> .defaulted "styles" (list decoder) []
    <*> .optional "format" decoder

/-- The members of a numeric type. -/
def members (t : NumericType) : List (String × Json) :=
  memberIf "rule" encode t.rule ++ memberList "styles" encode t.styles ++
    memberIf "format" encode t.format

instance : Codec NumericType := ⟨record "struct NumericType" fields, fun t => .object t.members⟩

end NumericType

namespace TemporalType

/-- The fields of a temporal type. -/
def fields : Fields TemporalType :=
  TemporalType.mk <$> .optional "rule" decoder <*> .defaulted "styles" (list decoder) []
    <*> .optional "format" decoder

/-- The members of a temporal type. -/
def members (t : TemporalType) : List (String × Json) :=
  memberIf "rule" encode t.rule ++ memberList "styles" encode t.styles ++
    memberIf "format" encode t.format

instance : Codec TemporalType := ⟨record "struct TemporalType" fields, fun t => .object t.members⟩

end TemporalType

namespace DataType

/-- Read a data type, which its tag chooses. -/
def decoder : Decoder DataType :=
  tagged "DataType"
    [(["text"], Schema.decoder.map .text), (["enum"], Schema.decoder.map .enumeration),
      (["lookup"], Schema.decoder.map .lookup), (["numeric"], Schema.decoder.map .numeric),
      (["temporal"], Schema.decoder.map .temporal)]

/-- The tree of a data type. -/
def tree : DataType → Json
  | .text t => .object (member tagKey (.text "text") ++ t.members)
  | .enumeration t => .object (member tagKey (.text "enum") ++ t.members)
  | .lookup t => .object (member tagKey (.text "lookup") ++ t.members)
  | .numeric t => .object (member tagKey (.text "numeric") ++ t.members)
  | .temporal t => .object (member tagKey (.text "temporal") ++ t.members)

instance : Codec DataType := ⟨DataType.decoder, tree⟩

end DataType

end Workbook
