import Workbook.Schema.Styles
import Workbook.SheetBook

/-!
# Sheet books as trees

The tree holds the members in the order in which they are written.
-/

namespace Workbook

open Schema

/-- The words for what a validation checks. -/
def ValidationKind.words : List (List String × ValidationKind) :=
  [(["text"], .text), (["list"], .list), (["decimal"], .decimal), (["date"], .date),
    (["custom"], .custom)]

instance : Codec ValidationKind :=
  ⟨word ValidationKind.words, fun k => .text (wordOf ValidationKind.words k)⟩

/-- The words for comparisons of cells. -/
def CellOperator.words : List (List String × CellOperator) :=
  [(["between"], .between), (["notBetween"], .notBetween), (["equal"], .equal),
    (["notEqual"], .notEqual), (["lessThan"], .lessThan), (["lessThanOrEqual"], .lessThanOrEqual),
    (["greaterThan"], .greaterThan), (["greaterThanOrEqual"], .greaterThanOrEqual),
    (["contains"], .contains), (["beginsWith"], .beginsWith), (["endsWith"], .endsWith)]

instance : Codec CellOperator :=
  ⟨word CellOperator.words, fun o => .text (wordOf CellOperator.words o)⟩

/-- The words for what a conditional format tests. -/
def ConditionKind.words : List (List String × ConditionKind) :=
  [(["cellIs"], .cellIs), (["expression"], .expression), (["containsText"], .containsText),
    (["beginsWith"], .beginsWith), (["endsWith"], .endsWith)]

instance : Codec ConditionKind :=
  ⟨word ConditionKind.words, fun k => .text (wordOf ConditionKind.words k)⟩

namespace DataValidation

/-- The fields of a validation. -/
def fields : Fields DataValidation :=
  DataValidation.mk <$> .required "type" decoder <*> .listedOptional "operator" decoder
    <*> .listedOptional "formula1" text <*> .listedOptional "formula2" text
    <*> .required "allowBlank" boolean <*> .required "showDropdown" boolean
    <*> .listedOptional "listValues" (list text)

/-- The tree of a validation. -/
def tree (v : DataValidation) : Json :=
  .object (member "type" (encode v.kind) ++ memberIf "operator" encode v.operator ++
    memberIf "formula1" .text v.formula1 ++ memberIf "formula2" .text v.formula2 ++
    member "allowBlank" (.boolean v.allowBlank) ++
    member "showDropdown" (.boolean v.showDropdown) ++
    memberIf "listValues" (fun values => .list (values.map .text)) v.listValues)

instance : Codec DataValidation := ⟨record "struct DataValidation" fields, tree⟩

end DataValidation

namespace ConditionalFormat

/-- The fields of a conditional format. -/
def fields : Fields ConditionalFormat :=
  ConditionalFormat.mk <$> .required "type" decoder <*> .listedOptional "operator" decoder
    <*> .listedOptional "formula1" text <*> .listedOptional "formula2" text
    <*> .required "style" decoder

/-- The tree of a conditional format. -/
def tree (f : ConditionalFormat) : Json :=
  .object (member "type" (encode f.kind) ++ memberIf "operator" encode f.operator ++
    memberIf "formula1" .text f.formula1 ++ memberIf "formula2" .text f.formula2 ++
    member "style" (encode f.style))

instance : Codec ConditionalFormat := ⟨record "struct ConditionalFormat" fields, tree⟩

end ConditionalFormat

namespace Behavior

/-- The fields of a behavior. -/
def fields : Fields Behavior :=
  Behavior.mk <$> .listedOptional "validation" decoder
    <*> .defaulted "conditionals" (list decoder) [] <*> .listedOptional "format" text

/-- The tree of a behavior. -/
def tree (b : Behavior) : Json :=
  .object (memberIf "validation" encode b.validation ++
    memberList "conditionals" encode b.conditionals ++ memberIf "format" .text b.format)

instance : Codec Behavior := ⟨record "struct Behavior" fields, tree⟩

end Behavior

namespace SheetColumn

/-- The fields of a column. -/
def fields : Fields SheetColumn :=
  SheetColumn.mk <$> .required "title" text <*> .listedOptional "titleStyle" decoder
    <*> .listedOptional "dataStyle" decoder <*> .listedOptional "behavior" decoder
    <*> .listedOptional "valueExpression" text

/-- The tree of a column. -/
def tree (c : SheetColumn) : Json :=
  .object (member "title" (.text c.title) ++ memberIf "titleStyle" encode c.titleStyle ++
    memberIf "dataStyle" encode c.dataStyle ++ memberIf "behavior" encode c.behavior ++
    memberIf "valueExpression" .text c.valueExpression)

instance : Codec SheetColumn := ⟨record "struct OutputColumn" fields, tree⟩

end SheetColumn

namespace SheetGroup

/-- The fields of a group. -/
def fields : Fields SheetGroup :=
  SheetGroup.mk <$> .required "title" text <*> .listedOptional "titleStyle" decoder
    <*> .required "columns" (list decoder)

/-- The tree of a group. -/
def tree (g : SheetGroup) : Json :=
  .object (member "title" (.text g.title) ++ memberIf "titleStyle" encode g.titleStyle ++
    member "columns" (.list (g.columns.map encode)))

instance : Codec SheetGroup := ⟨record "struct OutputGroup" fields, tree⟩

end SheetGroup

namespace SheetPage

/-- The fields of a page. -/
def fields : Fields SheetPage :=
  SheetPage.mk <$> .required "title" text <*> .listedOptional "tabColor" decoder
    <*> .required "rows" count <*> .required "groups" (list decoder)

/-- The tree of a page. -/
def tree (p : SheetPage) : Json :=
  .object (member "title" (.text p.title) ++ memberIf "tabColor" encode p.tabColor ++
    member "rows" (ofCount p.rows) ++ member "groups" (.list (p.groups.map encode)))

instance : Codec SheetPage := ⟨record "struct OutputPage" fields, tree⟩

end SheetPage

namespace SheetBook

/-- The fields of a book. -/
def fields : Fields SheetBook :=
  SheetBook.mk <$> .required "title" text <*> .required "pages" (list decoder)

/-- The tree of a book. -/
def tree (b : SheetBook) : Json :=
  .object (member "title" (.text b.title) ++ member "pages" (.list (b.pages.map encode)))

instance : Codec SheetBook := ⟨record "struct OutputBook" fields, tree⟩

end SheetBook

end Workbook
