import Workbook.Schema.Decoder
import Workbook.Expression

/-!
# Selectors and expressions as trees
-/

namespace Workbook

open Schema

/-- The word for what belongs to the formula itself. -/
def ownWord : String := "self"

/-- The word `self`. -/
def decodeOwn : Decoder Unit := word [([ownWord], ())]

namespace ColumnSelector

/-- The fields of a column selector. -/
def fields : Fields ColumnSelector :=
  ColumnSelector.mk <$> .optional "page" text <*> .optional "group" text <*> .required "column" text

/-- The tree of a column selector. -/
def tree (s : ColumnSelector) : Json :=
  .object (memberIf "page" .text s.page ++ memberIf "group" .text s.group ++
    member "column" (.text s.column))

instance : Codec ColumnSelector := ⟨record "struct ColumnSelector" fields, tree⟩

end ColumnSelector

namespace ColumnTarget

/-- The word `self`, or a column. -/
def decoder : Decoder ColumnTarget :=
  readings "ColumnTarget" [decodeOwn.map fun _ => .own, Schema.decoder.map .column]

/-- The tree of a column target. -/
def tree : ColumnTarget → Json
  | .own => .text ownWord
  | .column s => encode s

instance : Codec ColumnTarget := ⟨ColumnTarget.decoder, tree⟩

end ColumnTarget

namespace RowUnits

/-- The fields of a range of rows. -/
def rangeFields : Fields RowUnits := RowUnits.range <$> .required "from" text <*> .required "to" text

/-- A row unit, or two of them. -/
def decoder : Decoder RowUnits :=
  readings "RowSelector" [text.map .single, namedRecord "struct variant RowSelector::Range" rangeFields]

/-- The tree of row units. -/
def tree : RowUnits → Json
  | .single u => .text u
  | .range a b => .object (member "from" (.text a) ++ member "to" (.text b))

instance : Codec RowUnits := ⟨RowUnits.decoder, tree⟩

end RowUnits

namespace RowTarget

/-- The words for rows. -/
def words : List (List String × RowTarget) := [([ownWord], .own), (["all"], .all)]

/-- A word for rows, or row units. -/
def decoder : Decoder RowTarget := readings "RowTarget" [word words, Schema.decoder.map .units]

/-- The tree of a row target. -/
def tree : RowTarget → Json
  | .own => .text ownWord
  | .all => .text "all"
  | .units u => encode u

instance : Codec RowTarget := ⟨RowTarget.decoder, tree⟩

end RowTarget

namespace TargetSelector

/-- The fields of a column with rows. -/
def fields : Fields TargetSelector :=
  TargetSelector.mk <$> .required "column" decoder <*> .required "rows" decoder

/-- The tree of a column with rows. -/
def tree (s : TargetSelector) : Json :=
  .object (member "column" (encode s.column) ++ member "rows" (encode s.rows))

instance : Codec TargetSelector := ⟨record "struct TargetSelector" fields, tree⟩

end TargetSelector

namespace Selector

/-- The word `self`, or a column with rows. -/
def decoder : Decoder Selector :=
  readings "Selector" [decodeOwn.map fun _ => .own, Schema.decoder.map .target]

/-- The tree of a selector. -/
def tree : Selector → Json
  | .own => .text ownWord
  | .target cells => encode cells

instance : Codec Selector := ⟨Selector.decoder, tree⟩

end Selector

/-- The words for operators are their signs. -/
def Operator.words : List (List String × Operator) :=
  [.add, .subtract, .multiply, .divide, .power, .concat, .equal, .notEqual, .less, .greater,
    .lessOrEqual, .greaterOrEqual].map fun o => ([Operator.token o], o)

instance : Codec Operator := ⟨word Operator.words, fun o => .text o.token⟩

namespace Expression

/-- The expressions that are written as objects, by their tag. -/
def nodes (inner : Decoder Expression) : List (List String × Decoder Expression) :=
  [(["compound"], record "struct variant Node::Compound"
      (Expression.compound <$> .required "with" decoder <*> .required "items" (list inner))),
    (["negated"], record "struct variant Node::Negated"
      (Expression.negated <$> .required "item" inner)),
    (["function"], record "struct variant Node::Function"
      (Expression.function <$> .required "name" Schema.text <*> .defaulted "items" (list inner) [])),
    (["selector"], record "struct variant Node::Selector"
      (Expression.selector <$> .required "from" decoder)),
    (["raw", "template"], record "struct variant Node::Template"
      (Expression.template <$> .required "text" Schema.text <*> .defaulted "vars" (dict decoder) []))]

/-- Read an expression: a truth value, a number, a text, or a tagged node. -/
def decoder : Decoder Expression := nested fun inner =>
  readings "ExpressionRepr"
    [Schema.boolean.map .boolean, Schema.real.map .number, Schema.text.map .text, tagged "Node" (nodes inner)]

/-- The members of a node under its tag. -/
def node (tag : String) (members : List (String × Json)) : Json :=
  .object (member tagKey (.text tag) ++ members)

mutual
/-- The tree of an expression. -/
def tree : Expression → Json
  | .text s => .text s
  | .number x => .real x
  | .boolean b => .boolean b
  | .compound op items =>
    node "compound" (member "with" (encode op) ++ member "items" (.list (treeOfList items)))
  | .negated item => node "negated" (member "item" (tree item))
  | .function name items =>
    node "function" (member "name" (.text name) ++ member "items" (.list (treeOfList items)))
  | .selector s => node "selector" (member "from" (encode s))
  | .template s vars =>
    node "template" (member "text" (.text s) ++
      member "vars" (.object (vars.map fun (name, v) => (name, encode v))))

/-- The trees of items. -/
def treeOfList : List Expression → List Json
  | [] => []
  | e :: es => tree e :: treeOfList es
end

instance : Codec Expression := ⟨Expression.decoder, tree⟩

end Expression

end Workbook
