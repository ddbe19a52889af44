import Workbook.Schema.Decoder
import Workbook.Style

/-!
# Colors, styles and themes as trees

The declared and the resolved forms. Resolved styles and themes hold colors only, declared ones may hold
references.
-/

namespace Workbook

open Schema

/-- A reference `@name`. -/
def Ref.decodeName : Decoder String := fun h v => do
  let s ← text h v
  match Ref.nameIn? s with
  | some name => .ok name
  | none => .error (.notReference s)

/-- The tree of a name. -/
def Ref.encodeName (name : String) : Json := .text (Ref.textOf name)

/-- A reference, or else a value. -/
def Ref.decodeWith {α : Type} (value : Decoder α) : Decoder (Ref α) :=
  readings "Ref" [Ref.decodeName.map .named, value.map .inline]

/-- The tree of a reference or a value. -/
def Ref.encodeWith {α : Type} (value : α → Json) : Ref α → Json
  | .named name => Ref.encodeName name
  | .inline a => value a

instance {α : Type} [Codec α] : Codec (Ref α) := ⟨Ref.decodeWith decoder, Ref.encodeWith encode⟩

namespace Color

/-- A color text. -/
def decoder : Decoder Color := fun h v => do
  let s ← Schema.text h v
  match Color.ofText? s with
  | some c => .ok c
  | none => .error (.notColor s)

instance : Codec Color := ⟨Color.decoder, fun c => .text c.text⟩

end Color

/-- The words for border lines. -/
def BorderStyle.words : List (List String × BorderStyle) :=
  [(["none"], .none), (["dotted"], .dotted), (["dashed"], .dashed), (["solid"], .solid),
    (["medium"], .medium), (["thick"], .thick), (["double"], .double)]

instance : Codec BorderStyle := ⟨word BorderStyle.words, fun s => .text (wordOf BorderStyle.words s)⟩

namespace Border

/-- The fields of a declared border. -/
def fields : Fields Border :=
  Border.mk <$> .required "type" decoder <*> .optional "color" decoder

/-- The tree of a declared border. -/
def tree (b : Border) : Json :=
  .object (member "type" (encode b.style) ++ memberIf "color" encode b.color)

instance : Codec Border := ⟨record "struct Border" fields, tree⟩

end Border

namespace Style

/-- The fields of a declared style. -/
def fields : Fields Style :=
  Style.mk <$> .optional "fore" decoder <*> .optional "back" decoder
    <*> .optional "bold" boolean <*> .optional "italic" boolean
    <*> .optional "beneath" decoder <*> .optional "between" decoder

/-- The tree of a declared style. -/
def tree (s : Style) : Json :=
  .object (memberIf "fore" encode s.fore ++ memberIf "back" encode s.back ++
    memberIf "bold" .boolean s.bold ++ memberIf "italic" .boolean s.italic ++
    memberIf "beneath" encode s.beneath ++ memberIf "between" encode s.between)

instance : Codec Style := ⟨record "struct Style" fields, tree⟩

end Style

namespace Theme

/-- The fields of a declared theme whose inherited themes are read by a given reader. -/
def fields (inherited : Decoder Theme) : Fields Theme :=
  Theme.mk <$> .defaulted "inherits" (list (Ref.decodeWith inherited)) []
    <*> .optional "tab" decoder <*> .optional "group" decoder
    <*> .optional "header" decoder <*> .optional "data" decoder

/-- Read a declared theme. -/
def decoder : Decoder Theme := nested fun inherited => record "struct Theme" (fields inherited)

mutual
/-- The tree of a declared theme. -/
def tree : Theme → Json
  | ⟨inherits, tab, group, header, data⟩ =>
    .object ((match treeOfList inherits with
        | [] => []
        | items => member "inherits" (.list items)) ++
      memberIf "tab" encode tab ++ memberIf "group" encode group ++
      memberIf "header" encode header ++ memberIf "data" encode data)

/-- The tree of a theme or of a name. -/
def treeOfRef : Ref Theme → Json
  | .named name => Ref.encodeName name
  | .inline t => tree t

/-- The trees of inherited themes. -/
def treeOfList : List (Ref Theme) → List Json
  | [] => []
  | t :: ts => treeOfRef t :: treeOfList ts
end

instance : Codec Theme := ⟨Theme.decoder, tree⟩

end Theme

namespace SheetBorder

/-- The fields of a border. -/
def fields : Fields SheetBorder :=
  SheetBorder.mk <$> .required "type" decoder <*> .listedOptional "color" decoder

/-- The tree of a border. -/
def tree (b : SheetBorder) : Json :=
  .object (member "type" (encode b.style) ++ memberIf "color" encode b.color)

instance : Codec SheetBorder := ⟨record "struct SheetBorder" fields, tree⟩

end SheetBorder

namespace SheetStyle

/-- The fields of a style. -/
def fields : Fields SheetStyle :=
  SheetStyle.mk <$> .listedOptional "fore" decoder <*> .listedOptional "back" decoder
    <*> .listedOptional "bold" boolean <*> .listedOptional "italic" boolean
    <*> .listedOptional "beneath" decoder <*> .listedOptional "between" decoder

/-- The tree of a style. -/
def tree (s : SheetStyle) : Json :=
  .object (memberIf "fore" encode s.fore ++ memberIf "back" encode s.back ++
    memberIf "bold" .boolean s.bold ++ memberIf "italic" .boolean s.italic ++
    memberIf "beneath" encode s.beneath ++ memberIf "between" encode s.between)

instance : Codec SheetStyle := ⟨record "struct SheetStyle" fields, tree⟩

end SheetStyle

namespace SheetTheme

/-- The fields of a theme. -/
def fields : Fields SheetTheme :=
  SheetTheme.mk <$> .listedOptional "tab" decoder <*> .required "group" decoder
    <*> .required "header" decoder <*> .required "data" decoder

/-- The tree of a theme. -/
def tree (t : SheetTheme) : Json :=
  .object (memberIf "tab" encode t.tab ++ member "group" (encode t.group) ++
    member "header" (encode t.header) ++ member "data" (encode t.data))

instance : Codec SheetTheme := ⟨record "struct SheetTheme" fields, tree⟩

end SheetTheme

end Workbook
