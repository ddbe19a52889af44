import Workbook.Schema.DataTypes
import Workbook.Book

/-!
# Books as trees
-/

namespace Workbook

open Schema

namespace Definitions

/-- The fields of definitions. -/
def fields : Fields Definitions :=
  Definitions.mk <$> .defaulted "colors" (dict decoder) [] <*> .defaulted "styles" (dict decoder) []
    <*> .defaulted "themes" (dict decoder) [] <*> .defaulted "numerics" (dict decoder) []
    <*> .defaulted "temporals" (dict decoder) [] <*> .defaulted "types" (dict decoder) []

/-- The tree of definitions. -/
def tree (d : Definitions) : Json :=
  .object (memberDict "colors" encode d.colors ++ memberDict "styles" encode d.styles ++
    memberDict "themes" encode d.themes ++ memberDict "numerics" encode d.numerics ++
    memberDict "temporals" encode d.temporals ++ memberDict "types" encode d.types)

instance : Codec Definitions := ⟨record "struct Definitions" fields, tree⟩

end Definitions

namespace Column

/-- The fields of a column. -/
def fields : Fields Column :=
  Column.mk <$> .required "name" text <*> .optional "theme" decoder
    <*> .optional "definitions" decoder <*> .required "type" decoder <*> .optional "value" decoder

/-- The tree of a column. -/
def tree (c : Column) : Json :=
  .object (member "name" (.text c.name) ++ memberIf "theme" encode c.theme ++
    memberIf "definitions" encode c.definitions ++ member "type" (encode c.dataType) ++
    memberIf "value" encode c.value)

instance : Codec Column := ⟨record "struct Column" fields, tree⟩

end Column

namespace Group

/-- The fields of a group. -/
def fields : Fields Group :=
  Group.mk <$> .required "name" text <*> .optional "theme" decoder
    <*> .optional "definitions" decoder <*> .required "columns" (list decoder)

/-- The tree of a group. -/
def tree (g : Group) : Json :=
  .object (member "name" (.text g.name) ++ memberIf "theme" encode g.theme ++
    memberIf "definitions" encode g.definitions ++
    member "columns" (.list (g.columns.map encode)))

instance : Codec Group := ⟨record "struct Group" fields, tree⟩

end Group

namespace Page

/-- The fields of a page. -/
def fields : Fields Page :=
  Page.mk <$> .required "name" text <*> .required "rows" count <*> .optional "theme" decoder
    <*> .optional "definitions" decoder <*> .required "groups" (list decoder)

/-- The tree of a page. -/
def tree (p : Page) : Json :=
  .object (member "name" (.text p.name) ++ member "rows" (ofCount p.rows) ++
    memberIf "theme" encode p.theme ++ memberIf "definitions" encode p.definitions ++
    member "groups" (.list (p.groups.map encode)))

instance : Codec Page := ⟨record "struct Page" fields, tree⟩

end Page

namespace Book

/-- The fields of a book. -/
def fields : Fields Book :=
  Book.mk <$> .required "name" text <*> .optional "theme" decoder
    <*> .optional "definitions" decoder <*> .required "pages" (list decoder)

/-- The tree of a book. -/
def tree (b : Book) : Json :=
  .object (member "name" (.text b.name) ++ memberIf "theme" encode b.theme ++
    memberIf "definitions" encode b.definitions ++ member "pages" (.list (b.pages.map encode)))

instance : Codec Book := ⟨record "struct Book" fields, tree⟩

end Book

namespace CompileOptions

/-- The fields of the choices of a compilation. -/
def fields : Fields CompileOptions :=
  CompileOptions.mk <$> .defaulted "standardPalette" boolean true
    <*> .defaulted "standardFormats" boolean true <*> .defaulted "metrics" boolean false

/-- The tree of the choices of a compilation. -/
def tree (o : CompileOptions) : Json :=
  .object (member "standardPalette" (.boolean o.standardPalette) ++
    member "standardFormats" (.boolean o.standardFormats) ++ member "metrics" (.boolean o.metrics))

instance : Codec CompileOptions := ⟨record "struct CompileOptions" fields, tree⟩

end CompileOptions

end Workbook
