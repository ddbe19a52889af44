import Workbook.Schema.Decoder
import Workbook.Issue

/-!
# Issues as trees

An issue holds the members of its place beside its own.
-/

namespace Workbook

open Schema

/-- The words for phases are their labels. -/
def Phase.words : List (List String × Phase) :=
  [.parsing, .validating, .processing, .generating].map fun p => ([Phase.label p], p)

instance : Codec Phase := ⟨word Phase.words, fun p => .text p.label⟩

namespace Segment

/-- Read a step of a path: a place in a list, or a key. -/
def decoder : Decoder Segment := readings "PathSegment" [size.map .index, text.map .key]

/-- The tree of a step of a path. -/
def tree : Segment → Json
  | .index n => .ofNat n
  | .key name => .text name

instance : Codec Segment := ⟨Segment.decoder, tree⟩

end Segment

namespace Path

/-- The tree of a path. -/
def tree (p : Path) : Json := .list (p.segments.map encode)

instance : Codec Path := ⟨(list decoder).map .mk, tree⟩

end Path

namespace Location

/-- The fields of a location. -/
def fields : Fields Location :=
  Location.mk <$> .required "index" size <*> .required "line" size <*> .required "column" size

/-- The tree of a location. -/
def tree (l : Location) : Json :=
  .object (member "index" (.ofNat l.index) ++ member "line" (.ofNat l.line) ++
    member "column" (.ofNat l.column))

instance : Codec Location := ⟨record "struct Location" fields, tree⟩

end Location

namespace Place

/-- The fields of a node's place. -/
def nodeFields : Fields Place := Place.node <$> .required "path" decoder

/-- The fields of a place in a source text. -/
def sourceFields : Fields Place := Place.source <$> .required "location" decoder <*> .required "length" size

/-- Read a place. -/
def decoder : Decoder Place :=
  readings "Origin"
    [namedRecord "struct variant Origin::Path" nodeFields,
      namedRecord "struct variant Origin::Source" sourceFields]

/-- The members of a place. -/
def members : Place → List (String × Json)
  | .node path => member "path" (encode path)
  | .source location length => member "location" (encode location) ++ member "length" (.ofNat length)

instance : Codec Place := ⟨Place.decoder, fun p => .object p.members⟩

end Place

namespace Issue

/-- The fields of an issue apart from its place. -/
def fields : Fields (Place → Issue) :=
  (fun phase message data place => ⟨phase, message, place, data⟩) <$> .required "type" decoder
    <*> .required "message" Schema.text <*> .listedOptional "data" anything

/-- Read an issue. Its place is read from the members that are no fields of the issue itself. -/
def decoder : Decoder Issue
  | h, .object members => do
    let issue ← namedRecord "struct Issue" fields h (.object members)
    let own : List String := ["type", "message", "data"]
    let place ← Place.decoder h (.object (members.filter fun (key, _) => !own.contains key))
    return issue place
  | _, v => .error (.wrongType v "struct Issue")

/-- The tree of an issue. -/
def tree (i : Issue) : Json :=
  .object (member "type" (encode i.phase) ++ member "message" (.text i.message) ++
    i.place.members ++ memberIf "data" id i.data)

instance : Codec Issue := ⟨Issue.decoder, tree⟩

end Issue

end Workbook
