import Workbook.Schema.Books
import Workbook.Source

/-!
# Documents

Reading a tree as a book. When the tree is no book, its levels are inspected one by one, so that every
fault is reported at its own path. A book must also have a page, every page a group, and every group a
column.
-/

namespace Workbook.Document

open Schema

/-- What stands before the last occurrence of a mark. -/
def beforeLast (mark : List Char) : List Char → Option (List Char)
  | [] => none
  | c :: cs =>
    match beforeLast mark cs with
    | some before => some (c :: before)
    | none => if mark.isPrefixOf (c :: cs) then some [] else none

/-- What introduces a position at the end of a message. -/
def positionMark : List Char := " at line ".toList

/-- A message without the position at its end. -/
def withoutPosition (message : String) : String :=
  match beforeLast positionMark message.toList with
  | some before => String.ofList before
  | none => message

/-- The issue of a fault at a path. -/
def faultIssue (path : Path) (fault : Fault) : Issue :=
  .validating (withoutPosition fault.message) path

/-- The issue of a member that is absent. -/
def missing (path : Path) (key : String) : Issue :=
  .validating ("missing field '" ++ key ++ "'") path

/-- The members of an object at a path, or an issue that names what is expected there. -/
def membersOf (what : String) (path : Path) : Json → Except (List Issue) (List (String × Json))
  | .object members => .ok members
  | _ => .error [.validating (what ++ " must be an object") path]

/-- The issues of a member that must be of a type. -/
def memberIssues {α : Type} (decoder : Decoder α) (needed : Bool) (path : Path) (key : String)
    (members : List (String × Json)) : List Issue :=
  match members.lookup key with
  | some v =>
    match decoder .plain v with
    | .ok _ => []
    | .error fault => [faultIssue (path.key key) fault]
  | none => if needed then [missing path key] else []

/-- The issues of a member that must be a list, those of its items included. -/
def listIssues (item : Path → Json → List Issue) (path : Path) (key : String)
    (members : List (String × Json)) : List Issue :=
  match members.lookup key with
  | some (.list items) =>
    items.zipIdx.flatMap fun (v, i) => item ((path.key key).index i) v
  | some _ => [.validating ("'" ++ key ++ "' must be an array") (path.key key)]
  | none => [missing path key]

/-- The issues of the members that all levels have. -/
def levelIssues (path : Path) (members : List (String × Json)) : List Issue :=
  memberIssues text true path "name" members ++
    memberIssues (decoder : Decoder (Ref Theme)) false path "theme" members ++
    memberIssues (decoder : Decoder Definitions) false path "definitions" members

/-- The issues of a level with some members of its own. -/
def inspect (what : String) (own : Path → List (String × Json) → List Issue) (path : Path) (v : Json) :
    List Issue :=
  match membersOf what path v with
  | .error issues => issues
  | .ok members => levelIssues path members ++ own path members

/-- The issues of a column. -/
def columnIssues : Path → Json → List Issue :=
  inspect "column" fun path members =>
    memberIssues (decoder : Decoder (Ref DataType)) true path "type" members ++
      memberIssues (decoder : Decoder Expression) false path "value" members

/-- The issues of a group. -/
def groupIssues : Path → Json → List Issue :=
  inspect "group" (listIssues columnIssues · "columns" ·)

/-- The issues of a page. -/
def pageIssues : Path → Json → List Issue :=
  inspect "page" fun path members =>
    memberIssues count true path "rows" members ++ listIssues groupIssues path "groups" members

/-- The issues of a book. -/
def bookIssues (v : Json) : List Issue :=
  inspect "book" (listIssues pageIssues · "pages" ·) .root v

/-- The issue of a group without columns. -/
def groupStructure (path : Path) (g : Group) : List Issue :=
  if g.columns.isEmpty then
    [.validating ("group '" ++ g.name ++ "' has no columns") (path.key "columns")]
  else []

/-- The issues of a page without groups, and of its groups without columns. -/
def pageStructure (path : Path) (p : Page) : List Issue :=
  (if p.groups.isEmpty then
    [.validating ("page '" ++ p.name ++ "' has no groups") (path.key "groups")]
  else []) ++
    p.groups.zipIdx.flatMap fun (g, j) => groupStructure ((path.key "groups").index j) g

/-- The issues of levels that hold nothing. -/
def structureIssues (b : Book) : List Issue :=
  let path := Path.root.key "pages"
  (if b.pages.isEmpty then [.validating "book has no pages" path] else []) ++
    b.pages.zipIdx.flatMap fun (p, i) => pageStructure (path.index i) p

/-- Read a tree as a book that is whole, or report what is wrong with it. -/
def validate (v : Json) : Except (List Issue) Book :=
  match decode Book v with
  | .ok book =>
    match structureIssues book with
    | [] => .ok book
    | issues => .error issues
  | .error fault =>
    match bookIssues v with
    | [] => .error [faultIssue .root fault]
    | issues => .error issues

/-- Read a source text as a book that is whole, or report what is wrong with it. -/
def read (source : String) : Except (List Issue) Book := do
  let tree ← (Source.parse source).mapError ([·])
  validate tree

end Workbook.Document
