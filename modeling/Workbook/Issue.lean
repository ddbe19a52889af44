import Workbook.Json.Basic

/-!
# Issues

What is reported about a book: the phase that found it, a message, and the place, which is a path into
the tree of the book or a location in its source text.
-/

namespace Workbook

/-- One step into the tree of a book. -/
inductive Segment where
  | index (n : Nat)
  | key (name : String)
deriving DecidableEq, Repr

/-- The way from the root of a tree to one of its nodes. -/
structure Path where
  segments : List Segment := []
deriving DecidableEq, Repr

namespace Path

/-- The path of the whole tree. -/
def root : Path := ⟨[]⟩

/-- The path of a member. -/
def key (p : Path) (name : String) : Path := ⟨p.segments ++ [.key name]⟩

/-- The path of an item. -/
def index (p : Path) (n : Nat) : Path := ⟨p.segments ++ [.index n]⟩

/-- One step of a path that is not its first. -/
def stepText : Segment → String
  | .index n => "[" ++ toString n ++ "]"
  | .key name => "." ++ name

/-- The path as messages show it: `pages[0].name`, the root as `<root>`. -/
def text (p : Path) : String :=
  match p.segments with
  | [] => "<root>"
  | .key name :: rest => name ++ String.join (rest.map stepText)
  | .index n :: rest => String.join ((Segment.index n :: rest).map stepText)

end Path

/-- The phase that reports an issue. -/
inductive Phase where
  | parsing
  | validating
  | processing
  | generating
deriving DecidableEq, Repr

/-- The name of a phase. -/
def Phase.label : Phase → String
  | .parsing => "parsing"
  | .validating => "validating"
  | .processing => "processing"
  | .generating => "generating"

/-- A position in a source text. -/
structure Location where
  /-- Bytes before it. -/
  index : Nat
  /-- Lines counted from one. -/
  line : Nat
  /-- Bytes of the line, the one at the position included. -/
  column : Nat
deriving DecidableEq, Repr

/-- Where an issue points. -/
inductive Place where
  | node (path : Path)
  | source (location : Location) (length : Nat)
deriving DecidableEq, Repr

/-- A problem found in the input. -/
structure Issue where
  phase : Phase
  message : String
  place : Place
  /-- What is known beyond the message, such as the chain of a circular reference. -/
  data : Option Json := none

namespace Issue

/-- An issue about a node of the tree. -/
def about (phase : Phase) (message : String) (path : Path) : Issue := ⟨phase, message, .node path, none⟩

/-- An issue of the compilation. -/
def processing (message : String) (path : Path) : Issue := .about .processing message path

/-- An issue of the schema. -/
def validating (message : String) (path : Path) : Issue := .about .validating message path

/-- The place as the text of an issue shows it. -/
def placeText : Place → String
  | .node path => path.text
  | .source location _ => toString location.line ++ ":" ++ toString location.column

/-- The issue on one line. -/
def text (i : Issue) : String :=
  i.phase.label ++ " error at " ++ placeText i.place ++ ": " ++ i.message

end Issue

end Workbook
