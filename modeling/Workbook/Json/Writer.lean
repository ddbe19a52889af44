import Workbook.Json.Basic
import Workbook.Decimal.Shortest
import Workbook.Text.Numeral

/-!
# Writing JSON text

Two layouts of a tree: on one line without blanks, and indented by two blanks a level with one item or
member a line. Both write members in the order in which the tree holds them.
-/

namespace Workbook.Json

open Workbook.Text

/-- One character of a written text: quotes, backslashes and controls are escaped. -/
def writtenChar (c : Char) : List Char :=
  if c = '"' then ['\\', '"']
  else if c = '\\' then ['\\', '\\']
  else if c = '\n' then ['\\', 'n']
  else if c = '\r' then ['\\', 'r']
  else if c = '\t' then ['\\', 't']
  else if c = '\x08' then ['\\', 'b']
  else if c = '\x0c' then ['\\', 'f']
  else if c.toNat < 0x20 then
    ['\\', 'u', '0', '0', if c.toNat < 0x10 then '0' else '1'] ++ lowerHex (c.toNat % 16)
  else [c]

/-- A text between quotes. -/
def writeText (s : String) : List Char := '"' :: s.toList.flatMap writtenChar ++ ['"']

/-- The layout of a document. -/
inductive Layout where
  /-- On one line, without blanks. -/
  | compact
  /-- Indented by two blanks a level. -/
  | indented
deriving DecidableEq, Repr

/-- The break before an item at a level. -/
def Layout.break (layout : Layout) (level : Nat) : List Char :=
  match layout with
  | .compact => []
  | .indented => '\n' :: List.replicate (2 * level) ' '

/-- What stands between a key and its value. -/
def Layout.colon : Layout → List Char
  | .compact => [':']
  | .indented => [':', ' ']

mutual
/-- A tree whose brackets stand at a level. -/
def write (layout : Layout) (level : Nat) : Json → List Char
  | .null => ['n', 'u', 'l', 'l']
  | .boolean true => ['t', 'r', 'u', 'e']
  | .boolean false => ['f', 'a', 'l', 's', 'e']
  | .integer n => (toString n).toList
  | .real x => (Decimal.taggedText x).toList
  | .text s => writeText s
  | .list [] => ['[', ']']
  | .list (item :: items) =>
    '[' :: layout.break (level + 1) ++ write layout (level + 1) item ++
      writeItems layout (level + 1) items ++ layout.break level ++ [']']
  | .object [] => ['\x7b', '\x7d']
  | .object ((key, value) :: members) =>
    '\x7b' :: layout.break (level + 1) ++ writeText key ++ layout.colon ++
      write layout (level + 1) value ++ writeMembers layout (level + 1) members ++
      layout.break level ++ ['\x7d']

/-- The items after the first. -/
def writeItems (layout : Layout) (level : Nat) : List Json → List Char
  | [] => []
  | item :: items =>
    ',' :: layout.break level ++ write layout level item ++ writeItems layout level items

/-- The members after the first. -/
def writeMembers (layout : Layout) (level : Nat) : List (String × Json) → List Char
  | [] => []
  | (key, value) :: members =>
    ',' :: layout.break level ++ writeText key ++ layout.colon ++ write layout level value ++
      writeMembers layout level members
end

/-- The document in a layout. -/
def render (layout : Layout) (value : Json) : String := String.ofList (write layout 0 value)

end Workbook.Json
