import Workbook.Json.Basic
import Workbook.Decimal.Shortest
import Workbook.Text.Quoted

/-!
# Faults of a tree

Why a JSON tree is not written as its type asks. There is one constructor for each cause, and the
wording of all of them is in one function.
-/

namespace Workbook.Schema

/-- Why a tree does not decode. -/
inductive Fault where
  /-- A required member is absent. -/
  | missing (field : String)
  /-- A word that names no alternative. -/
  | unknownVariant (found : String) (expected : List String)
  /-- A value of another kind. -/
  | wrongType (found : Json) (expected : String)
  /-- A value of the right kind that is not allowed. -/
  | wrongValue (found : Json) (expected : String)
  /-- A list of another length. -/
  | wrongLength (found : Nat) (expected : String)
  /-- None of the readings of a value succeeds. -/
  | noReading (family : String)
  /-- A text that is no reference. -/
  | notReference (found : String)
  /-- A text that is no color. -/
  | notColor (found : String)
  /-- A value nested deeper than the bound of its reader. -/
  | nestedTooDeep

/-- A found value as messages show it. -/
def shown : Json → String
  | .null => "null"
  | .boolean b => "boolean `" ++ (if b then "true" else "false") ++ "`"
  | .integer n => "integer `" ++ toString n ++ "`"
  | .real x => "floating point `" ++ Decimal.taggedText x ++ "`"
  | .text s => "string " ++ Text.quoted s
  | .list _ => "sequence"
  | .object _ => "map"

/-- A word between backquotes. -/
def ticked (word : String) : String := "`" ++ word ++ "`"

/-- The alternatives that a word could have named. -/
def alternatives : List String → String
  | [] => "there are no variants"
  | [a] => "expected " ++ ticked a
  | [a, b] => "expected " ++ ticked a ++ " or " ++ ticked b
  | words => "expected one of " ++ ", ".intercalate (words.map ticked)

/-- The wording of a text that is no color. -/
def notColorMessage (found : String) : String :=
  "invalid color '" ++ found ++ "', expected #RGB or #RRGGBB"

/-- The wording of a fault. -/
def Fault.message : Fault → String
  | .missing field => "missing field " ++ ticked field
  | .unknownVariant found expected =>
    "unknown variant " ++ ticked found ++ ", " ++ alternatives expected
  | .wrongType found expected => "invalid type: " ++ shown found ++ ", expected " ++ expected
  | .wrongValue found expected => "invalid value: " ++ shown found ++ ", expected " ++ expected
  | .wrongLength found expected =>
    "invalid length " ++ toString found ++ ", expected " ++ expected
  | .noReading family => "data did not match any variant of untagged enum " ++ family
  | .notReference found => "expected a reference like '@name', got '" ++ found ++ "'"
  | .notColor found => notColorMessage found
  | .nestedTooDeep => "recursion limit exceeded"

end Workbook.Schema
