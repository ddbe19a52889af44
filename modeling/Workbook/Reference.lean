/-!
# References

A value is written where it is used, or given by the name of a definition as `@name`.
-/

namespace Workbook

/-- A value, or the name of a definition. -/
inductive Ref (α : Type) where
  | named (name : String)
  | inline (value : α)
deriving DecidableEq, Repr

namespace Ref

/-- The name in `@name`; a text without the mark or without a name is no reference. -/
def nameIn? (text : String) : Option String :=
  match text.toList with
  | '@' :: c :: cs => some (String.ofList (c :: cs))
  | _ => none

/-- The written form of a name. -/
def textOf (name : String) : String := "@" ++ name

end Ref

end Workbook
