import Workbook.Memo

/-!
# Outcomes

The result of work that does not stop at a problem: a best-effort value, the issues that were met, and a
journal of what was done. Two pieces of work one after the other have the issues and the journal of the
first before those of the second.
-/

namespace Workbook

/-- How much a line of the log matters. -/
inductive LogLevel where
  | warn
  | debug
  | trace
deriving DecidableEq, Repr

/-- A part of a book that is compiled. -/
inductive Part where
  | page
  | group
  | column
  | formula
deriving DecidableEq, Repr

/-- An entry of the journal. -/
inductive Entry where
  /-- A name was asked for in a scope. -/
  | lookup (scope : Scope) (kind : Kind) (name : String)
  /-- A part was compiled. -/
  | compiled (part : Part)
  /-- Something worth a line of the log happened. -/
  | note (level : LogLevel) (text : String)

/-- A best-effort value with the issues and the journal of its making. -/
structure Outcome (α : Type) where
  value : α
  issues : List Issue := []
  journal : List Entry := []

namespace Outcome

variable {α β : Type}

/-- One piece of work after another. -/
def bind (a : Outcome α) (f : α → Outcome β) : Outcome β :=
  let b := f a.value
  ⟨b.value, a.issues ++ b.issues, a.journal ++ b.journal⟩

instance : Monad Outcome where
  pure a := ⟨a, [], []⟩
  bind := bind

/-- Report an issue. -/
def report (issue : Issue) : Outcome Unit := ⟨(), [issue], []⟩

/-- Write an entry into the journal. -/
def record (entry : Entry) : Outcome Unit := ⟨(), [], [entry]⟩

/-- The value, or nothing with an issue. -/
def ofExcept : Except Issue α → Outcome (Option α)
  | .ok a => pure (some a)
  | .error issue => ⟨none, [issue], []⟩

/-- Work on a value if there is one. -/
def forOption (f : α → Outcome (Option β)) : Option α → Outcome (Option β)
  | none => pure none
  | some a => f a

end Outcome

namespace Scope

/-- The value of a name and where it is written, or nothing with an issue. -/
def lookup (s : Scope) (k : Kind) (path : Path) (name : String) : Outcome (Option (Found k.Value)) := do
  Outcome.record (.lookup s k name)
  Outcome.ofExcept ((s.resolve k name).mapError (NameFault.issue k.label path))

/-- The value of a reference, or nothing with an issue. -/
def valueOf (s : Scope) (k : Kind) (path : Path) : Ref k.Value → Outcome (Option k.Value)
  | .inline value => pure (some value)
  | .named name => do
    let found ← s.lookup k path name
    return found.map Found.value

end Scope

end Workbook
