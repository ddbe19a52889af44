import Workbook.Scope

/-!
# Remembered answers

Each level remembers the answers to the names that were asked there, and the root also the values that
came from a standard library. A remembered answer is given without a search. The memory never changes an
answer; it shows in the counts of hits and searches, and in what is traced.
-/

namespace Workbook

/-- What one level remembers for one kind. -/
structure Recollection (α : Type) where
  /-- The answers by the names that were asked. -/
  found : List (String × Found α) := []
  /-- Answers given from memory. -/
  hits : Nat := 0
  /-- Searches. -/
  walks : Nat := 0

/-- What all levels remember for one kind. -/
structure Memo (α : Type) where
  levels : List (Site × Recollection α) := []

/-- What is traced when a name is resolved. -/
inductive TraceEvent where
  /-- The answer for a name was remembered. -/
  | remembered (name : String)
  /-- A name was taken from a standard library for the first time. -/
  | standard (name : String)
deriving DecidableEq, Repr

namespace Memo

variable {α : Type}

/-- What a level remembers. -/
def at? (m : Memo α) (site : Site) : Recollection α := (m.levels.lookup site).getD {}

/-- Change what a level remembers. -/
def modify (m : Memo α) (site : Site) (f : Recollection α → Recollection α) : Memo α :=
  ⟨(site, f (m.at? site)) :: m.levels.filter (·.1 ≠ site)⟩

/-- The remembered answer for a name. -/
def remembered? (m : Memo α) (site : Site) (name : String) : Option (Found α) :=
  (m.at? site).found.lookup name

/-- Remember an answer. -/
def remember (m : Memo α) (site : Site) (name : String) (answer : Found α) : Memo α :=
  m.modify site fun r => { r with found := (name, answer) :: r.found }

/-- Take a name that no level defines from the memory of the root, or else from a standard library, and
remember it there. -/
def standard? (m : Memo α) (library : String → Option α) (name : String) :
    Option (Found α × Memo α × List TraceEvent) :=
  match m.remembered? [] name with
  | some answer => some (answer, m, [])
  | none =>
    (library name).map fun value =>
      let answer : Found α := ⟨value, .standard name⟩
      (answer, m.remember [] name answer, [.standard name])

/-- Search for a name that is not remembered, and remember the answer. -/
def search (m : Memo α) (library : String → Option α) (layers : Layers α) (name : String) :
    Except NameFault (Found α) × Memo α × List TraceEvent :=
  match layers.walk [] name with
  | .circular chain => (.error (.circular chain), m, [])
  | .value site origin value =>
    let answer : Found α := ⟨value, .definition site origin⟩
    (.ok answer, m.remember layers.site name answer, [])
  | .missing chain last =>
    match m.standard? library last with
    | none => (.error (.unknown chain last), m, [])
    | some (answer, m, events) => (.ok answer, m.remember layers.site name answer, events)

/-- The value of a name, from memory or by a search. -/
def resolve (m : Memo α) (library : String → Option α) (layers : Layers α) (name : String) :
    Except NameFault (Found α) × Memo α × List TraceEvent :=
  match m.remembered? layers.site name with
  | some answer =>
    (.ok answer, m.modify layers.site fun r => { r with hits := r.hits + 1 }, [.remembered name])
  | none =>
    (m.modify layers.site fun r => { r with walks := r.walks + 1 }).search library layers name

end Memo

/-- What all levels remember for all kinds. -/
structure Memos where
  colors : Memo Color := {}
  styles : Memo Style := {}
  themes : Memo Theme := {}
  numerics : Memo NumericFormat := {}
  temporals : Memo TemporalFormat := {}
  types : Memo DataType := {}

namespace Memos

/-- The memory of a kind. -/
def get (m : Memos) : (k : Kind) → Memo k.Value
  | .color => m.colors
  | .style => m.styles
  | .theme => m.themes
  | .numeric => m.numerics
  | .temporal => m.temporals
  | .dataType => m.types

/-- Replace the memory of a kind. -/
def set (m : Memos) : (k : Kind) → Memo k.Value → Memos
  | .color, n => { m with colors := n }
  | .style, n => { m with styles := n }
  | .theme, n => { m with themes := n }
  | .numeric, n => { m with numerics := n }
  | .temporal, n => { m with temporals := n }
  | .dataType, n => { m with types := n }

/-- The value of a name in a scope, from memory or by a search. -/
def resolve (m : Memos) (s : Scope) (k : Kind) (name : String) :
    Except NameFault (Found k.Value) × Memos × List TraceEvent :=
  let (answer, memo, events) := (m.get k).resolve (s.standard k) (s.layers k) name
  (answer, m.set k memo, events)

end Memos

end Workbook
