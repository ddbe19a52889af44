import Workbook.Cascade
import Workbook.Log

/-!
# Sessions

A tree of scopes that are asked one question after another, with a memory that all questions share.
-/

namespace Workbook

/-- Two answers of one kind are the same object: they are written in the same definition, or come from
the standard library under the same name. A value that is written where it is used is an object of its
own. -/
def Origin.same : Origin → Origin → Bool
  | .inline, _ => false
  | _, .inline => false
  | a, b => a == b

/-- Scopes by number, and what is remembered in them. -/
structure Session where
  scopes : List Scope
  memos : Memos := {}

namespace Session

/-- A session with the scope of a book. -/
def start (definitions : Option Definitions) (options : CompileOptions) : Session :=
  { scopes := [Scope.root definitions options] }

/-- The scope with a number; numbers of no scope mean the first. -/
def scope (s : Session) (n : Nat) : Scope :=
  s.scopes.getD n (s.scopes.headD { standardPalette := false, standardFormats := false })

/-- Open a scope with definitions on top of another. Its number is that of the scopes before it. -/
def overlay (s : Session) (parent : Nat) (definitions : Option Definitions) : Session :=
  { s with scopes := s.scopes ++ [(s.scope parent).overlay [s.scopes.length] definitions] }

/-- Two scopes share the definitions of a kind. -/
def shares (s : Session) (a b : Nat) (k : Kind) : Bool :=
  ((s.scope a).layers k).site == ((s.scope b).layers k).site

/-- Ask for a name. -/
def resolve (s : Session) (n : Nat) (k : Kind) (name : String) :
    Except NameFault (Found k.Value) × Session :=
  let (answer, memos, _) := s.memos.resolve (s.scope n) k name
  (answer, { s with memos })

/-- Ask for a name, or take a value as it is written. -/
def resolveRef (s : Session) (n : Nat) (k : Kind) :
    Ref k.Value → Except NameFault (Found k.Value) × Session
  | .named name => s.resolve n k name
  | .inline value => (.ok ⟨value, .inline⟩, s)

/-- What the level of a scope remembers for a kind. -/
def recollection (s : Session) (n : Nat) (k : Kind) : Recollection k.Value :=
  (s.memos.get k).at? ((s.scope n).layers k).site

/-- The answer for a name is remembered at the level of a scope. -/
def isCached (s : Session) (n : Nat) (k : Kind) (name : String) : Bool :=
  ((s.recollection n k).found.lookup name).isSome

/-- The session after some work. -/
def after {α : Type} (s : Session) (work : Outcome α) : Session :=
  { s with memos := (s.memos.replayAll work.journal).1 }

end Session

end Workbook
