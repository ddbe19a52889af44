import Workbook.Outcome

/-!
# The log

The lines that a journal stands for. Names that were asked for are asked again of a memory that is empty
at first, and what it traces becomes lines between the notes of the journal.
-/

namespace Workbook

/-- A line of the log. -/
structure LogLine where
  level : LogLevel
  text : String
deriving DecidableEq, Repr

/-- What is traced for a name of a kind, as a line. -/
def TraceEvent.line (kind : Kind) : TraceEvent → LogLine
  | .remembered name => ⟨.trace, kind.label ++ " '" ++ Ref.textOf name ++ "' served from cache"⟩
  | .standard name => ⟨.trace, kind.label ++ " '" ++ Ref.textOf name ++ "' resolved by fallback"⟩

namespace Memos

/-- The memory after an entry of a journal, and the lines of the entry. -/
def replay (m : Memos) : Entry → Memos × List LogLine
  | .lookup scope kind name =>
    let (_, m, events) := m.resolve scope kind name
    (m, events.map (TraceEvent.line kind))
  | .compiled _ => (m, [])
  | .note level text => (m, [⟨level, text⟩])

/-- The memory after a journal, and the lines of the journal. -/
def replayAll (m : Memos) : List Entry → Memos × List LogLine
  | [] => (m, [])
  | entry :: rest =>
    let (m, lines) := m.replay entry
    let (m, more) := m.replayAll rest
    (m, lines ++ more)

end Memos

namespace LogLevel

/-- The name of a level. -/
def label : LogLevel → String
  | .warn => "WARN"
  | .debug => "DEBUG"
  | .trace => "TRACE"

/-- The number of times that more output must be asked for to see a level. -/
def verbosity : LogLevel → Nat
  | .warn => 0
  | .debug => 1
  | .trace => 2

end LogLevel

/-- A line of the log as it is printed. -/
def LogLine.printed (l : LogLine) : String := "[" ++ l.level.label ++ "] " ++ l.text

/-- The printed lines of a journal at some verbosity. -/
def logText (verbosity : Nat) (journal : List Entry) : List String :=
  let (_, lines) := ({} : Memos).replayAll journal
  (lines.filter (·.level.verbosity ≤ verbosity)).map LogLine.printed

end Workbook
