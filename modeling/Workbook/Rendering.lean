import Workbook.Issue
import Workbook.Json.Writer
import Workbook.Schema.SheetBooks

/-!
# Writing sheet books

A sheet book is written as one JSON document and a line feed. Where the writing fails decides the wording:
inside the document, or after it.
-/

namespace Workbook

/-- Why a document could not be written. -/
inductive WriteFault where
  /-- Inside the document. -/
  | body (reason : String)
  /-- At the line feed after it, or when the last bytes are handed on. -/
  | closing (reason : String)
deriving DecidableEq, Repr

/-- The wording of a document that could not be written. -/
def WriteFault.message : WriteFault → String
  | .body reason => "JSON: " ++ reason
  | .closing reason => "I/O error: " ++ reason

/-- A place to write to, by the fault of writing a document with some bytes and a line feed. -/
structure Sink where
  fault? : Nat → Option WriteFault

namespace Sink

/-- A place that takes everything. -/
def storage : Sink := ⟨fun _ => none⟩

/-- A place that takes a number of bytes in all and may then refuse to hand them on. -/
def limited (limit : Option Nat) (refusal : String) (flush : Option String) : Sink where
  fault? size :=
    match limit with
    | some n =>
      if n < size then some (.body refusal)
      else if n < size + 1 then some (.closing refusal)
      else flush.map .closing
    | none => flush.map .closing

/-- The bytes that are held back before they are handed on to a file. -/
def bufferSize : Nat := 8192

/-- A device that takes no byte, behind a buffer. -/
def fullDevice (refusal : String) : Sink where
  fault? size := some (if bufferSize < size then .body refusal else .closing refusal)

/-- The bytes of a line that are held back before they are handed on to a terminal. -/
def lineSize : Nat := 1024

/-- A terminal that takes no byte. Lines are handed on as they end. -/
def fullTerminal (layout : Json.Layout) (refusal : String) : Sink where
  fault? size := some (if layout = .indented || lineSize < size then .body refusal else .closing refusal)

end Sink

namespace SheetBook

/-- The document of a book, without the line feed. -/
def body (layout : Json.Layout) (b : SheetBook) : String := Json.render layout (Schema.encode b)

/-- The text of a book. -/
def document (layout : Json.Layout) (b : SheetBook) : String := b.body layout ++ "\n"

/-- The issue of a book that could not be written. -/
def writeIssue (fault : WriteFault) : Issue := .about .generating fault.message .root

/-- Write a book: the text, or the issue of what failed. -/
def generate (sink : Sink) (layout : Json.Layout) (b : SheetBook) : Except Issue String :=
  match sink.fault? (b.body layout).utf8ByteSize with
  | none => .ok (b.document layout)
  | some fault => .error (writeIssue fault)

end SheetBook

end Workbook
