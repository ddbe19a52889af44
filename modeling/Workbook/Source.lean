import Workbook.Issue
import Workbook.Json.Reader

/-!
# Source text

Places in a source text, counted in bytes and as line and column, and reading a text to a tree with a
located issue when that fails.
-/

namespace Workbook.Source

/-- The byte that ends a line. -/
def newline : UInt8 := 10

/-- Line and column after some bytes have been read: one more than the lines ended, and the bytes since
the last of these ends. -/
def position (read : List UInt8) : Nat × Nat :=
  (read.count newline + 1, (read.reverse.takeWhile (· != newline)).length)

/-- The bytes of the first lines, each with the byte that ends it. -/
def lineStart : Nat → List UInt8 → Nat
  | 0, _ => 0
  | _ + 1, [] => 0
  | lines + 1, b :: bytes => (if b == newline then lineStart lines bytes else lineStart (lines + 1) bytes) + 1

/-- The place of a line and a column, both counted from one, at most the end of the text. -/
def byteIndex (bytes : List UInt8) (line column : Nat) : Nat :=
  min (lineStart (line - 1) bytes + (column - 1)) bytes.length

/-- The bytes of a text. -/
def bytes (text : String) : List UInt8 := text.toUTF8.data.toList

/-- The issue of a text that is no document, found after some bytes. It spans the byte at its place, and
nothing at the end of the text. -/
def issue (text : String) (flaw : Json.Flaw) (read : Nat) : Issue :=
  let bytes := bytes text
  let (line, column) := position (bytes.take read)
  let index := byteIndex bytes line column
  let length := if index < bytes.length then 1 else 0
  { phase := .parsing, message := flaw.message, place := .source ⟨index, line, column⟩ length }

/-- Read a text to a tree. -/
def parse (text : String) : Except Issue Json :=
  match Json.read text with
  | .ok tree => .ok tree
  | .error (flaw, read) => .error (issue text flaw read)

end Workbook.Source
