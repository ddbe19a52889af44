import Workbook.Compilation
import Workbook.Document
import Workbook.Rendering
import Workbook.Schema.Issues

/-!
# Compiling texts

What the library offers to callers that hold a source text: the compilation of the book in it, and its
result as a text.
-/

namespace Workbook

/-- Compile the book of a source text. A text without a whole book is not compiled. -/
def Document.compile (options : CompileOptions) (source : String) : Except (List Issue) Compilation := do
  let book ← Document.read source
  return Compilation.compile options book

/-- The book of a compilation, or the issues that stand against it. -/
def Compilation.sheetBook (c : Compilation) : Except (List Issue) SheetBook :=
  if c.succeeded then .ok c.book else .error c.issues

/-- Issues as one line of JSON. -/
def Issue.listText (issues : List Issue) : String :=
  Json.render .compact (.list (issues.map Schema.encode))

/-- The compiled book of a source text as one line of JSON, or else the issues. -/
def compileText (source : String) : Except String String :=
  match Document.compile {} source >>= Compilation.sheetBook with
  | .ok book => .ok (book.body .compact)
  | .error issues => .error (Issue.listText issues)

end Workbook
