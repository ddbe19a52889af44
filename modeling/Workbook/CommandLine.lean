import Workbook.Compilation
import Workbook.Document
import Workbook.Log
import Workbook.Rendering

/-!
# The command line

What the program does with its arguments: the file it reads, the lines it prints, and the file it writes.
Nothing is written before reading, checking and compiling have succeeded.
-/

namespace Workbook.CommandLine

/-- The name of the program. -/
def programName : String := "xlbook"

/-- The version of the program. -/
def version : String := "0.1.0"

/-- A run of the program. -/
structure Invocation where
  input : String
  /-- The file to write, standard output when absent. -/
  output : Option String := none
  /-- Report issues only. -/
  check : Bool := false
  compact : Bool := false
  metrics : Bool := false
  noStandardPalette : Bool := false
  noStandardFormats : Bool := false
  /-- How often more output is asked for. -/
  verbosity : Nat := 0
deriving DecidableEq, Repr

/-- What arguments lead to when they ask for no run. -/
inductive Notice where
  | version
  | help
  /-- The arguments are refused. -/
  | refused
deriving DecidableEq, Repr

/-- The arguments read so far. -/
structure Draft where
  input : Option String := none
  output : Option String := none
  check : Bool := false
  compact : Bool := false
  metrics : Bool := false
  noStandardPalette : Bool := false
  noStandardFormats : Bool := false
  verbosity : Nat := 0

/-- The outcome of reading some arguments: a draft, or the notice that they lead to. -/
abbrev Reading := Except Notice Draft

/-- What the next argument may be. -/
inductive Awaited where
  /-- A switch or a file. -/
  | anything
  /-- The output file. -/
  | output
  /-- Nothing but files. -/
  | files
deriving DecidableEq, Repr

namespace Draft

/-- Set a switch that was not set. -/
def switch (was : Bool) (draft : Draft) : Reading := if was then .error .refused else .ok draft

/-- An input file; there is one. -/
def addInput (d : Draft) (path : String) : Reading :=
  if d.input.isSome then .error .refused else .ok { d with input := some path }

/-- An output file; there is at most one. -/
def addOutput (d : Draft) (path : String) : Reading :=
  if d.output.isSome then .error .refused else .ok { d with output := some path }

/-- A long switch by its name. -/
def addLong (d : Draft) (name : String) : Reading :=
  match name with
  | "check" => switch d.check { d with check := true }
  | "compact" => switch d.compact { d with compact := true }
  | "metrics" => switch d.metrics { d with metrics := true }
  | "no-standard-palette" => switch d.noStandardPalette { d with noStandardPalette := true }
  | "no-standard-formats" => switch d.noStandardFormats { d with noStandardFormats := true }
  | "verbose" => .ok { d with verbosity := d.verbosity + 1 }
  | "version" => .error .version
  | "help" => .error .help
  | _ => .error .refused

/-- Short switches in one argument. An output file may follow its letter at once or after an equals sign,
and is otherwise the next argument; the flag says that it is still to come. -/
def addShort (d : Draft) : List Char → Except Notice (Draft × Bool)
  | [] => .ok (d, false)
  | 'v' :: cs => addShort { d with verbosity := d.verbosity + 1 } cs
  | 'V' :: _ => .error .version
  | 'h' :: _ => .error .help
  | ['o'] => .ok (d, true)
  | 'o' :: '=' :: cs => (d.addOutput (String.ofList cs)).map (·, false)
  | 'o' :: cs => (d.addOutput (String.ofList cs)).map (·, false)
  | _ => .error .refused

/-- The output file in the next argument, which must not look like a switch. -/
def outputNext (d : Draft) (arg : String) : Reading :=
  match arg.toList with
  | '-' :: _ :: _ => .error .refused
  | _ => d.addOutput arg

/-- Take an argument, and say what the next one may be. -/
def take : Draft × Awaited → String → Except Notice (Draft × Awaited)
  | (d, .output), arg => (d.outputNext arg).map (·, .anything)
  | (d, .files), arg => (d.addInput arg).map (·, .files)
  | (d, .anything), arg =>
    match arg.toList with
    | ['-', '-'] => .ok (d, .files)
    | '-' :: '-' :: name =>
      let key := name.takeWhile (· != '=')
      match name.drop key.length with
      | _ :: value =>
        if key == "output".toList then (d.addOutput (String.ofList value)).map (·, .anything)
        else .error .refused
      | [] =>
        if key == "output".toList then .ok (d, .output)
        else (d.addLong (String.ofList key)).map (·, .anything)
    | '-' :: c :: cs => (d.addShort (c :: cs)).map fun (d, pending) => (d, if pending then .output else .anything)
    | _ => (d.addInput arg).map (·, .anything)

/-- The draft of arguments that have all been taken. The output file must not be still to come. -/
def close : Draft × Awaited → Reading
  | (_, .output) => .error .refused
  | (d, _) => .ok d

/-- Read arguments. -/
def read (d : Draft) (args : List String) : Reading := args.foldlM take (d, .anything) >>= close

/-- The run that arguments ask for. They must name an input file. -/
def invocation (d : Draft) : Except Notice Invocation :=
  match d.input with
  | none => .error .refused
  | some input =>
    .ok {
      input, output := d.output, check := d.check, compact := d.compact, metrics := d.metrics
      noStandardPalette := d.noStandardPalette, noStandardFormats := d.noStandardFormats
      verbosity := d.verbosity }

end Draft

/-- The run that arguments ask for. -/
def parse (args : List String) : Except Notice Invocation := ({} : Draft).read args >>= Draft.invocation

/-- The choices of the compilation. -/
def Invocation.options (i : Invocation) : CompileOptions where
  standardPalette := !i.noStandardPalette
  standardFormats := !i.noStandardFormats
  metrics := i.metrics

/-- The layout of the output. -/
def Invocation.layout (i : Invocation) : Json.Layout := if i.compact then .compact else .indented

/-- The line of the metrics. Times are not measured and are written as zero. -/
def metricsLine (m : Metrics) : String :=
  Json.render .compact (.object [("compileMs", .ofNat 0), ("indexMs", .ofNat 0),
    ("pages", .ofNat m.pages), ("groups", .ofNat m.groups), ("columns", .ofNat m.columns),
    ("formulas", .ofNat m.formulas), ("issues", .ofNat m.issues)])

/-- The last line of a run that failed. -/
def errorLine (reason : String) : String := "error: " ++ reason

/-- The last line of a run that failed outside the program. -/
def ioErrorLine (reason : String) : String := errorLine ("I/O error: " ++ reason)

/-- What the source of a run leads to, with the lines printed on the way. -/
inductive Stage where
  | failed (lines : List String)
  | checked (lines : List String)
  /-- A book to be written. -/
  | compiled (lines : List String) (book : SheetBook)

/-- The lines of issues that end a run. -/
def issueLines (issues : List Issue) : List String :=
  issues.map Issue.text ++ [errorLine (Compilation.failureText issues.length)]

/-- What a compilation leads to. -/
def Invocation.afterCompile (i : Invocation) (c : Compilation) : Stage :=
  let lines := logText i.verbosity c.journal ++ (c.metrics.map metricsLine).toList
  if !c.succeeded then .failed (lines ++ issueLines c.issues)
  else if i.check then .checked (lines ++ [i.input ++ ": ok"])
  else .compiled lines c.book

/-- What the source leads to; a source that cannot be read has a reason. -/
def Invocation.afterRead (i : Invocation) (source : Except String String) : Stage :=
  match source with
  | .error reason => .failed [ioErrorLine reason]
  | .ok text =>
    match Document.read text with
    | .error issues => .failed (issueLines issues)
    | .ok book => i.afterCompile (.compile i.options book)

/-- The lines of an issue of the writing. -/
def writeFailureLines (issue : Issue) : List String :=
  [issue.text, errorLine "generation failed: 1 issue(s)"]

/-- The files that a run sees: what is read from a path, the place that is created at a path, and standard
output. -/
structure Files where
  read : String → Except String String
  create : String → Except String Sink
  stdout : Sink := .storage

/-- A place that a run has begun to write to. -/
inductive Target where
  | stdout
  /-- A file, which has been created or emptied. -/
  | file (path : String)
deriving DecidableEq, Repr

/-- What a run shows. -/
structure Report where
  exitCode : Nat
  /-- The text on standard output. A document that cannot be written whole is left out. -/
  stdout : String := ""
  /-- The lines on standard error. -/
  lines : List String := []
  /-- The file that was written, and its text. -/
  written : Option (String × String) := none
  /-- The place to which a document was written, or a part of it. -/
  target : Option Target := none
deriving DecidableEq, Repr

/-- Write a book to standard output. -/
def writeStdout (files : Files) (layout : Json.Layout) (lines : List String) (book : SheetBook) : Report :=
  match book.generate files.stdout layout with
  | .error issue => { exitCode := 1, lines := lines ++ writeFailureLines issue, target := some .stdout }
  | .ok text => { exitCode := 0, stdout := text, lines, target := some .stdout }

/-- Write a book to a file. -/
def writeFile (files : Files) (layout : Json.Layout) (lines : List String) (book : SheetBook)
    (path : String) : Report :=
  match files.create path with
  | .error reason => { exitCode := 1, lines := lines ++ [ioErrorLine reason] }
  | .ok sink =>
    match book.generate sink layout with
    | .error issue =>
      { exitCode := 1, lines := lines ++ writeFailureLines issue, target := some (.file path) }
    | .ok text =>
      { exitCode := 0, lines := lines ++ ["Written: " ++ path], written := some (path, text)
        target := some (.file path) }

/-- The end of a run. -/
def Invocation.finish (i : Invocation) (files : Files) : Stage → Report
  | .failed lines => { exitCode := 1, lines }
  | .checked lines => { exitCode := 0, lines }
  | .compiled lines book =>
    match i.output with
    | none => writeStdout files i.layout lines book
    | some path => writeFile files i.layout lines book path

/-- The help text. -/
def helpText : String := "\n".intercalate [
  "Compile a declarative spreadsheet book",
  "",
  "Usage: xlbook [OPTIONS] <INPUT>",
  "",
  "Arguments:",
  "  <INPUT>  Input book (JSON)",
  "",
  "Options:",
  "  -o, --output <OUTPUT>      Output file (defaults to stdout)",
  "      --check                Report issues without writing output",
  "      --compact              Write single-line JSON",
  "      --metrics              Print compile metrics to stderr",
  "      --no-standard-palette  Do not resolve unknown colors against the standard palette",
  "      --no-standard-formats  Do not resolve unknown formats against the standard formats",
  "  -v, --verbose...           More log output (-v debug, -vv trace)",
  "  -h, --help                 Print help",
  "  -V, --version              Print version",
  "",
  "EXAMPLES:",
  "    xlbook book.json                Print the resolved book",
  "    xlbook book.json -o out.json    Write the resolved book to a file",
  "    xlbook book.json --check        Only report issues",
  ""]

/-- The line for arguments that are refused. -/
def refusalLine : String := "error: invalid arguments; for more information, try '--help'."

/-- A run of the program with its arguments. -/
def execute (files : Files) (args : List String) : Report :=
  match parse args with
  | .error .version => { exitCode := 0, stdout := programName ++ " " ++ version ++ "\n" }
  | .error .help => { exitCode := 0, stdout := helpText }
  | .error .refused => { exitCode := 2, lines := [refusalLine] }
  | .ok i => i.finish files (i.afterRead (files.read i.input))

/-- The text of a source. -/
def decodeSource (bytes : ByteArray) : Except String String :=
  match String.fromUTF8? bytes with
  | some text => .ok text
  | none => .error "stream did not contain valid UTF-8"

/-- What the program runs on: the bytes at a path, the place that is created at a path, and standard output. -/
structure Host where
  read : String → Except String ByteArray
  create : String → Except String Sink
  stdout : Sink := .storage

/-- The files of a host. -/
def Host.files (h : Host) : Files where
  read path := h.read path >>= decodeSource
  create := h.create
  stdout := h.stdout

end Workbook.CommandLine
