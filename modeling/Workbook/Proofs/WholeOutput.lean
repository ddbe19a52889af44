import Workbook.Library
import Workbook.Proofs.ArgumentLists

/-!
# What a run leaves

A run opens the place that it writes to only after its source has been read and compiled without an issue. So it
leaves the whole document of a book, or nothing, unless the place itself stops taking bytes. The lines that are
asked for have no part in it.
-/

namespace Workbook

/-- A place with limited room takes a document exactly if there is room for its bytes and the line feed, and the
bytes are handed on. -/
theorem Sink.limited_eq_none_iff (limit : Option Nat) (refusal : String) (flush : Option String) (size : Nat) :
    (Sink.limited limit refusal flush).fault? size = none ↔ flush = none ∧ ∀ n, limit = some n → size < n := by
  unfold Sink.limited
  cases limit with
  | none => simp
  | some n =>
    dsimp only
    split
    · simp; omega
    · split
      · simp; omega
      · simp; omega

end Workbook

namespace Workbook.CommandLine

variable {host : Host} {i j : Invocation} {path text : String} {book book' : SheetBook}

/-! ## Books of sources -/

/-- The source at a path is a text. -/
def Host.Holds (h : Host) (path text : String) : Prop :=
  ∃ bytes, h.read path = .ok bytes ∧ String.fromUTF8? bytes = some text

/-- A text is compiled to a book with the standard libraries that a run does not switch off, and no issue stands
against it. -/
def Invocation.Compiles (i : Invocation) (text : String) (book : SheetBook) : Prop :=
  ∃ options c, (options.standardPalette = true ↔ i.noStandardPalette = false) ∧
    (options.standardFormats = true ↔ i.noStandardFormats = false) ∧ options.metrics = i.metrics ∧
    Document.compile options text = .ok c ∧ c.issues = [] ∧ c.book = book

/-- The layout that a run asks for: one line, or a line for every part. -/
inductive Invocation.AsksFor (i : Invocation) : Json.Layout → Prop
  | compact (h : i.compact = true) : AsksFor i .compact
  | indented (h : i.compact = false) : AsksFor i .indented

/-- The source of a run is compiled to a book. -/
def Invocation.Makes (i : Invocation) (host : Host) (book : SheetBook) : Prop :=
  ∃ text, host.Holds i.input text ∧ i.Compiles text book

/-- Choices that say the same of both libraries and of the metrics are those of a run. -/
theorem Invocation.options_eq {options : CompileOptions}
    (palette : options.standardPalette = true ↔ i.noStandardPalette = false)
    (formats : options.standardFormats = true ↔ i.noStandardFormats = false)
    (metrics : options.metrics = i.metrics) : options = i.options := by
  obtain ⟨p, f, m⟩ := options
  cases metrics
  rw [Invocation.options, CompileOptions.mk.injEq]
  refine ⟨?_, ?_, rfl⟩
  · simpa using palette
  · simpa using formats

/-- A run asks for one layout, the one that it writes. -/
theorem Invocation.asksFor_iff {layout : Json.Layout} : i.AsksFor layout ↔ layout = i.layout := by
  rw [Invocation.layout]
  constructor
  · rintro (h | h)
    · rw [if_pos h]
    · rw [if_neg (by rw [h]; exact Bool.false_ne_true)]
  · rintro rfl
    cases h : i.compact with
    | true => exact .compact h
    | false => exact .indented h

/-- A text is decoded exactly if its bytes are those of a text. -/
theorem decodeSource_eq_ok {bytes : ByteArray} :
    decodeSource bytes = .ok text ↔ String.fromUTF8? bytes = some text := by
  unfold decodeSource
  cases String.fromUTF8? bytes <;> simp

/-- A source is read as the text that it is. -/
theorem Host.read_eq_ok : host.files.read path = .ok text ↔ host.Holds path text := by
  change (host.read path >>= decodeSource) = .ok text ↔ _
  constructor
  · intro h
    obtain ⟨bytes, read, decoded⟩ := bind_eq_ok h
    exact ⟨bytes, read, decodeSource_eq_ok.1 decoded⟩
  · rintro ⟨bytes, read, decoded⟩
    rw [read]
    exact decodeSource_eq_ok.2 decoded

/-- A text is compiled to a book exactly if it is read and its book has no issues. -/
theorem Invocation.compiles_iff : i.Compiles text book ↔
    ∃ b, Document.read text = .ok b ∧ (Compilation.compile i.options b).issues = [] ∧
      (Compilation.compile i.options b).book = book := by
  constructor
  · rintro ⟨options, c, palette, formats, metrics, compiled, clean, made⟩
    obtain rfl := Invocation.options_eq palette formats metrics
    obtain ⟨b, read, compiled⟩ := bind_eq_ok compiled
    cases compiled
    exact ⟨b, read, clean, made⟩
  · rintro ⟨b, read, clean, made⟩
    refine ⟨i.options, _, by simp [options], by simp [options], rfl, ?_, clean, made⟩
    rw [Document.compile, read]
    rfl

/-- A run makes one book at most. -/
theorem Invocation.Makes.unique (h : i.Makes host book) (h' : i.Makes host book') : book = book' := by
  obtain ⟨text, held, compiled⟩ := h
  obtain ⟨text', held', compiled'⟩ := h'
  cases (Host.read_eq_ok.2 held).symm.trans (Host.read_eq_ok.2 held')
  obtain ⟨b, read, -, rfl⟩ := compiles_iff.1 compiled
  obtain ⟨b', read', -, rfl⟩ := compiles_iff.1 compiled'
  cases read.symm.trans read'
  rfl

/-- What a source leads to. -/
theorem Invocation.afterRead_cases (i : Invocation) (host : Host) :
    (∃ lines, i.afterRead (host.files.read i.input) = .failed lines ∧ ∀ book, ¬i.Makes host book) ∨
    ∃ book lines, i.Makes host book ∧
      if i.check then i.afterRead (host.files.read i.input) = .checked lines
      else i.afterRead (host.files.read i.input) = .compiled lines book := by
  cases source : host.files.read i.input with
  | error reason =>
    refine .inl ⟨_, rfl, ?_⟩
    rintro book ⟨text, held, -⟩
    cases source.symm.trans (Host.read_eq_ok.2 held)
  | ok text =>
    have held := Host.read_eq_ok.1 source
    -- a path holds one text, so that its book is the book of this one
    have made {book : SheetBook} (h : i.Makes host book) : i.Compiles text book := by
      obtain ⟨text', held', compiled⟩ := h
      cases source.symm.trans (Host.read_eq_ok.2 held')
      exact compiled
    cases read : Document.read text with
    | error issues =>
      refine .inl ⟨issueLines issues, by rw [afterRead, read], fun book h => ?_⟩
      obtain ⟨b, read', -⟩ := compiles_iff.1 (made h)
      cases read.symm.trans read'
    | ok b =>
      have after : i.afterRead (.ok text) = i.afterCompile (.compile i.options b) := by rw [afterRead, read]
      rw [after, afterCompile, Compilation.succeeded]
      cases issues : (Compilation.compile i.options b).issues with
      | cons issue more =>
        refine .inl ⟨_, rfl, fun book h => ?_⟩
        obtain ⟨b', read', clean, -⟩ := compiles_iff.1 (made h)
        cases read.symm.trans read'
        cases issues.symm.trans clean
      | nil =>
        have makes : i.Makes host (Compilation.compile i.options b).book :=
          ⟨text, held, compiles_iff.2 ⟨b, read, issues, rfl⟩⟩
        cases i.check with
        | false => exact .inr ⟨_, _, makes, rfl⟩
        | true => exact .inr ⟨_, _, makes, rfl⟩

/-! ## Reports -/

/-- The place that a run writes to, or why there is none. -/
def Host.place (h : Host) : Option String → Except String Sink
  | none => .ok h.stdout
  | some path => h.create path

/-- The place that a run writes to takes the whole document of a book, in the layout that the run asks for. -/
def Invocation.Takes (i : Invocation) (host : Host) (book : SheetBook) : Prop :=
  ∃ sink layout, host.place i.output = .ok sink ∧ i.AsksFor layout ∧
    sink.fault? (book.body layout).utf8ByteSize = none

/-- The layout is the one that the run writes. -/
theorem Invocation.takes_iff : i.Takes host book ↔
    ∃ sink, host.place i.output = .ok sink ∧ sink.fault? (book.body i.layout).utf8ByteSize = none := by
  simp only [Takes, asksFor_iff, exists_and_left, exists_eq_left]

namespace Report

/-- Nothing was written, and no file was created or emptied. -/
structure Untouched (r : Report) : Prop where
  stdout : r.stdout = ""
  target : r.target = none
  written : r.written = none

/-- A text was written to standard output or to a file, and nothing else was. -/
def Shows (r : Report) (text : String) : Option String → Prop
  | none => r.stdout = text ∧ r.target = some .stdout ∧ r.written = none
  | some path => r.stdout = "" ∧ r.target = some (.file path) ∧ r.written = some (path, text)

/-- Two reports are the same but for their lines. -/
def Alike (r r' : Report) : Prop := r' = { r with lines := r'.lines }

end Report

/-- A book is written whole when the place takes it, and is else refused. -/
theorem generate_cases (book : SheetBook) (sink : Sink) (layout : Json.Layout) :
    sink.fault? (book.body layout).utf8ByteSize = none ∧ book.generate sink layout = .ok (book.document layout) ∨
      sink.fault? (book.body layout).utf8ByteSize ≠ none ∧ ∃ issue, book.generate sink layout = .error issue := by
  unfold SheetBook.generate
  cases sink.fault? (book.body layout).utf8ByteSize with
  | none => exact .inl ⟨rfl, rfl⟩
  | some fault => exact .inr ⟨nofun, _, rfl⟩

/-- What a run does with a book that it has made. -/
theorem Invocation.finish_compiled (i : Invocation) (host : Host) (lines : List String) (book : SheetBook) :
    let r := i.finish host.files (.compiled lines book)
    i.Takes host book ∧ r.exitCode = 0 ∧ r.Shows (book.document i.layout) i.output ∨
      ¬i.Takes host book ∧ r.exitCode = 1 := by
  rw [takes_iff]
  unfold finish
  cases i.output with
  | none =>
    obtain ⟨takes, text⟩ | ⟨cut, issue, text⟩ := generate_cases book host.stdout i.layout
    · refine .inl ⟨⟨_, rfl, takes⟩, ?_⟩
      simp [writeStdout, Host.files, text, Report.Shows]
    · refine .inr ⟨?_, by simp [writeStdout, Host.files, text]⟩
      rintro ⟨_, ⟨⟩, takes⟩
      exact cut takes
  | some path =>
    cases created : host.create path with
    | error reason =>
      refine .inr ⟨?_, by simp [writeFile, Host.files, created]⟩
      rintro ⟨sink, place, -⟩
      cases created.symm.trans place
    | ok sink =>
      obtain ⟨takes, text⟩ | ⟨cut, issue, text⟩ := generate_cases book sink i.layout
      · refine .inl ⟨⟨_, created, takes⟩, ?_⟩
        simp [writeFile, Host.files, created, text, Report.Shows]
      · refine .inr ⟨?_, by simp [writeFile, Host.files, created, text]⟩
        rintro ⟨_, place, takes⟩
        cases created.symm.trans place
        exact cut takes

/-- A run with arguments that are read is the run that they ask for. -/
theorem execute_eq {args : List String} (h : parse args = .ok i) (files : Files) :
    execute files args = i.finish files (i.afterRead (files.read i.input)) := by
  rw [execute, h]

/-- What a run leaves. -/
inductive Leaves (i : Invocation) (host : Host) (r : Report) : Prop where
  | failed (nothing : ∀ book, ¬i.Makes host book) (code : r.exitCode = 1) (untouched : r.Untouched)
  | checked (book : SheetBook) (makes : i.Makes host book) (check : i.check = true) (code : r.exitCode = 0)
      (untouched : r.Untouched)
  | written (book : SheetBook) (makes : i.Makes host book) (check : i.check = false) (takes : i.Takes host book)
      (code : r.exitCode = 0) (shown : r.Shows (book.document i.layout) i.output)
  | cut (book : SheetBook) (makes : i.Makes host book) (check : i.check = false) (cut : ¬i.Takes host book)
      (code : r.exitCode = 1)

/-- Every run leaves what it is said to leave. -/
theorem execute_leaves {args : List String} (hi : parse args = .ok i) : Leaves i host (execute host.files args) := by
  rw [execute_eq hi]
  obtain ⟨lines, after, nothing⟩ | ⟨book, lines, makes, after⟩ := i.afterRead_cases host
  · rw [after]
    exact .failed nothing rfl ⟨rfl, rfl, rfl⟩
  · cases check : i.check with
    | true =>
      rw [check, if_pos rfl] at after
      rw [after]
      exact .checked book makes check rfl ⟨rfl, rfl, rfl⟩
    | false =>
      rw [check, if_neg Bool.false_ne_true] at after
      rw [after]
      obtain ⟨takes, code, shown⟩ | ⟨cut, code⟩ := i.finish_compiled host lines book
      · exact .written book makes check takes code shown
      · exact .cut book makes check cut code

/-! ## Runs that print other lines -/

/-- Two stages are the same but for their lines. -/
inductive Stage.Alike : Stage → Stage → Prop where
  | failed (lines lines' : List String) : Alike (.failed lines) (.failed lines')
  | checked (lines lines' : List String) : Alike (.checked lines) (.checked lines')
  | compiled (lines lines' : List String) (book : SheetBook) : Alike (.compiled lines book) (.compiled lines' book)

/-- Runs that are alike go on alike after compiling. -/
theorem Invocation.Alike.afterCompile (h : i.Alike j) (b : Book) :
    (i.afterCompile (.compile i.options b)).Alike (j.afterCompile (.compile j.options b)) := by
  have issues : (Compilation.compile j.options b).issues = (Compilation.compile i.options b).issues := by
    rw [h]
    rfl
  have book : (Compilation.compile j.options b).book = (Compilation.compile i.options b).book := by
    rw [h]
    rfl
  have check : j.check = i.check := by rw [h]
  unfold Invocation.afterCompile Compilation.succeeded
  rw [issues, book, check]
  cases (Compilation.compile i.options b).issues.isEmpty with
  | false => exact .failed _ _
  | true =>
    cases i.check with
    | false => exact .compiled _ _ _
    | true => exact .checked _ _

/-- Runs that are alike go on alike after reading. -/
theorem Invocation.Alike.afterRead (h : i.Alike j) (source : Except String String) :
    (i.afterRead source).Alike (j.afterRead source) := by
  unfold Invocation.afterRead
  split
  · exact .failed _ _
  · split
    · exact .failed _ _
    · exact h.afterCompile _

/-- Runs that are alike end alike. -/
theorem Invocation.Alike.finish (h : i.Alike j) {s t : Stage} (stages : s.Alike t) (files : Files) :
    (i.finish files s).Alike (j.finish files t) := by
  have output : j.output = i.output := by rw [h]
  have layout : j.layout = i.layout := by rw [h]; rfl
  cases stages with
  | failed => rfl
  | checked => rfl
  | compiled lines lines' book =>
    unfold Invocation.finish
    rw [output, layout]
    dsimp only
    split
    · unfold writeStdout
      split <;> rfl
    · unfold writeFile
      split
      · rfl
      · split <;> rfl

/-- Runs that ask for the same but for lines leave the same. -/
theorem execute_alike {args args' : List String} (hi : parse args = .ok i) (hj : parse args' = .ok j)
    (h : i.Alike j) (files : Files) : (execute files args).Alike (execute files args') := by
  have input : j.input = i.input := by rw [h]
  rw [execute_eq hi, execute_eq hj, input]
  exact h.finish (h.afterRead _) files

/-! ## Runs -/

/-- A run succeeds exactly if its source is compiled without an issue and, unless it only checks, its place takes
the whole document. A run that only checks, or whose source fails, writes nothing and touches no file. A run that
succeeds without only checking writes the document of the book, in the layout that is asked for, and nothing else.
Metrics and more lines of the log, wherever they are asked for, change none of this. -/
theorem run_leaves_checked_book (host : Host) {args : List String} (hi : parse args = .ok i) :
    let r := execute host.files args
    (r.exitCode = 0 ↔ ∃ book, i.Makes host book ∧ (i.check = false → i.Takes host book)) ∧
      ((∀ book, ¬i.Makes host book) ∨ i.check = true → r.Untouched) ∧
      (r.exitCode = 0 → i.check = false →
        ∃ book layout, i.Makes host book ∧ i.AsksFor layout ∧ r.Shows (book.document layout) i.output) ∧
      ∀ args' j, parse args' = .ok j →
        (i.Alike j ∨ ∃ before flag after, flag ∈ lineSwitches ∧ args = before ++ after ∧
          args' = before ++ flag :: after) →
        r.Alike (execute host.files args') := by
  intro r
  have leaves : Leaves i host r := execute_leaves hi
  refine ⟨⟨fun success => ?_, fun ⟨book, makes, takes⟩ => ?_⟩, fun failed => ?_, fun success unchecked => ?_, ?_⟩
  · cases leaves with
    | failed nothing code => cases success.symm.trans code
    | checked book makes check => exact ⟨book, makes, fun unchecked => by simp [unchecked] at check⟩
    | written book makes check takes => exact ⟨book, makes, fun _ => takes⟩
    | cut book makes check cut code => cases success.symm.trans code
  · cases leaves with
    | failed nothing => exact absurd makes (nothing book)
    | checked _ _ _ code => exact code
    | written _ _ _ _ code => exact code
    | cut book' makes' check cut =>
      obtain rfl := makes.unique makes'
      exact absurd (takes check) cut
  · cases leaves with
    | failed _ _ untouched => exact untouched
    | checked _ _ _ _ untouched => exact untouched
    | written book makes check => exact (failed.elim (· book makes) (by simp [check])).elim
    | cut book makes check => exact (failed.elim (· book makes) (by simp [check])).elim
  · cases leaves with
    | failed nothing code => cases success.symm.trans code
    | checked book makes check => simp [unchecked] at check
    | written book makes _ _ _ shown => exact ⟨book, _, makes, Invocation.asksFor_iff.2 rfl, shown⟩
    | cut book makes check cut code => cases success.symm.trans code
  · rintro args' j hj (alike | ⟨before, flag, after, hflag, rfl, rfl⟩)
    · exact execute_alike hi hj alike host.files
    · exact execute_alike hi hj (alike_of_lineSwitch hflag hi hj) host.files

/-- The source of a book with one column of text. -/
def tillSource : String :=
  "\x7b\"name\":\"Till\",\"pages\":[\x7b\"name\":\"Day\",\"rows\":2,\"groups\":[\x7b\"name\":\"Sums\",\"columns\":" ++
    "[\x7b\"name\":\"Cash\",\"type\":\x7b\"type\":\"text\"\x7d\x7d]\x7d]\x7d]\x7d"

/-- The book of this source. -/
def till : Book where
  name := "Till"
  pages := [{
    name := "Day"
    rows := 2
    groups := [{ name := "Sums", columns := [{ name := "Cash", dataType := .inline (.text {}) }] }] }]

/-- A host with this source at every path, and with room at every place. -/
def tillHost : Host where
  read _ := .ok tillSource.toUTF8
  create _ := .ok .storage

/-- The same host with no room on standard output. -/
def fullHost : Host := { tillHost with stdout := .limited (some 0) "disk full" none }

set_option maxRecDepth 8000 in
/-- A run that switches nothing off makes this book. -/
theorem makes_till (palette : i.noStandardPalette = false) (formats : i.noStandardFormats = false)
    (metrics : i.metrics = false) : i.Makes tillHost (Compilation.compile {} till).book := by
  have hread : Document.read tillSource = .ok till := by rfl
  have hoptions : i.options = {} := by rw [Invocation.options, palette, formats, metrics]; rfl
  refine ⟨tillSource, ⟨_, rfl, dif_pos tillSource.isValidUTF8⟩, Invocation.compiles_iff.2 ⟨till, hread, ?_, ?_⟩⟩
  · rw [hoptions]
    rfl
  · rw [hoptions]

/-- The book goes to a file with its parts on lines of their own, or to standard output on one line, and a run
whose standard output has no room fails. -/
theorem run_leaves_checked_book_till :
    let r := execute tillHost.files ["till.json", "-o", "out.json"]
    let s := execute tillHost.files ["--compact", "till.json"]
    (r.exitCode = 0 ∧ r.Shows ((Compilation.compile {} till).book.document .indented) (some "out.json") ∧
      r.Alike (execute tillHost.files ["till.json", "--metrics", "-o", "out.json"])) ∧
    (s.exitCode = 0 ∧ s.Shows ((Compilation.compile {} till).book.document .compact) none) ∧
    (execute fullHost.files ["till.json"]).exitCode ≠ 0 := by
  refine ⟨?_, ?_, ?_⟩
  · let i : Invocation := { input := "till.json", output := some "out.json" }
    have hi : parse ["till.json", "-o", "out.json"] = .ok i := by rfl
    obtain ⟨success, -, shown, alike⟩ := run_leaves_checked_book tillHost hi
    have makes : i.Makes tillHost (Compilation.compile {} till).book := makes_till rfl rfl rfl
    have code := success.2 ⟨_, makes, fun _ => ⟨.storage, .indented, rfl, .indented rfl, rfl⟩⟩
    obtain ⟨book, layout, makes', asked, whole⟩ := shown code rfl
    obtain rfl := makes.unique makes'
    obtain rfl : layout = .indented := Invocation.asksFor_iff.1 asked
    exact ⟨code, whole, alike _ _ rfl (.inr ⟨["till.json"], "--metrics", ["-o", "out.json"], by decide, rfl, rfl⟩)⟩
  · let i : Invocation := { input := "till.json", compact := true }
    have hi : parse ["--compact", "till.json"] = .ok i := by rfl
    obtain ⟨success, -, shown, -⟩ := run_leaves_checked_book tillHost hi
    have makes : i.Makes tillHost (Compilation.compile {} till).book := makes_till rfl rfl rfl
    have code := success.2 ⟨_, makes, fun _ => ⟨.storage, .compact, rfl, .compact rfl, rfl⟩⟩
    obtain ⟨book, layout, makes', asked, whole⟩ := shown code rfl
    obtain rfl := makes.unique makes'
    obtain rfl : layout = .compact := Invocation.asksFor_iff.1 asked
    exact ⟨code, whole⟩
  · -- nothing fits into a place without room
    have hi : parse ["till.json"] = .ok { input := "till.json" } := by rfl
    intro code
    obtain ⟨book, -, takes⟩ := (run_leaves_checked_book fullHost hi).1.1 code
    obtain ⟨sink, layout, place, -, whole⟩ := takes rfl
    cases place
    have room := (Sink.limited_eq_none_iff (some 0) "disk full" none _).1 whole
    exact absurd (room.2 0 rfl) (Nat.not_lt_zero _)

end Workbook.CommandLine
