import Workbook.Library
import Workbook.Proofs.WrittenText
import Workbook.Proofs.Codecs.Styles

/-!
# Sheet books are read back

A sheet book has no references and no values in several forms, so every value is read back, whether or not
it was read from a tree. What is absent is not written, and is read as absent. The trees are nested to a
fixed depth and their only numbers are counts, so the texts that are written for them are read back too.
-/

namespace Workbook

open Schema Channel

/-! ## Every value is read back -/

section ReadsBack

variable {c : Channel}

/-- Kinds of validations are read back. -/
theorem ValidationKind.readsBack (kind : ValidationKind) :
    c.ReadsBack (decoder : Decoder ValidationKind) encode kind :=
  readsBack_word rfl (by cases kind <;> rfl)

/-- Operators of rules are read back. -/
theorem CellOperator.readsBack (operator : CellOperator) :
    c.ReadsBack (decoder : Decoder CellOperator) encode operator :=
  readsBack_word rfl (by cases operator <;> rfl)

/-- Kinds of conditions are read back. -/
theorem ConditionKind.readsBack (kind : ConditionKind) :
    c.ReadsBack (decoder : Decoder ConditionKind) encode kind :=
  readsBack_word rfl (by cases kind <;> rfl)

/-- Borders of the output are read back. -/
theorem SheetBorder.readsBack (b : SheetBorder) : c.ReadsBack (decoder : Decoder SheetBorder) encode b :=
  Written.record (((Written.required (BorderStyle.readsBack b.style)).map SheetBorder.mk).seq
    (.listedOptional fun color _ => Color.readsBack color) (by decide)) rfl

/-- Styles of the output are read back. -/
theorem SheetStyle.readsBack (s : SheetStyle) : c.ReadsBack (decoder : Decoder SheetStyle) encode s :=
  Written.record ((((((
    (Written.listedOptional fun color _ => Color.readsBack color).map SheetStyle.mk).seq
    (.listedOptional fun color _ => Color.readsBack color) (by decide)).seq
    (.listedOptional fun b _ => readsBack_boolean b) (by decide)).seq
    (.listedOptional fun b _ => readsBack_boolean b) (by decide)).seq
    (.listedOptional fun b _ => SheetBorder.readsBack b) (by decide)).seq
    (.listedOptional fun b _ => SheetBorder.readsBack b) (by decide)) rfl

/-- Validations are read back. -/
theorem DataValidation.readsBack (v : DataValidation) :
    c.ReadsBack (decoder : Decoder DataValidation) encode v :=
  Written.record (((((((
    (Written.required (ValidationKind.readsBack v.kind)).map DataValidation.mk).seq
    (.listedOptional fun operator _ => CellOperator.readsBack operator) (by decide)).seq
    (.listedOptional fun s _ => readsBack_text s) (by decide)).seq
    (.listedOptional fun s _ => readsBack_text s) (by decide)).seq
    (.required (readsBack_boolean v.allowBlank)) (by decide)).seq
    (.required (readsBack_boolean v.showDropdown)) (by decide)).seq
    (.listedOptional fun _ _ => .list fun s _ => readsBack_text s) (by decide)) rfl

/-- Conditional formats are read back. -/
theorem ConditionalFormat.readsBack (f : ConditionalFormat) :
    c.ReadsBack (decoder : Decoder ConditionalFormat) encode f :=
  Written.record (((((
    (Written.required (ConditionKind.readsBack f.kind)).map ConditionalFormat.mk).seq
    (.listedOptional fun operator _ => CellOperator.readsBack operator) (by decide)).seq
    (.listedOptional fun s _ => readsBack_text s) (by decide)).seq
    (.listedOptional fun s _ => readsBack_text s) (by decide)).seq
    (.required (SheetStyle.readsBack f.style)) (by decide)) rfl

/-- Behaviors are read back. -/
theorem Behavior.readsBack (b : Behavior) : c.ReadsBack (decoder : Decoder Behavior) encode b :=
  Written.record (((
    (Written.listedOptional fun v _ => DataValidation.readsBack v).map Behavior.mk).seq
    (.defaultedList fun f _ => ConditionalFormat.readsBack f) (by decide)).seq
    (.listedOptional fun s _ => readsBack_text s) (by decide)) rfl

/-- Columns of the output are read back. -/
theorem SheetColumn.readsBack (column : SheetColumn) :
    c.ReadsBack (decoder : Decoder SheetColumn) encode column :=
  Written.record (((((
    (Written.required (readsBack_text column.title)).map SheetColumn.mk).seq
    (.listedOptional fun s _ => SheetStyle.readsBack s) (by decide)).seq
    (.listedOptional fun s _ => SheetStyle.readsBack s) (by decide)).seq
    (.listedOptional fun b _ => Behavior.readsBack b) (by decide)).seq
    (.listedOptional fun s _ => readsBack_text s) (by decide)) rfl

/-- Groups of the output are read back. -/
theorem SheetGroup.readsBack (g : SheetGroup) : c.ReadsBack (decoder : Decoder SheetGroup) encode g :=
  Written.record (((
    (Written.required (readsBack_text g.title)).map SheetGroup.mk).seq
    (.listedOptional fun s _ => SheetStyle.readsBack s) (by decide)).seq
    (.required (.list fun column _ => SheetColumn.readsBack column)) (by decide)) rfl

/-- Pages of the output are read back. -/
theorem SheetPage.readsBack (p : SheetPage) : c.ReadsBack (decoder : Decoder SheetPage) encode p :=
  Written.record ((((
    (Written.required (readsBack_text p.title)).map SheetPage.mk).seq
    (.listedOptional fun color _ => Color.readsBack color) (by decide)).seq
    (.required (readsBack_count p.rows)) (by decide)).seq
    (.required (.list fun g _ => SheetGroup.readsBack g)) (by decide)) rfl

/-- Books of the output are read back. -/
theorem SheetBook.readsBack (b : SheetBook) : c.ReadsBack (decoder : Decoder SheetBook) encode b :=
  Written.record (((Written.required (readsBack_text b.title)).map SheetBook.mk).seq
    (.required (.list fun p _ => SheetPage.readsBack p)) (by decide)) rfl

end ReadsBack

/-! ## Trees of sheet books are flat -/

section Whole

open Json (Whole)

variable {α : Type} {e : α → Json} {n : Nat}

/-- Members whose values have at most some levels, and whole numbers only. -/
def WholeMembers (n : Nat) (members : List (String × Json)) : Prop := ∀ m ∈ members, Whole n m.2

/-- Whole members and more of them are whole. -/
theorem WholeMembers.append {members more : List (String × Json)} (h : WholeMembers n members)
    (h' : WholeMembers n more) : WholeMembers n (members ++ more) := by
  intro m hm
  obtain hm | hm := List.mem_append.1 hm
  · exact h m hm
  · exact h' m hm

/-- A member with a whole value is whole. -/
theorem whole_member {key : String} {v : Json} (h : Whole n v) : WholeMembers n (member key v) := by
  intro m hm
  rw [List.mem_singleton.1 hm]
  exact h

/-- A member that may be missing is whole if its value is. -/
theorem whole_memberIf {key : String} {o : Option α} (h : ∀ a, Whole n (e a)) :
    WholeMembers n (memberIf key e o) := by
  cases o with
  | none => exact fun m hm => nomatch hm
  | some a => exact whole_member (h a)

/-- A list of whole items is whole, one level deeper. -/
theorem whole_map {as : List α} (h : ∀ a, Whole n (e a)) : Whole (n + 1) (.list (as.map e)) := by
  refine .list fun v hv => ?_
  obtain ⟨a, _, rfl⟩ := List.mem_map.1 hv
  exact h a

/-- A member for a list of whole items is whole, one level deeper. -/
theorem whole_memberList {key : String} {as : List α} (h : ∀ a, Whole n (e a)) :
    WholeMembers (n + 1) (memberList key e as) := by
  cases as with
  | nil => exact fun m hm => nomatch hm
  | cons a rest => exact whole_member (whole_map h)

theorem whole_count (x : UInt32) : Whole n (ofCount x) := by
  have hlow : -(Json.greatestNegative : Int) ≤ (x.toNat : Int) := by omega
  have hword : x.toNat < Json.significandBound := Nat.lt_trans x.toNat_lt (by decide)
  exact .integer hlow (Int.ofNat_lt.2 hword)

theorem SheetBorder.whole (n : Nat) (b : SheetBorder) : Whole (n + 1) (encode b) :=
  .object ((whole_member (.text _)).append (whole_memberIf fun _ => .text _))

theorem SheetStyle.whole (n : Nat) (s : SheetStyle) : Whole (n + 2) (encode s) :=
  .object ((((((whole_memberIf fun _ => .text _).append (whole_memberIf fun _ => .text _)).append
    (whole_memberIf fun b => .boolean b)).append (whole_memberIf fun b => .boolean b)).append
    (whole_memberIf (SheetBorder.whole n))).append (whole_memberIf (SheetBorder.whole n)))

theorem DataValidation.whole (n : Nat) (v : DataValidation) : Whole (n + 2) (encode v) :=
  .object (((((((whole_member (.text _)).append (whole_memberIf fun _ => .text _)).append
    (whole_memberIf fun s => .text s)).append (whole_memberIf fun s => .text s)).append
    (whole_member (.boolean _))).append (whole_member (.boolean _))).append
    (whole_memberIf fun _ => whole_map fun s => .text s))

theorem ConditionalFormat.whole (n : Nat) (f : ConditionalFormat) : Whole (n + 3) (encode f) :=
  .object (((((whole_member (.text _)).append (whole_memberIf fun _ => .text _)).append
    (whole_memberIf fun s => .text s)).append (whole_memberIf fun s => .text s)).append
    (whole_member (SheetStyle.whole n _)))

theorem Behavior.whole (n : Nat) (b : Behavior) : Whole (n + 5) (encode b) :=
  .object (((whole_memberIf (DataValidation.whole (n + 2))).append
    (whole_memberList (ConditionalFormat.whole n))).append (whole_memberIf fun s => .text s))

theorem SheetColumn.whole (n : Nat) (column : SheetColumn) : Whole (n + 6) (encode column) :=
  .object (((((whole_member (.text _)).append (whole_memberIf (SheetStyle.whole (n + 3)))).append
    (whole_memberIf (SheetStyle.whole (n + 3)))).append (whole_memberIf (Behavior.whole n))).append
    (whole_memberIf fun s => .text s))

theorem SheetGroup.whole (n : Nat) (g : SheetGroup) : Whole (n + 8) (encode g) :=
  .object (((whole_member (.text _)).append (whole_memberIf (SheetStyle.whole (n + 5)))).append
    (whole_member (whole_map (SheetColumn.whole n))))

theorem SheetPage.whole (n : Nat) (p : SheetPage) : Whole (n + 10) (encode p) :=
  .object ((((whole_member (.text _)).append (whole_memberIf fun _ => .text _)).append
    (whole_member (whole_count _))).append (whole_member (whole_map (SheetGroup.whole n))))

/-- What is written for a book is whole, and twelve levels deep at most. -/
theorem SheetBook.whole (b : SheetBook) : Whole 12 (encode b) :=
  .object ((whole_member (.text _)).append (whole_member (whole_map (SheetPage.whole 0))))

end Whole

/-! ## Documents -/

namespace SheetBook

/-- The document of a book is read back as the book, with or without blanks at its end. -/
theorem read_body (b : SheetBook) (layout : Json.Layout) {blanks : String}
    (hblanks : blanks.toList.all Json.isSpace = true) :
    Json.read (b.body layout ++ blanks) = .ok (encode b).arranged :=
  Json.read_render b.whole (by decide) hblanks

/-- Writing a book to a place that takes everything leaves one document and a line feed, which are read back
as the book in either layout. A source text that compiles without issues compiles to the text that is
written on one line for its book, apart from the line feed. -/
theorem documents_read_back_and_agree :
    (∀ (b : SheetBook) (layout : Json.Layout),
      b.generate .storage layout = .ok (b.body layout ++ "\n") ∧
        ∃ tree, Json.read (b.body layout) = .ok tree ∧ Json.read (b.body layout ++ "\n") = .ok tree ∧
          decode SheetBook tree = .ok b) ∧
      ∀ source c, Document.compile {} source = .ok c → c.issues = [] →
        ∃ text, compileText source = .ok text ∧ c.book.generate .storage .compact = .ok (text ++ "\n") := by
  refine ⟨fun b layout => ⟨rfl, (encode b).arranged, ?_, ?_, ?_⟩, fun source c hcompile hissues => ?_⟩
  · have hbare : Json.read (b.body layout ++ "") = .ok (encode b).arranged := b.read_body layout (by decide)
    rwa [String.append_empty] at hbare
  · exact b.read_body layout (by decide)
  · exact (b.readsBack (c := .inOrder)).read .plain
  · have hsheet : c.sheetBook = .ok c.book := by
      rw [Compilation.sheetBook, Compilation.succeeded, hissues]
      rfl
    have htext : compileText source = .ok (c.book.body .compact) := by
      simp only [compileText, hcompile, bind, Except.bind, hsheet]
    exact ⟨_, htext, rfl⟩

/-- The source of a book with one column of text. -/
def shopSource : String :=
  "\x7b\"name\":\"Shop\",\"pages\":[\x7b\"name\":\"Stock\",\"rows\":5,\"groups\":[\x7b\"name\":\"Sales\",\"columns\":" ++
    "[\x7b\"name\":\"Total\",\"type\":\x7b\"type\":\"text\"\x7d\x7d]\x7d]\x7d]\x7d"

/-- The book of this source. -/
def shop : Book where
  name := "Shop"
  pages := [{
    name := "Stock"
    rows := 5
    groups := [{ name := "Sales", columns := [{ name := "Total", dataType := .inline (.text {}) }] }] }]

set_option maxRecDepth 8000 in

/-- The shop is compiled from its source, and its text is what is written in the compact layout. -/
theorem documents_read_back_and_agree_shop :
    Document.compile {} shopSource = .ok (.compile {} shop) ∧ (Compilation.compile {} shop).issues = [] ∧
      ∃ text, compileText shopSource = .ok text ∧
        (Compilation.compile {} shop).book.generate .storage .compact = .ok (text ++ "\n") := by
  have hread : Document.read shopSource = .ok shop := by rfl
  have hcompile : Document.compile {} shopSource = .ok (.compile {} shop) := by
    rw [Document.compile, hread]
    rfl
  have hissues : (Compilation.compile {} shop).issues = [] := by rfl
  exact ⟨hcompile, hissues, documents_read_back_and_agree.2 shopSource _ hcompile hissues⟩

end SheetBook

end Workbook
