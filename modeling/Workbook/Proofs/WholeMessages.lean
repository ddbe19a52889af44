import Workbook.Proofs.FaultPlaces
import Workbook.Proofs.PositionMarks

/-!
# Messages about the fields of a tree

A walk over the levels of a tree reads some fields of each level, and reports a field that is not read with the
message of its reader. What the walk reports is described here level by level, each issue with its whole
message. The message of a reader is reported whole unless the field is a text that has a mark of a position in
it: then the message is cut in the middle of the text that it quotes.
-/

namespace Workbook.Document

open Schema

/-! ## Faults with a mark -/

/-- The fault of a value that is shown, or of a length. Its own words have no mark. -/
inductive Plain : Fault → Prop
  | wrongType (found : Json) {expected : String} (clear : ¬Marked (", expected " ++ expected)) :
    Plain (.wrongType found expected)
  | wrongValue (n : Int) {expected : String} (clear : ¬Marked (", expected " ++ expected)) :
    Plain (.wrongValue (.integer n) expected)
  | wrongLength (n : Nat) {expected : String} (clear : ¬Marked (", expected " ++ expected)) :
    Plain (.wrongLength n expected)
  | noReading {family : String} (clear : ¬Marked (Fault.noReading family).message) : Plain (.noReading family)

/-- A fault shows a text that has a mark. -/
def QuotesMark (f : Fault) : Prop := ∃ s expected, f = .wrongType (.text s) expected ∧ Marked s

/-- A message has a mark only inside a text that it quotes. -/
theorem Plain.marked_iff {f : Fault} (h : Plain f) : Marked f.message ↔ QuotesMark f := by
  have closing (front expected : String) (clear : ¬Marked (", expected " ++ expected)) :
      Marked (front ++ ", expected " ++ expected) ↔ Marked front := by
    have comma : ',' ∈ (", expected " ++ expected).toList.head? := by
      rw [String.toList_append]
      rfl
    rw [String.append_assoc, marked_append_iff front comma (by decide), or_iff_left clear]
  cases h with
  | @wrongType found expected clear =>
    have front : ∀ word ∈ foundWords, ¬Marked ("invalid type: " ++ word) := by decide
    have message : (Fault.wrongType found expected).message =
        "invalid type: " ++ shown found ++ ", expected " ++ expected := rfl
    rw [message, closing _ _ clear, marked_append_shown_iff front]
    constructor
    · rintro ⟨s, rfl, hs⟩
      exact ⟨s, expected, rfl, hs⟩
    · rintro ⟨s, _, heq, hs⟩
      cases heq
      exact ⟨s, rfl, hs⟩
  | @wrongValue n expected clear =>
    have front : ∀ word ∈ foundWords, ¬Marked ("invalid value: " ++ word) := by decide
    have message : (Fault.wrongValue (.integer n) expected).message =
        "invalid value: " ++ shown (.integer n) ++ ", expected " ++ expected := rfl
    rw [message, closing _ _ clear, marked_append_shown_iff front]
    exact ⟨fun ⟨_, heq, _⟩ => (nomatch heq), fun ⟨_, _, heq, _⟩ => (nomatch heq)⟩
  | @wrongLength n expected clear =>
    have message : (Fault.wrongLength n expected).message =
        "invalid length " ++ toString n ++ ", expected " ++ expected := rfl
    rw [message, closing _ _ clear]
    refine ⟨fun h => ?_, fun ⟨_, _, heq, _⟩ => nomatch heq⟩
    -- a mark has three blanks, and there are two
    have blanks := h.sublist.count_le ' '
    have digits : (toString n).toList.count ' ' = 0 := List.count_eq_zero.2 (Text.blank_not_mem_toString n)
    have words : "invalid length ".toList.count ' ' = 2 := by decide
    have mark : positionMark.count ' ' = 3 := by decide
    rw [String.toList_append, List.count_append, digits, words, mark] at blanks
    omega
  | noReading clear => exact ⟨fun h => absurd h clear, fun ⟨_, _, heq, _⟩ => nomatch heq⟩

/-- A message that quotes a text with a mark is cut inside of the text, at the last of its marks. -/
theorem message_of_mark {s expected : String} {before after : List Char} (clear : ¬Marked (", expected " ++ expected))
    (h : s.toList = before ++ (positionMark ++ after)) (last : ¬ positionMark <:+: (positionMark ++ after).tail) :
    withoutPosition (Fault.wrongType (.text s) expected).message =
      "invalid type: string " ++ String.ofList ('"' :: before.flatMap Text.quotedChar) := by
  have same := flatMap_quotedChar quotedChar_of_mem_mark
  have sameTail := flatMap_quotedChar fun c hc => quotedChar_of_mem_mark c (List.mem_of_mem_tail hc)
  have quote : '"' ∉ positionMark := by decide
  generalize hrest : (", expected " ++ expected).toList = rest
  have message : (Fault.wrongType (.text s) expected).message.toList =
      ("invalid type: string ".toList ++ '"' :: before.flatMap Text.quotedChar) ++
        (positionMark ++ (after.flatMap Text.quotedChar ++ '"' :: rest)) := by
    have words : "invalid type: string ".toList = "invalid type: ".toList ++ "string ".toList := by
      rw [← String.toList_append]
      rfl
    have quoted : (Text.quoted s).toList =
        '"' :: (before.flatMap Text.quotedChar ++ (positionMark ++ (after.flatMap Text.quotedChar ++ ['"']))) := by
      rw [Text.quoted, String.toList_ofList, h, List.flatMap_append, List.flatMap_append, same, List.cons_append,
        List.append_assoc, List.append_assoc]
    have split : (Fault.wrongType (.text s) expected).message =
        "invalid type: " ++ ("string " ++ Text.quoted s) ++ (", expected " ++ expected) := String.append_assoc
    rw [split, words, String.toList_append, String.toList_append, String.toList_append, quoted, hrest]
    simp only [List.append_assoc, List.cons_append, List.nil_append]
  have tail : (positionMark ++ (after.flatMap Text.quotedChar ++ '"' :: rest)).tail =
      (positionMark ++ after).tail.flatMap Text.quotedChar ++ '"' :: rest := by
    rw [List.tail_append_of_ne_nil positionMark_ne_nil, List.tail_append_of_ne_nil positionMark_ne_nil,
      List.flatMap_append, sameTail, List.append_assoc]
  have apart : ¬ positionMark <:+: (positionMark ++ (after.flatMap Text.quotedChar ++ '"' :: rest)).tail := by
    rw [tail, infix_append_cons_iff quote, infix_quoted_iff, ← hrest]
    exact not_or.2 ⟨last, clear⟩
  rw [withoutPosition_of_last message apart, String.ofList_append, String.ofList_toList]

/-- The issue of a fault has its message without the mark of a position. -/
theorem message_faultIssue (path : Path) (f : Fault) : (faultIssue path f).message = withoutPosition f.message := rfl

/-! ## Readers -/

section Readers

variable {α β : Type} {d : Decoder α}

/-- A reader refuses values of a document with plain faults only. -/
def Plainly (d : Decoder α) : Prop := ∀ v f, d .plain v = .error f → Plain f

/-- Texts are refused with plain faults only. -/
theorem plainly_text : Plainly text := by
  intro v f h
  cases v <;> cases h <;> exact .wrongType _ (by decide)

/-- Counts are refused with plain faults only. -/
theorem plainly_count : Plainly count := by
  intro v f h
  cases v with
  | integer n =>
    rw [count, Decoder.map, below] at h
    split at h
    · cases h
    · cases h
      exact .wrongValue n (by decide)
  | _ =>
    cases h
    exact .wrongType _ (by decide)

/-- What none of some readings reads is refused with a plain fault, if the message for it has no mark. -/
theorem plainly_readings {family : String} (clear : ¬Marked (Fault.noReading family).message)
    (ds : List (Decoder α)) : Plainly (readings family ds) := by
  intro v f h
  unfold readings at h
  split at h <;> cases h
  exact .noReading clear

/-- References are refused with plain faults only. -/
theorem plainly_ref [Codec α] : Plainly (decoder : Decoder (Ref α)) :=
  plainly_readings (by decide) _

/-- Expressions are refused with plain faults only. -/
theorem plainly_expression : Plainly (decoder : Decoder Expression) :=
  fun v => plainly_readings (by decide) _ v

/-- Maps are refused with plain faults only, if their values are. -/
theorem plainly_dict (h : Plainly d) : Plainly (dict d) := by
  intro v f hf
  cases v with
  | object members =>
    obtain ⟨-, ⟨key, w⟩, -, -, -, hw⟩ := first_error_of_mapM hf
    exact h w f (map_eq_error hw)
  | _ =>
    cases hf
    exact .wrongType _ (by decide)

/-- Fields are refused with plain faults only, and never because one is not there. -/
structure PlainFields (fs : Fields α) : Prop where
  named : ∀ members e, fs.named .plain members = .error e → ∃ key f, e = .bad key f ∧ Plain f
  placed : ∀ place items e, fs.placed .plain place items = .error e → ∃ f, e = .bad f ∧ Plain f

namespace PlainFields

/-- A field with a default is refused with plain faults only, if its values are. -/
theorem defaulted (key : String) (h : Plainly d) (absent : α) : PlainFields (.defaulted key d absent) where
  named members e he := by
    simp only [Fields.defaulted, Fields.single] at he
    split at he
    · obtain ⟨f, hread, rfl⟩ := mapError_eq_error he
      exact ⟨key, f, rfl, h _ f hread⟩
    · cases he
  placed place items e he := by
    simp only [Fields.defaulted, Fields.single] at he
    split at he
    · obtain ⟨f, hread, rfl⟩ := mapError_eq_error he
      exact ⟨f, rfl, h _ f hread⟩
    · cases he

/-- Fields side by side are refused with plain faults only, if each of them is. -/
theorem seq {fs : Fields (α → β)} {as : Fields α} (hf : PlainFields fs) (ha : PlainFields as) :
    PlainFields (fs <*> as) where
  named members e he := by
    change (fs.andThen as).named .plain members = _ at he
    simp only [Fields.andThen] at he
    split at he
    · cases he
    · rename_i g _ hg _
      cases he
      exact hf.named members _ hg
    · rename_i g _ hg
      cases he
      exact ha.named members _ hg
    · rename_i g g' hg hg'
      obtain ⟨key, f, rfl, plain⟩ := hf.named members _ hg
      obtain ⟨key', f', rfl, plain'⟩ := ha.named members _ hg'
      rw [MemberFault.first] at he
      split at he <;> cases he
      · exact ⟨key', f', rfl, plain'⟩
      · exact ⟨key, f, rfl, plain⟩
  placed place items e he := by
    change (fs.andThen as).placed .plain place items = _ at he
    simp only [Fields.andThen] at he
    split at he
    · rename_i g hg
      cases he
      exact hf.placed place items _ hg
    · exact ha.placed _ items _ (map_eq_error he)

/-- Mapped fields are refused with plain faults only, if the fields are. -/
theorem map {as : Fields α} (h : PlainFields as) (f : α → β) : PlainFields (f <$> as) := by
  have pure : PlainFields (Fields.pure f) := ⟨nofun, nofun⟩
  exact pure.seq h

end PlainFields

/-- A record is refused with plain faults if its fields are. -/
theorem plainly_record {fs : Fields α} (h : PlainFields fs) {title : String}
    (clear : ¬Marked (", expected " ++ title)) : Plainly (record title fs) := by
  intro v f hf
  unfold record at hf
  split at hf
  · obtain ⟨e, hread, rfl⟩ := mapError_eq_error hf
    obtain ⟨key, g, rfl, plain⟩ := h.named _ e hread
    exact plain
  · rename_i items
    split at hf
    · rename_i g hread
      cases hf
      obtain ⟨_, heq, plain⟩ := h.placed 0 items _ hread
      cases heq
      exact plain
    · rename_i place hread
      obtain ⟨_, heq, -⟩ := h.placed 0 items _ hread
      cases heq
    · split at hf <;> cases hf
      have clear : ¬Marked (", expected " ++ "fewer elements in array") := by decide
      exact .wrongLength _ clear
  · cases hf
    exact .wrongType _ clear

/-- Definitions are refused with plain faults only. -/
theorem plainly_definitions : Plainly (decoder : Decoder Definitions) := by
  have dicts {γ : Type} [Codec γ] (key : String) :
      PlainFields (.defaulted key (dict (decoder : Decoder (Ref γ))) []) := .defaulted key (plainly_dict plainly_ref) []
  have fields : PlainFields Definitions.fields :=
    ((((((dicts _).map _).seq (dicts _)).seq (dicts _)).seq (dicts _)).seq (dicts _)).seq (dicts _)
  exact plainly_record fields (by decide)

end Readers

/-! ## Fields that the walk reads -/

/-- A field that the walk reads for itself. It refuses values with plain faults only. -/
structure Check where
  key : String
  needed : Bool
  /-- Why a value is not read. -/
  fault? : Json → Option Fault
  plain : ∀ v f, fault? v = some f → Plain f

/-- The field of a reader. -/
def Check.of {α : Type} (key : String) (needed : Bool) (d : Decoder α) (h : Plainly d) : Check where
  key := key
  needed := needed
  fault? v := match d .plain v with
    | .ok _ => none
    | .error f => some f
  plain v f hf := by
    split at hf <;> cases hf
    exact h v f (by assumption)

/-- The issues of a field. -/
def Check.issues (c : Check) (path : Path) (members : List (String × Json)) : List Issue :=
  match members.lookup c.key with
  | some v => (c.fault? v).toList.map (faultIssue (path.key c.key))
  | none => if c.needed then [missing path c.key] else []

/-- The issues of a member are those of its field. -/
theorem memberIssues_eq {α : Type} {key : String} {needed : Bool} {d : Decoder α} (h : Plainly d) (path : Path)
    (members : List (String × Json)) :
    memberIssues d needed path key members = (Check.of key needed d h).issues path members := by
  unfold memberIssues Check.issues Check.of
  dsimp only
  cases members.lookup key with
  | none => rfl
  | some v =>
    dsimp only
    cases d .plain v <;> rfl

namespace Level

/-- The fields of a level that the walk reads for itself. -/
def checks (l : Level) : List Check :=
  [.of "name" true text plainly_text, .of "theme" false (decoder : Decoder (Ref Theme)) plainly_ref,
    .of "definitions" false (decoder : Decoder Definitions) plainly_definitions] ++
  match l with
  | .book | .group => []
  | .page => [.of "rows" true count plainly_count]
  | .column => [.of "type" true (decoder : Decoder (Ref DataType)) plainly_ref,
      .of "value" false (decoder : Decoder Expression) plainly_expression]

/-- The word for a level in messages. -/
def title : Level → String
  | .book => "book"
  | .page => "page"
  | .group => "group"
  | .column => "column"

/-- The walk over a level and the levels inside it. -/
def walk : Level → Path → Json → List Issue
  | .book => inspect "book" (listIssues pageIssues · "pages" ·)
  | .page => pageIssues
  | .group => groupIssues
  | .column => columnIssues

/-- What the walk reports of an object: the issues of its fields, and those of the list of levels inside it. -/
theorem mem_walk_object {l : Level} {path : Path} {members : List (String × Json)} {i : Issue} :
    i ∈ l.walk path (.object members) ↔ (∃ c ∈ l.checks, i ∈ c.issues path members) ∨
      ∃ key inner, l.items? = some (key, inner) ∧ i ∈ listIssues inner.walk path key members := by
  cases l <;>
    simp [walk, pageIssues, groupIssues, columnIssues, inspect, membersOf, levelIssues,
      memberIssues_eq plainly_text, memberIssues_eq plainly_ref, memberIssues_eq plainly_definitions,
      memberIssues_eq plainly_count, memberIssues_eq plainly_expression, checks, items?, or_assoc]

/-- What is not an object is reported as such. -/
theorem walk_of_not_object {l : Level} {path : Path} {w : Json} (h : ∀ members, w ≠ .object members) :
    l.walk path w = [.validating (l.title ++ " must be an object") path] := by
  cases w with
  | object members => exact absurd rfl (h members)
  | _ => cases l <;> rfl

/-- A level must have a member: one that the walk reads for itself, or the list of the levels inside it. -/
def Needs (l : Level) (key : String) : Prop :=
  (∃ c ∈ l.checks, c.key = key ∧ c.needed) ∨ ∃ inner, l.items? = some (key, inner)

/-- An issue of a level and its own fields. -/
inductive Reports (l : Level) (path : Path) : Json → Issue → Prop
  | shape {w : Json} (h : ∀ members, w ≠ .object members) :
    Reports l path w (.validating (l.title ++ " must be an object") path)
  | absent {members : List (String × Json)} {key : String} (needed : l.Needs key)
    (lookup : members.lookup key = none) : Reports l path (.object members) (missing path key)
  | field {members : List (String × Json)} {c : Check} {x : Json} {f : Fault} (check : c ∈ l.checks)
    (lookup : members.lookup c.key = some x) (fault : c.fault? x = some f) :
    Reports l path (.object members) (faultIssue (path.key c.key) f)
  | list {members : List (String × Json)} {key : String} {inner : Level} {x : Json}
    (items : l.items? = some (key, inner)) (lookup : members.lookup key = some x)
    (h : ∀ items, x ≠ .list items) :
    Reports l path (.object members) (.validating ("'" ++ key ++ "' must be an array") (path.key key))

end Level

section Members

variable {path : Path} {members : List (String × Json)} {i : Issue} {key : String}

/-- The issues of a field are its fault, or that it is absent. -/
theorem Check.mem_issues_iff {c : Check} : i ∈ c.issues path members ↔
    (∃ x f, members.lookup c.key = some x ∧ c.fault? x = some f ∧ i = faultIssue (path.key c.key) f) ∨
      (c.needed ∧ members.lookup c.key = none ∧ i = missing path c.key) := by
  unfold issues
  cases members.lookup c.key with
  | none => simp
  | some x => simp [eq_comm (a := i)]

/-- The issues of a list are those of its items, or that there is no list. -/
theorem mem_listIssues_iff {item : Path → Json → List Issue} : i ∈ listIssues item path key members ↔
    (∃ items n x, members.lookup key = some (.list items) ∧ items[n]? = some x ∧
      i ∈ item ((path.key key).index n) x) ∨
    (∃ x, members.lookup key = some x ∧ (∀ items, x ≠ .list items) ∧
      i = .validating ("'" ++ key ++ "' must be an array") (path.key key)) ∨
    (members.lookup key = none ∧ i = missing path key) := by
  unfold listIssues
  cases members.lookup key with
  | none => simp
  | some x =>
    cases x with
    | list items => simp [List.mem_flatMap, List.mem_zipIdx_iff_getElem?, Prod.exists, exists_comm (α := Json)]
    | _ => simp

end Members

namespace Level

/-- What the walk reports of a level is reported of the level itself, or by the walk over a level inside it. -/
theorem mem_walk_iff {l : Level} {path : Path} {w : Json} {i : Issue} :
    i ∈ l.walk path w ↔ l.Reports path w i ∨
      ∃ members key inner items n x, w = .object members ∧ l.items? = some (key, inner) ∧
        members.lookup key = some (.list items) ∧ items[n]? = some x ∧
        i ∈ inner.walk ((path.key key).index n) x := by
  by_cases hw : ∃ members, w = .object members
  · obtain ⟨members, rfl⟩ := hw
    rw [mem_walk_object]
    simp only [Check.mem_issues_iff, mem_listIssues_iff]
    constructor
    · rintro (⟨c, check, ⟨x, f, lookup, fault, rfl⟩ | ⟨needed, lookup, rfl⟩⟩ |
        ⟨key, inner, hitems, ⟨items, n, x, lookup, hx, hi⟩ | ⟨x, lookup, hx, rfl⟩ | ⟨lookup, rfl⟩⟩)
      · exact .inl (.field check lookup fault)
      · exact .inl (.absent (.inl ⟨c, check, rfl, needed⟩) lookup)
      · exact .inr ⟨members, key, inner, items, n, x, rfl, hitems, lookup, hx, hi⟩
      · exact .inl (.list hitems lookup hx)
      · exact .inl (.absent (.inr ⟨inner, hitems⟩) lookup)
    · rintro (h | ⟨_, key, inner, items, n, x, heq, hitems, lookup, hx, hi⟩)
      · cases h with
        | shape h => exact absurd rfl (h members)
        | absent needed lookup =>
          obtain ⟨c, check, rfl, needed⟩ | ⟨inner, hitems⟩ := needed
          · exact .inl ⟨c, check, .inr ⟨needed, lookup, rfl⟩⟩
          · exact .inr ⟨_, inner, hitems, .inr (.inr ⟨lookup, rfl⟩)⟩
        | field check lookup fault => exact .inl ⟨_, check, .inl ⟨_, _, lookup, fault, rfl⟩⟩
        | list hitems lookup hx => exact .inr ⟨_, _, hitems, .inr (.inl ⟨_, lookup, hx, rfl⟩)⟩
      · cases heq
        exact .inr ⟨key, inner, hitems, .inl ⟨items, n, x, lookup, hx, hi⟩⟩
  · have shape : ∀ members, w ≠ .object members := fun members heq => hw ⟨members, heq⟩
    rw [walk_of_not_object shape, List.mem_singleton]
    constructor
    · rintro rfl
      exact .inl (.shape shape)
    · rintro (h | ⟨members, _, _, _, _, _, rfl, -⟩)
      · cases h with
        | shape => rfl
        | _ => exact absurd rfl (shape _)
      · exact absurd rfl (shape members)

variable {v : Json} {i : Issue}

/-- What the walk over levels of a kind reports is reported of some level. -/
def Found (v : Json) (i : Issue) (l : Level) : Prop :=
  ∀ path w, Node v l path w → i ∈ l.walk path w → ∃ m q x, Node v m q x ∧ m.Reports q x i

/-- What is found inside a level is found. -/
theorem found_of_inner {l : Level} (h : ∀ key inner, l.items? = some (key, inner) → Found v i inner) :
    Found v i l := by
  intro path w node hi
  obtain reports | ⟨members, key, inner, items, n, x, rfl, hitems, lookup, hx, hi⟩ := mem_walk_iff.1 hi
  · exact ⟨l, path, w, node, reports⟩
  · have list : v.at? (path.key key) = some (.list items) := by rw [Json.at?_key node.value, lookup]
    have item : v.at? ((path.key key).index n) = some x := by rw [Json.at?_index list, hx]
    exact h key inner hitems _ x ⟨.item node.level hitems n, item⟩ hi

/-- What the walk over a book reports is found. -/
theorem found_book (v : Json) (i : Issue) : Found v i .book := by
  have column : Found v i .column := found_of_inner fun key inner h => by cases h
  have group : Found v i .group := found_of_inner fun key inner h => by cases h; exact column
  have page : Found v i .page := found_of_inner fun key inner h => by cases h; exact group
  exact found_of_inner fun key inner h => by cases h; exact page

/-- What the walk over a level reports is reported by the walk over the book. -/
theorem mem_bookIssues_of_walk {l : Level} {path : Path} {w : Json} (node : Node v l path w)
    (h : i ∈ l.walk path w) : i ∈ bookIssues v := by
  obtain ⟨level, value⟩ := node
  induction level generalizing w with
  | book =>
    cases value
    exact h
  | @item l inner key path outer hitems n ih =>
    obtain ⟨items, hlist, hx⟩ := Json.exists_of_at?_index value
    obtain ⟨members, hobject, lookup⟩ := Json.exists_of_at?_key hlist
    exact ih (mem_walk_iff.2 (.inr ⟨members, key, inner, items, n, w, rfl, hitems, lookup, hx, h⟩)) hobject

end Level

variable {v : Json} {fault : Fault}

/-- The walk reports what is wrong with the levels of a tree and their own fields, and nothing else. -/
theorem mem_bookIssues_iff {i : Issue} :
    i ∈ bookIssues v ↔ ∃ l path w, Node v l path w ∧ Level.Reports l path w i := by
  constructor
  · intro h
    exact Level.found_book v i .root v ⟨.book, v.at?_root⟩ h
  · rintro ⟨l, path, w, node, reports⟩
    exact Level.mem_bookIssues_of_walk node (Level.mem_walk_iff.2 (.inl reports))

/-- Every fault of a field that the walk reads has its issue, with the message of the fault. The message is whole
exactly if the fault quotes no text with a mark. Otherwise it ends in the middle of the text, where its last
mark begins. Of a message about a text that is no tree only the position at its end is cut off. -/
theorem fault_messages_are_whole (h : decode Book v = .error fault) :
    validate v = .error (bookIssues v) ∧
    (∀ i, i ∈ bookIssues v ↔ ∃ l path w, Node v l path w ∧ Level.Reports l path w i) ∧
    (∀ l path members x f, ∀ c ∈ Level.checks l, Node v l path (.object members) →
      members.lookup c.key = some x → c.fault? x = some f →
        ∃ i ∈ bookIssues v, i.place = .node (path.key c.key) ∧ (i.message = f.message ↔ ¬QuotesMark f) ∧
          ∀ s expected before after, f = .wrongType (.text s) expected →
            s.toList = before ++ (positionMark ++ after) → ¬ positionMark <:+: (positionMark ++ after).tail →
              i.message = "invalid type: string " ++ String.ofList ('"' :: before.flatMap Text.quotedChar)) ∧
    ∀ text flaw read, Json.read text = .error (flaw, read) → ∃ location length,
      Source.parse text = .error ⟨.parsing, flaw.message, .source location length, none⟩ ∧
        withoutPosition (positioned flaw.message location.line location.column) = flaw.message := by
  refine ⟨(faults_are_found_by_the_walk h).2.1, fun i => mem_bookIssues_iff, ?_, ?_⟩
  · intro l path members x f c check node lookup hf
    have plain := c.plain x f hf
    refine ⟨faultIssue (path.key c.key) f, mem_bookIssues_iff.2 ⟨l, path, _, node, .field check lookup hf⟩, rfl, ?_, ?_⟩
    · rw [message_faultIssue, withoutPosition_eq_self_iff, plain.marked_iff]
    · rintro s expected before after rfl hs last
      rw [message_faultIssue]
      cases plain with
      | wrongType _ clear => exact message_of_mark clear hs last
  · intro text flaw read hread
    have parsed : Source.parse text = .error (Source.issue text flaw read) := by rw [Source.parse, hread]
    exact ⟨_, _, parsed, withoutPosition_positioned _ _ _⟩

/-- A book with a page whose rows are a text that says where it comes from. -/
def citedBook : Json :=
  .object [("name", .text "Shop"), ("pages", .list [.object [("name", .text "Stock"),
    ("rows", .text "five at line 3"), ("groups", .list [])]])]

/-- The page of that book. -/
def citedPage : List (String × Json) :=
  [("name", .text "Stock"), ("rows", .text "five at line 3"), ("groups", .list [])]

/-- The page of the cited book is its first one. -/
theorem node_citedPage : Node citedBook .page ((Path.root.key "pages").index 0) (.object citedPage) where
  level := .item .book rfl 0
  value := by rfl

/-- The rows of the cited book are refused. -/
theorem decode_citedBook : decode Book citedBook = .error (.wrongType (.text "five at line 3") "u32") := by rfl

/-- The walk reads the rows of a page for itself. -/
theorem check_rows : Check.of "rows" true count plainly_count ∈ Level.checks .page := by
  simp [Level.checks]

/-- The message about the rows of the cited book is cut at the text that it quotes. -/
theorem fault_messages_are_whole_citedBook :
    decode Book citedBook = .error (.wrongType (.text "five at line 3") "u32") ∧
      ∃ i ∈ bookIssues citedBook, i.place = .node (((Path.root.key "pages").index 0).key "rows") ∧
        i.message = "invalid type: string " ++ String.ofList ('"' :: "five".toList) := by
  obtain ⟨i, hi, place, -, cut⟩ := (fault_messages_are_whole decode_citedBook).2.2.1 _ _ _
    (.text "five at line 3") _ _ check_rows node_citedPage rfl rfl
  refine ⟨decode_citedBook, i, hi, place, ?_⟩
  have message := cut _ _ "five".toList ['3'] rfl (by decide +kernel) (by decide)
  rw [message, show "five".toList.flatMap Text.quotedChar = "five".toList by decide +kernel]

/-- The message about the rows of the page is not that of their reader. -/
theorem cited_message_is_cut :
    decode Book citedBook = .error (.wrongType (.text "five at line 3") "u32") ∧
      (Fault.wrongType (.text "five at line 3") "u32").message =
        "invalid type: string \"five at line 3\", expected u32" ∧
      ∃ i ∈ bookIssues citedBook, i.place = .node (((Path.root.key "pages").index 0).key "rows") ∧
        i.message = "invalid type: string \"five" := by
  refine ⟨decode_citedBook, by decide +kernel, _,
    mem_bookIssues_iff.2 ⟨_, _, _, node_citedPage, .field check_rows rfl rfl⟩, rfl, ?_⟩
  rw [message_faultIssue]
  decide +kernel

end Workbook.Document
