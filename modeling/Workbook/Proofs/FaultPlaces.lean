import Mathlib.Data.List.Nodup
import Workbook.Proofs.IssuePlaces
import Workbook.Proofs.SchemaFaults

/-!
# Issues of a tree name its faults

A tree that is no book is reported by a walk over its levels. What the walk reports is wrong by the readers
of books themselves: a level lacks a field that it must have, or the value at the place of the issue is not
read as what stands there. The walk asks for one thing more: a level must be written as an object, while its
reader also takes the list of its fields. Issues about such lists are set apart, and so are those about a
null where a field may be absent, of which nothing is said here.

A fault makes every value around it unreadable. So a value that is read is not reported for what is wrong
elsewhere, and nothing inside it is, but for these two kinds of issues.
-/

namespace Workbook

/-! ## Values at paths -/

namespace Json

/-- The value that one step leads to. -/
def step? : Json → Segment → Option Json
  | .object members, .key name => members.lookup name
  | .list items, .index n => items[n]?
  | _, _ => none

/-- The value that a path leads to. -/
def at? (v : Json) (path : Path) : Option Json := path.segments.foldlM step? v

variable {v w : Json} {path : Path}

theorem at?_root (v : Json) : v.at? .root = some v := rfl

/-- One more step of a path leads on from where the path leads. -/
theorem at?_append (v : Json) (path : Path) (x : Segment) :
    v.at? ⟨path.segments ++ [x]⟩ = (v.at? path).bind (·.step? x) := by
  simp [at?, List.foldlM_append]

/-- A key leads to the member of an object. -/
theorem at?_key {members : List (String × Json)} (h : v.at? path = some (.object members)) (name : String) :
    v.at? (path.key name) = members.lookup name := by
  rw [Path.key, at?_append, h]
  rfl

/-- A number leads to the item of a list. -/
theorem at?_index {items : List Json} (h : v.at? path = some (.list items)) (n : Nat) :
    v.at? (path.index n) = items[n]? := by
  rw [Path.index, at?_append, h]
  rfl

/-- A value under a key is a member of an object. -/
theorem exists_of_at?_key {name : String} (h : v.at? (path.key name) = some w) :
    ∃ members, v.at? path = some (.object members) ∧ members.lookup name = some w := by
  rw [Path.key, at?_append] at h
  obtain ⟨around, hpath, hstep⟩ := Option.bind_eq_some_iff.1 h
  cases around with
  | object members => exact ⟨members, hpath, hstep⟩
  | _ => cases hstep

/-- A value under a number is an item of a list. -/
theorem exists_of_at?_index {n : Nat} (h : v.at? (path.index n) = some w) :
    ∃ items, v.at? path = some (.list items) ∧ items[n]? = some w := by
  rw [Path.index, at?_append] at h
  obtain ⟨around, hpath, hstep⟩ := Option.bind_eq_some_iff.1 h
  cases around with
  | list items => exact ⟨items, hpath, hstep⟩
  | _ => cases hstep

end Json

namespace Document

open Schema

/-! ## Levels and their fields -/

/-- A reader reads a value as it stands in a document. -/
def Accepts {α : Type} (d : Decoder α) (v : Json) : Prop := ∃ a, d .plain v = .ok a

/-- A field that a level declares. -/
structure LevelField where
  key : String
  /-- The field must be there. -/
  needed : Bool
  /-- The values that are read for the field. -/
  Reads : Json → Prop

namespace LevelField

/-- A field that must be there. -/
def required {α : Type} (key : String) (d : Decoder α) : LevelField := ⟨key, true, Document.Accepts d⟩

/-- A field that may be null or absent. -/
def optional {α : Type} (key : String) (d : Decoder α) : LevelField :=
  ⟨key, false, Document.Accepts (nullable d)⟩

/-- The members of an object are right for a field. -/
def Fits (f : LevelField) (members : List (String × Json)) : Prop :=
  match members.lookup f.key with
  | some v => f.Reads v
  | none => f.needed = false

end LevelField

/-- The levels of a book. -/
inductive Level where
  | book
  | page
  | group
  | column
deriving DecidableEq, Repr

namespace Level

/-- The values that are read as a level. -/
def Accepts : Level → Json → Prop
  | .book => Document.Accepts (decoder : Decoder Book)
  | .page => Document.Accepts (decoder : Decoder Page)
  | .group => Document.Accepts (decoder : Decoder Group)
  | .column => Document.Accepts (decoder : Decoder Column)

/-- The fields that all levels have. -/
def sharedFields : List LevelField :=
  [.required "name" text, .optional "theme" (decoder : Decoder (Ref Theme)),
    .optional "definitions" (decoder : Decoder Definitions)]

/-- The fields that a level has beyond these. -/
def ownFields : Level → List LevelField
  | .book => [.required "pages" (list (decoder : Decoder Page))]
  | .page => [.required "rows" count, .required "groups" (list (decoder : Decoder Group))]
  | .group => [.required "columns" (list (decoder : Decoder Column))]
  | .column => [.required "type" (decoder : Decoder (Ref DataType)),
      .optional "value" (decoder : Decoder Expression)]

/-- The fields of a level. -/
def fields (l : Level) : List LevelField := sharedFields ++ l.ownFields

/-- The field that lists the levels inside a level, and what these are. -/
def items? : Level → Option (String × Level)
  | .book => some ("pages", .page)
  | .page => some ("groups", .group)
  | .group => some ("columns", .column)
  | .column => none

/-- The paths at which levels of a kind stand. -/
inductive At : Level → Path → Prop
  | book : At .book .root
  | item {l inner : Level} {key : String} {path : Path} (outer : At l path)
    (items : l.items? = some (key, inner)) (n : Nat) : At inner ((path.key key).index n)

end Level

/-- A value stands at the place of a level. -/
structure Node (v : Json) (l : Level) (path : Path) (w : Json) : Prop where
  level : l.At path
  value : v.at? path = some w

/-! ## What issues are about -/

/-- The readers of books reject the tree at the place of an issue: the value of a level or of a field is not
read, or a field that must be there is absent. -/
inductive NamesFault (v : Json) (i : Issue) : Prop
  | level {l : Level} {path : Path} {w : Json} (node : Node v l path w) (rejected : ¬l.Accepts w)
    (place : i.place = .node path)
  | absent {l : Level} {path : Path} {members : List (String × Json)} {f : LevelField}
    (node : Node v l path (.object members)) (field : f ∈ l.fields) (needed : f.needed = true)
    (lookup : members.lookup f.key = none) (issue : i = missing path f.key)
  | field {l : Level} {path : Path} {members : List (String × Json)} {f : LevelField} {w : Json}
    (node : Node v l path (.object members)) (field : f ∈ l.fields)
    (lookup : members.lookup f.key = some w) (rejected : ¬f.Reads w)
    (place : i.place = .node (path.key f.key))

/-- An issue is about a level that is written as a list. -/
def NamesList (v : Json) (i : Issue) : Prop :=
  ∃ l path items, Node v l path (.list items) ∧ i.place = .node path

/-- An issue is about a null where a field may be absent. -/
def NamesNull (v : Json) (i : Issue) : Prop :=
  ∃ l path members f, Node v l path (.object members) ∧ f ∈ l.fields ∧ f.needed = false ∧
    members.lookup f.key = some .null ∧ i.place = .node (path.key f.key)

/-! ## The fields decide -/

section Fields

variable {α β : Type} {d : Decoder α} {key : String} {members : List (String × Json)}

/-- What is not left open is read by the reader. -/
theorem nullable_of_ne_null {h : Holding} {v : Json} (hv : v ≠ .null) :
    nullable d h v = (d h v).map some := by
  cases v with
  | null => exact absurd rfl hv
  | _ => rfl

/-- Mapped fields read the members that the fields read. -/
theorem reads_map_iff {as : Fields α} (f : α → β) : Reads (f <$> as) members ↔ Reads as members := by
  refine ⟨fun ⟨b, hb⟩ => ?_, fun h => h.map f⟩
  change ((Fields.pure f).andThen as).named .plain members = _ at hb
  cases ha : as.named .plain members with
  | ok a => exact ⟨a, ha⟩
  | error fault =>
    simp only [Fields.andThen, Fields.pure, ha] at hb
    cases hb

/-- Fields side by side read the members that each of them reads. -/
theorem reads_seq_iff {fs : Fields (α → β)} {as : Fields α} :
    Reads (fs <*> as) members ↔ Reads fs members ∧ Reads as members := by
  refine ⟨fun ⟨b, hb⟩ => ?_, fun ⟨hf, ha⟩ => hf.seq ha⟩
  change (fs.andThen as).named .plain members = _ at hb
  simp only [Fields.andThen] at hb
  split at hb
  · exact ⟨⟨_, by assumption⟩, ⟨_, by assumption⟩⟩
  all_goals cases hb

/-- A required field reads the members that fit it. -/
theorem reads_required_iff : Reads (.required key d) members ↔ (LevelField.required key d).Fits members := by
  unfold Reads LevelField.Fits Fields.required Fields.single LevelField.required
  dsimp only
  cases members.lookup key with
  | none => simp
  | some v =>
    dsimp only [Accepts]
    cases d .plain v <;> simp [Except.mapError]

/-- A field that may be absent reads the members that fit it. -/
theorem reads_optional_iff : Reads (.optional key d) members ↔ (LevelField.optional key d).Fits members := by
  unfold Reads LevelField.Fits Fields.optional Fields.defaulted Fields.single LevelField.optional
  dsimp only
  cases members.lookup key with
  | none => simp
  | some v =>
    dsimp only [Accepts]
    cases nullable d .plain v <;> simp [Except.mapError]

/-- A record is read from an object exactly when its fields are. -/
theorem accepts_record_iff {fs : Fields α} {title : String} :
    Accepts (record title fs) (.object members) ↔ Reads fs members := by
  unfold Accepts Reads
  simp only [record]
  cases fs.named .plain members <;> simp [Except.mapError]

/-- A list is read exactly when its items are. -/
theorem accepts_list_iff {v : Json} :
    Accepts (list d) v ↔ ∃ items, v = .list items ∧ ∀ w ∈ items, Accepts d w := by
  constructor
  · rintro ⟨as, has⟩
    cases v with
    | list items =>
      refine ⟨items, rfl, fun w hw => ?_⟩
      obtain ⟨a, -, ha⟩ := exists_mem_of_mapM has hw
      exact ⟨a, ha⟩
    | _ => cases has
  · rintro ⟨items, rfl, hitems⟩
    exact exists_mapM_eq_ok hitems

end Fields

namespace Level

/-- A level is read from an object exactly when each of its fields is right. -/
theorem accepts_object_iff (l : Level) (members : List (String × Json)) :
    l.Accepts (.object members) ↔ ∀ f ∈ l.fields, f.Fits members := by
  cases l <;>
    simp only [Accepts, fields, sharedFields, ownFields, List.cons_append, List.nil_append,
      List.forall_mem_cons, List.not_mem_nil, false_implies, implies_true, and_true,
      ← reads_required_iff, ← reads_optional_iff] <;>
    refine accepts_record_iff.trans ?_
  · simp only [Book.fields, reads_seq_iff, reads_map_iff, and_assoc]
  · simp only [Page.fields, reads_seq_iff, reads_map_iff]
    tauto
  · simp only [Group.fields, reads_seq_iff, reads_map_iff, and_assoc]
  · simp only [Column.fields, reads_seq_iff, reads_map_iff, and_assoc]

/-- What is neither an object nor a list is not read as a level. -/
theorem shape_of_accepts {l : Level} {v : Json} (h : l.Accepts v) :
    (∃ members, v = .object members) ∨ ∃ items, v = .list items := by
  cases v with
  | object members => exact .inl ⟨members, rfl⟩
  | list items => exact .inr ⟨items, rfl⟩
  | _ => cases l <;> obtain ⟨_, h⟩ := h <;> cases h

/-- A field that lists levels is read exactly when these are. -/
theorem exists_items_field {l inner : Level} {key : String} (h : l.items? = some (key, inner)) :
    ∃ f ∈ l.fields, f.key = key ∧ f.needed = true ∧
      ∀ v, f.Reads v ↔ ∃ items, v = .list items ∧ ∀ w ∈ items, inner.Accepts w := by
  cases l <;> cases h <;>
    exact ⟨.required _ (list decoder), by simp [fields, ownFields], rfl, rfl, fun v => accepts_list_iff⟩

/-- A level has one field for a key. -/
theorem field_unique {l : Level} {f g : LevelField} (hf : f ∈ l.fields) (hg : g ∈ l.fields)
    (hkey : f.key = g.key) : f = g := by
  have hnodup : (l.fields.map LevelField.key).Nodup := by cases l <;> decide
  exact List.inj_on_of_nodup_map hnodup hf hg hkey

/-! ## Places of levels -/

/-- The steps to a level: two for each level around it. -/
def depth : Level → Nat
  | .book => 0
  | .page => 2
  | .group => 4
  | .column => 6

/-- A level stands at paths of one length. -/
theorem At.length_eq {l : Level} {path : Path} (h : l.At path) : path.segments.length = l.depth := by
  induction h with
  | book => rfl
  | @item l inner key path outer items n ih =>
    have hsteps : ((path.key key).index n).segments.length = path.segments.length + 2 := by
      simp [Path.key, Path.index]
    rw [hsteps, ih]
    cases l <;> cases items <;> rfl

/-- One kind of level stands at a path. -/
theorem At.unique {l m : Level} {path : Path} (hl : l.At path) (hm : m.At path) : l = m := by
  have hdepth := hl.length_eq.symm.trans hm.length_eq
  cases l <;> cases m <;> first | rfl | cases hdepth

/-- The last step to a level is never that to a member. -/
theorem At.ne_key {l : Level} {path : Path} (h : l.At path) (p : Path) (name : String) :
    path ≠ p.key name := by
  intro heq
  have hlast := congrArg (fun q : Path => q.segments.getLast?) heq
  cases h with
  | book => simp [Path.root, Path.key] at hlast
  | item outer items n => simp [Path.key, Path.index] at hlast

end Level

variable {v : Json} {l m : Level} {path q : Path} {members : List (String × Json)} {f : LevelField}
  {w x : Json} {i : Issue}

/-- A path leads to one node of one level. -/
theorem Node.unique (hw : Node v l path w) (hx : Node v m path x) : l = m ∧ w = x :=
  ⟨hw.level.unique hx.level, Option.some.inj (hw.value.symm.trans hx.value)⟩

/-- A level that is an object is not read if one of its fields is wrong. -/
theorem Level.not_accepts_of_field (hf : f ∈ l.fields) (wrong : ¬f.Fits members) :
    ¬l.Accepts (.object members) := fun h => wrong ((l.accepts_object_iff members).1 h f hf)

/-- A member fits a field exactly if the field reads it. -/
theorem LevelField.fits_of_lookup (h : members.lookup f.key = some w) : f.Fits members ↔ f.Reads w := by
  rw [Fits, h]

/-- A missing member fits a field exactly if the field is not needed. -/
theorem LevelField.fits_of_absent (h : members.lookup f.key = none) :
    f.Fits members ↔ f.needed = false := by
  rw [Fits, h]

/-- The field of a key of a level stands at one place. -/
theorem Node.field_unique {g : LevelField} {more : List (String × Json)}
    (node : Node v l path (.object members)) (other : Node v m q (.object more)) (hf : f ∈ l.fields)
    (hg : g ∈ m.fields) (hplace : q.key g.key = path.key f.key) : g = f ∧ more = members := by
  have hsteps : q.segments ++ [.key g.key] = path.segments ++ [.key f.key] := congrArg Path.segments hplace
  obtain ⟨hpath, hkey⟩ := List.append_inj' hsteps rfl
  cases q
  cases path
  cases hpath
  obtain ⟨rfl, hmembers⟩ := other.unique node
  exact ⟨Level.field_unique hg hf (by simpa using hkey), Json.object.inj hmembers⟩

/-- A level that is not read stands in no value of a field that is read. -/
theorem Node.not_reads_around {more : List (String × Json)} (node : Node v l path w) (hw : ¬l.Accepts w)
    (around : Node v m q (.object more)) (hf : f ∈ m.fields) (hx : more.lookup f.key = some x)
    (within : (q.key f.key).Within path) : ¬f.Reads x := by
  obtain ⟨level, value⟩ := node
  induction level generalizing w with
  | book => exact absurd (List.prefix_nil.1 within) (by simp [Path.key])
  | @item l inner key p outer items n ih =>
    obtain ⟨others, hlist, hitem⟩ := Json.exists_of_at?_index value
    obtain ⟨members, hobject, hlookup⟩ := Json.exists_of_at?_key hlist
    obtain ⟨g, hg, rfl, -, hreads⟩ := Level.exists_items_field items
    -- the list that holds the level is not read, and neither is what holds the list
    have hwrong : ¬g.Reads (.list others) := by
      intro hread
      obtain ⟨_, heq, hall⟩ := (hreads _).1 hread
      cases heq
      exact hw (hall w (List.mem_of_getElem? hitem))
    have houter : ¬l.Accepts (.object members) :=
      Level.not_accepts_of_field hg (by rwa [LevelField.fits_of_lookup hlookup])
    obtain hplace | within := List.prefix_concat_iff.1 within
    · exact absurd (List.append_inj' hplace rfl).2 (by simp)
    · obtain hplace | within := List.prefix_concat_iff.1 within
      · obtain ⟨rfl, rfl⟩ := Node.field_unique ⟨outer, hobject⟩ around hg hf (congrArg Path.mk hplace)
        rw [hlookup] at hx
        cases hx
        exact hwrong
      · exact ih houter within hobject

/-- A fault makes the values of the fields around it unreadable. -/
theorem NamesFault.not_reads_around (h : NamesFault v i) (around : Node v m q (.object members))
    (hf : f ∈ m.fields) (hx : members.lookup f.key = some x) (hunder : i.Under (q.key f.key)) :
    ¬f.Reads x := by
  obtain ⟨below, hunder⟩ := hunder
  have hwithin {p : Path} (place : i.place = .node p) : (q.key f.key).Within p :=
    ⟨below, by cases place.symm.trans hunder; rfl⟩
  cases h with
  | level node rejected place => exact node.not_reads_around rejected around hf hx (hwithin place)
  | absent node field needed lookup issue =>
    have hwrong := Level.not_accepts_of_field field fun hfits => by
      cases needed.symm.trans ((LevelField.fits_of_absent lookup).1 hfits)
    exact node.not_reads_around hwrong around hf hx (hwithin (by rw [issue]; rfl))
  | @field _ p others g w node field lookup rejected place =>
    obtain hplace | within := List.prefix_concat_iff.1 (hwithin place)
    · obtain ⟨rfl, rfl⟩ := node.field_unique around field hf (congrArg Path.mk hplace)
      rw [lookup] at hx
      cases hx
      exact rejected
    · have hwrong := Level.not_accepts_of_field field (by rwa [LevelField.fits_of_lookup lookup])
      exact node.not_reads_around hwrong around hf hx within

/-! ## The walk -/

/-- What an issue of the walk is about. -/
def Blames (v : Json) (i : Issue) : Prop := NamesFault v i ∨ NamesList v i ∨ NamesNull v i

section Walk

variable {α : Type} {d : Decoder α} {key : String}

/-- An issue about a required member blames what is wrong. -/
theorem blames_required (node : Node v l path (.object members)) (hf : .required key d ∈ l.fields)
    (h : i ∈ memberIssues d true path key members) : Blames v i := by
  unfold memberIssues at h
  split at h
  · rename_i w hlookup
    split at h
    · cases h
    · rename_i fault hread
      refine .inl (.field node hf hlookup ?_ (List.mem_singleton.1 h ▸ rfl))
      rintro ⟨a, ha⟩
      cases ha.symm.trans hread
  · rename_i hlookup
    exact .inl (.absent node hf rfl hlookup (List.mem_singleton.1 h))

/-- An issue about a member that may be absent blames what is wrong. -/
theorem blames_optional (node : Node v l path (.object members)) (hf : .optional key d ∈ l.fields)
    (h : i ∈ memberIssues d false path key members) : Blames v i := by
  unfold memberIssues at h
  split at h
  · rename_i w hlookup
    split at h
    · cases h
    · rename_i fault hread
      have place : i.place = .node (path.key key) := List.mem_singleton.1 h ▸ rfl
      by_cases hnull : w = .null
      · subst hnull
        exact .inr (.inr ⟨l, path, members, _, node, hf, rfl, hlookup, place⟩)
      · refine .inl (.field node hf hlookup ?_ place)
        rintro ⟨a, ha⟩
        rw [nullable_of_ne_null hnull, hread] at ha
        cases ha
  · cases h

/-- What is reported of a list of levels is about the list, or it is reported of one of these levels. -/
theorem blames_list {item : Path → Json → List Issue} {inner : Level}
    (node : Node v l path (.object members)) (hitems : l.items? = some (key, inner))
    (hitem : ∀ {path w}, Node v inner path w → ∀ i ∈ item path w, Blames v i)
    (h : i ∈ listIssues item path key members) : Blames v i := by
  obtain ⟨f, hf, rfl, needed, hreads⟩ := Level.exists_items_field hitems
  unfold listIssues at h
  split at h
  · rename_i items hlookup
    obtain ⟨⟨w, n⟩, hw, hi⟩ := List.mem_flatMap.1 h
    have hlist : v.at? (path.key f.key) = some (.list items) := by rw [Json.at?_key node.value, hlookup]
    refine hitem ⟨.item node.level hitems n, ?_⟩ i hi
    rw [Json.at?_index hlist]
    exact List.mk_mem_zipIdx_iff_getElem?.1 hw
  · rename_i w hother hlookup
    refine .inl (.field node hf hlookup ?_ (List.mem_singleton.1 h ▸ rfl))
    intro hread
    obtain ⟨items, rfl, -⟩ := (hreads w).1 hread
    exact hother items rfl
  · rename_i hlookup
    exact .inl (.absent node hf needed hlookup (List.mem_singleton.1 h))

/-- What is reported of a level is about its shape or about its fields. -/
theorem blames_inspect {what : String} {own : Path → List (String × Json) → List Issue}
    (hown : ∀ {members}, Node v l path (.object members) → ∀ i ∈ own path members, Blames v i)
    (node : Node v l path w) : ∀ i ∈ inspect what own path w, Blames v i := by
  intro i h
  have hshape (h : i ∈ [Issue.validating (what ++ " must be an object") path])
      (hw : ∀ members, w ≠ .object members) : Blames v i := by
    have place : i.place = .node path := List.mem_singleton.1 h ▸ rfl
    by_cases hlist : ∃ items, w = .list items
    · obtain ⟨items, rfl⟩ := hlist
      exact .inr (.inl ⟨l, path, items, node, place⟩)
    · refine .inl (.level node (fun haccepts => ?_) place)
      obtain ⟨members, heq⟩ | hitems := Level.shape_of_accepts haccepts
      · exact hw members heq
      · exact hlist hitems
  cases w with
  | object members =>
    change i ∈ levelIssues path members ++ own path members at h
    have hshared {f : LevelField} (hf : f ∈ Level.sharedFields) : f ∈ l.fields :=
      List.mem_append_left _ hf
    simp only [levelIssues, List.mem_append] at h
    obtain ((h | h) | h) | h := h
    · exact blames_required node (hshared (by simp [Level.sharedFields])) h
    · exact blames_optional node (hshared (by simp [Level.sharedFields])) h
    · exact blames_optional node (hshared (by simp [Level.sharedFields])) h
    · exact hown node i h
  | _ => exact hshape h (fun _ => Json.noConfusion)

end Walk

/-- The issues of a column blame what is wrong in it. -/
theorem blames_columnIssues (node : Node v .column path w) : ∀ i ∈ columnIssues path w, Blames v i := by
  refine blames_inspect (fun node i h => ?_) node
  obtain h | h := List.mem_append.1 h
  · exact blames_required node (by simp [Level.fields, Level.ownFields]) h
  · exact blames_optional node (by simp [Level.fields, Level.ownFields]) h

/-- The issues of a group blame what is wrong in it. -/
theorem blames_groupIssues (node : Node v .group path w) : ∀ i ∈ groupIssues path w, Blames v i :=
  blames_inspect (fun node _ h => blames_list node rfl blames_columnIssues h) node

/-- The issues of a page blame what is wrong in it. -/
theorem blames_pageIssues (node : Node v .page path w) : ∀ i ∈ pageIssues path w, Blames v i := by
  refine blames_inspect (fun node i h => ?_) node
  obtain h | h := List.mem_append.1 h
  · exact blames_required node (by simp [Level.fields, Level.ownFields]) h
  · exact blames_list node rfl blames_groupIssues h

/-- The walk reports faults, levels that are written as lists, and nulls. -/
theorem blames_bookIssues (v : Json) : ∀ i ∈ bookIssues v, Blames v i :=
  blames_inspect (fun node _ h => blames_list node rfl blames_pageIssues h) ⟨.book, Json.at?_root v⟩

/-- When a tree is not read as a book, the issues that it is rejected with name faults: a level or the value
of a field that is not read, or a field that must be there and is not. Apart from them there are only issues
about a level that is written as a list, or about a null where a field may be absent. A field whose value is
read is never reported for a fault elsewhere: what is reported of it or inside its value is about such a
list or such a null. -/
theorem issues_name_faults {v : Json} {fault : Fault} (h : decode Book v = .error fault) :
    validate v = .error (bookIssues v) ∧
      (∀ i ∈ bookIssues v, NamesFault v i ∨ NamesList v i ∨ NamesNull v i) ∧
      ∀ l path members f w, Node v l path (.object members) → f ∈ l.fields →
        members.lookup f.key = some w → f.Reads w → ∀ i ∈ bookIssues v, i.Under (path.key f.key) →
          NamesList v i ∨ NamesNull v i := by
  obtain ⟨-, hvalidate, -⟩ := faults_are_found_by_the_walk h
  refine ⟨hvalidate, blames_bookIssues v, ?_⟩
  intro l path members f w node hf hlookup hreads i hi hunder
  obtain hfault | hother := blames_bookIssues v i hi
  · exact absurd hreads (hfault.not_reads_around node hf hlookup hunder)
  · exact hother

/-- Faults at two levels: the list of groups and the number of rows of a page. -/
theorem issues_name_faults_brokenBook :
    decode Book brokenBook = .error (.wrongType .null "a sequence") ∧
      validate brokenBook = .error (bookIssues brokenBook) ∧
      (∀ i ∈ bookIssues brokenBook,
        NamesFault brokenBook i ∨ NamesList brokenBook i ∨ NamesNull brokenBook i) ∧
      ∀ l path members f w, Node brokenBook l path (.object members) → f ∈ l.fields →
        members.lookup f.key = some w → f.Reads w → ∀ i ∈ bookIssues brokenBook,
          i.Under (path.key f.key) → NamesList brokenBook i ∨ NamesNull brokenBook i := by
  have h : decode Book brokenBook = .error (.wrongType .null "a sequence") := by rfl
  exact ⟨h, issues_name_faults h⟩

/-- A page that is written as the list of its fields, before one that is a number. -/
def listedPage : Json :=
  .object [("name", .text "Shop"),
    ("pages", .list [.list [.text "Stock", .integer 5, .null, .null, .list []], .integer 7])]

/-- The list is read as a page, and yet it is reported when something else is wrong. -/
theorem listed_page_is_reported :
    (∃ fault, decode Book listedPage = .error fault) ∧
      (∃ w, listedPage.at? ((Path.root.key "pages").index 0) = some w ∧ Level.page.Accepts w) ∧
      ∃ i ∈ bookIssues listedPage, ¬NamesFault listedPage i := by
  have hpage : listedPage.at? ((Path.root.key "pages").index 0) =
      some (.list [.text "Stock", .integer 5, .null, .null, .list []]) := by rfl
  have hreads : Level.page.Accepts (.list [.text "Stock", .integer 5, .null, .null, .list []]) :=
    ⟨_, rfl⟩
  refine ⟨⟨_, rfl⟩, ⟨_, hpage, hreads⟩, .validating "page must be an object"
    ((Path.root.key "pages").index 0), List.mem_cons_self, ?_⟩
  have here : Level.page.At ((Path.root.key "pages").index 0) := .item .book rfl 0
  intro h
  cases h with
  | level node rejected place =>
    cases place
    obtain ⟨rfl, rfl⟩ := node.unique ⟨here, hpage⟩
    exact rejected hreads
  | absent node field needed lookup issue =>
    have place : (Path.root.key "pages").index 0 = _ := Place.node.inj (congrArg Issue.place issue)
    subst place
    cases (node.unique ⟨here, hpage⟩).2
  | field node field lookup rejected place => exact here.ne_key _ _ (Place.node.inj place)

end Document

end Workbook
