import Workbook.Document
import Workbook.Proofs.Outcomes

/-!
# Faults of a tree are found at their places

A tree that is no book is walked level by level, and the walk checks the members of a level by the readers
that read them. So whenever it finds nothing at a column, a group, a page or the book, the reader of that
level succeeds there. A tree that does not read as a book is therefore always reported by the walk, at the
member of a level that is at fault, and never by one issue at its root.
-/

namespace Workbook.Document

open Schema

/-! ## Levels whose members are read -/

/-- The fields of a record are read from the members of an object in the document. -/
def Reads {α : Type} (fs : Fields α) (members : List (String × Json)) : Prop :=
  ∃ a, fs.named .plain members = .ok a

section Fields

variable {α β : Type} {path : Path} {key : String} {members : List (String × Json)}

namespace Reads

/-- Mapped fields read the members that the fields read. -/
theorem map {as : Fields α} (h : Reads as members) (f : α → β) : Reads (f <$> as) members := by
  obtain ⟨a, ha⟩ := h
  refine ⟨f a, ?_⟩
  change ((Fields.pure f).andThen as).named .plain members = _
  simp only [Fields.andThen, Fields.pure, ha]

/-- Fields side by side read the members that each of them reads. -/
theorem seq {fs : Fields (α → β)} {as : Fields α} (hf : Reads fs members) (ha : Reads as members) :
    Reads (fs <*> as) members := by
  obtain ⟨f, hf⟩ := hf
  obtain ⟨a, ha⟩ := ha
  refine ⟨f a, ?_⟩
  change (fs.andThen as).named .plain members = _
  simp only [Fields.andThen, hf, ha]

end Reads

/-- A member that must be there and is found without fault is read. -/
theorem reads_required {d : Decoder α} (h : memberIssues d true path key members = []) :
    Reads (.required key d) members := by
  unfold memberIssues at h
  cases hlookup : members.lookup key with
  | none => simp [hlookup] at h
  | some v =>
    cases hread : d .plain v with
    | error fault => simp [hlookup, hread] at h
    | ok a =>
      refine ⟨a, ?_⟩
      simp only [Fields.required, Fields.single, hlookup, hread]
      rfl

/-- A member that may be absent and is found without fault is read. -/
theorem reads_optional {d : Decoder α} (h : memberIssues d false path key members = []) :
    Reads (.optional key d) members := by
  unfold memberIssues at h
  cases hlookup : members.lookup key with
  | none =>
    refine ⟨none, ?_⟩
    simp only [Fields.optional, Fields.defaulted, Fields.single, hlookup]
  | some v =>
    cases hread : d .plain v with
    | error fault => simp [hlookup, hread] at h
    | ok a =>
      -- a null is read as nothing, whatever the reader of the member makes of it
      have hnullable : ∃ o, nullable d .plain v = .ok o := by
        unfold nullable
        split
        · exact ⟨none, rfl⟩
        · rw [hread]
          exact ⟨some a, rfl⟩
      obtain ⟨o, ho⟩ := hnullable
      refine ⟨o, ?_⟩
      simp only [Fields.optional, Fields.defaulted, Fields.single, hlookup, ho]
      rfl

/-- A list whose items are all read is read. -/
theorem exists_mapM_eq_ok {ε : Type} {f : α → Except ε β} {as : List α}
    (h : ∀ a ∈ as, ∃ b, f a = .ok b) : ∃ bs, as.mapM f = .ok bs := by
  induction as with
  | nil => exact ⟨[], rfl⟩
  | cons a rest ih =>
    obtain ⟨b, hb⟩ := h a List.mem_cons_self
    obtain ⟨bs, hbs⟩ := ih fun c hc => h c (List.mem_cons_of_mem a hc)
    refine ⟨b :: bs, ?_⟩
    rw [List.mapM_cons, hb, hbs]
    rfl

/-- A list of items that are found without fault is read, if the items are. -/
theorem reads_list {d : Decoder α} {item : Path → Json → List Issue}
    (hitem : ∀ path v, item path v = [] → ∃ a, d .plain v = .ok a)
    (h : listIssues item path key members = []) : Reads (.required key (list d)) members := by
  unfold listIssues at h
  split at h
  · rename_i items hlookup
    rw [List.flatMap_eq_nil_iff] at h
    have hitems : ∀ v ∈ items, ∃ a, d .plain v = .ok a := by
      intro v hv
      obtain ⟨i, hi⟩ := List.mem_iff_getElem?.1 hv
      exact hitem _ v (h (v, i) (List.mk_mem_zipIdx_iff_getElem?.2 hi))
    obtain ⟨as, has⟩ := exists_mapM_eq_ok hitems
    refine ⟨as, ?_⟩
    simp only [Fields.required, Fields.single, hlookup, list, has]
    rfl
  · cases h
  · cases h

end Fields

/-- A level without issues is an object, and neither the members that all levels have nor its own ones
have issues. -/
theorem of_inspect_eq_nil {what : String} {own : Path → List (String × Json) → List Issue} {path : Path}
    {v : Json} (h : inspect what own path v = []) : ∃ members, v = .object members ∧
      memberIssues text true path "name" members = [] ∧
      memberIssues (decoder : Decoder (Ref Theme)) false path "theme" members = [] ∧
      memberIssues (decoder : Decoder Definitions) false path "definitions" members = [] ∧
      own path members = [] := by
  cases v with
  | object members =>
    change levelIssues path members ++ own path members = [] at h
    simp only [levelIssues, List.append_eq_nil_iff, and_assoc] at h
    exact ⟨members, rfl, h⟩
  | _ => cases h

/-- A record is read from an object that has its fields. -/
theorem Reads.record {α : Type} {fs : Fields α} {members : List (String × Json)} (h : Reads fs members)
    (title : String) : ∃ a, Schema.record title fs .plain (.object members) = .ok a := by
  obtain ⟨a, ha⟩ := h
  exact ⟨a, by rw [Schema.record, ha]; rfl⟩

/-! ## One level after another -/

/-- A tree without issues is read as a column. -/
theorem exists_column {path : Path} {v : Json} (h : columnIssues path v = []) :
    ∃ c, (decoder : Decoder Column) .plain v = .ok c := by
  obtain ⟨members, rfl, hname, htheme, hdefinitions, hown⟩ := of_inspect_eq_nil h
  obtain ⟨htype, hvalue⟩ := List.append_eq_nil_iff.1 hown
  have hfields : Reads Column.fields members :=
    (((((reads_required hname).map Column.mk).seq (reads_optional htheme)).seq
      (reads_optional hdefinitions)).seq (reads_required htype)).seq (reads_optional hvalue)
  exact hfields.record _

/-- A tree without issues is read as a group. -/
theorem exists_group {path : Path} {v : Json} (h : groupIssues path v = []) :
    ∃ g, (decoder : Decoder Group) .plain v = .ok g := by
  obtain ⟨members, rfl, hname, htheme, hdefinitions, hcolumns⟩ := of_inspect_eq_nil h
  have hfields : Reads Group.fields members :=
    ((((reads_required hname).map Group.mk).seq (reads_optional htheme)).seq
      (reads_optional hdefinitions)).seq (reads_list (fun _ _ => exists_column) hcolumns)
  exact hfields.record _

/-- A tree without issues is read as a page. -/
theorem exists_page {path : Path} {v : Json} (h : pageIssues path v = []) :
    ∃ p, (decoder : Decoder Page) .plain v = .ok p := by
  obtain ⟨members, rfl, hname, htheme, hdefinitions, hown⟩ := of_inspect_eq_nil h
  obtain ⟨hrows, hgroups⟩ := List.append_eq_nil_iff.1 hown
  have hfields : Reads Page.fields members :=
    (((((reads_required hname).map Page.mk).seq (reads_required hrows)).seq (reads_optional htheme)).seq
      (reads_optional hdefinitions)).seq (reads_list (fun _ _ => exists_group) hgroups)
  exact hfields.record _

/-- A tree without issues is read as a book. -/
theorem exists_book {v : Json} (h : bookIssues v = []) : ∃ b, decode Book v = .ok b := by
  obtain ⟨members, rfl, hname, htheme, hdefinitions, hpages⟩ := of_inspect_eq_nil h
  have hfields : Reads Book.fields members :=
    ((((reads_required hname).map Book.mk).seq (reads_optional htheme)).seq
      (reads_optional hdefinitions)).seq (reads_list (fun _ _ => exists_page) hpages)
  exact hfields.record "struct Book"

/-! ## The places of the issues -/

/-- An issue stands at or inside a member of an object, or says that a member is not there. -/
def OfMember (path : Path) (members : List (String × Json)) (i : Issue) : Prop :=
  ∃ key, i.Under (path.key key) ∨ (members.lookup key = none ∧ i = missing path key)

section Places

variable {path : Path} {key : String} {members : List (String × Json)} {i : Issue}

/-- An issue of the walk stands at its path. -/
theorem under_validating (message : String) (path : Path) : (Issue.validating message path).Under path :=
  ⟨[], by simp [Issue.validating, Issue.about]⟩

/-- An issue of a member stands under what holds the member. -/
theorem OfMember.under (h : OfMember path members i) : i.Under path := by
  obtain ⟨key, hunder | ⟨_, rfl⟩⟩ := h
  · exact hunder.ofKey
  · exact under_validating _ _

/-- The issues of a member are its own. -/
theorem ofMember_memberIssues {α : Type} {d : Decoder α} {needed : Bool}
    (h : i ∈ memberIssues d needed path key members) : OfMember path members i := by
  unfold memberIssues at h
  split at h
  · split at h
    · cases h
    · exact ⟨key, .inl (List.mem_singleton.1 h ▸ under_validating _ _)⟩
  · rename_i hlookup
    split at h
    · exact ⟨key, .inr ⟨hlookup, List.mem_singleton.1 h⟩⟩
    · cases h

/-- So are those of a list. -/
theorem ofMember_listIssues {item : Path → Json → List Issue}
    (hitem : ∀ path v, ∀ i ∈ item path v, i.Under path) (h : i ∈ listIssues item path key members) :
    OfMember path members i := by
  unfold listIssues at h
  split at h
  · obtain ⟨⟨v, n⟩, _, hv⟩ := List.mem_flatMap.1 h
    exact ⟨key, .inl (hitem _ v i hv).ofIndex⟩
  · exact ⟨key, .inl (List.mem_singleton.1 h ▸ under_validating _ _)⟩
  · rename_i hlookup
    exact ⟨key, .inr ⟨hlookup, List.mem_singleton.1 h⟩⟩

/-- The issues of a level that is an object are those of its members. -/
theorem ofMember_inspect {what : String} {own : Path → List (String × Json) → List Issue}
    (hown : ∀ path members, ∀ i ∈ own path members, OfMember path members i)
    (h : i ∈ inspect what own path (.object members)) : OfMember path members i := by
  change i ∈ levelIssues path members ++ own path members at h
  simp only [levelIssues, List.mem_append] at h
  obtain ((h | h) | h) | h := h
  · exact ofMember_memberIssues h
  · exact ofMember_memberIssues h
  · exact ofMember_memberIssues h
  · exact hown path members i h

/-- The issues of a level stand at the level or inside it. -/
theorem under_of_mem_inspect {what : String} {own : Path → List (String × Json) → List Issue}
    (hown : ∀ path members, ∀ i ∈ own path members, OfMember path members i) :
    ∀ path v, ∀ i ∈ inspect what own path v, i.Under path := by
  intro path v i h
  cases v with
  | object members => exact (ofMember_inspect hown h).under
  | _ => exact List.mem_singleton.1 h ▸ under_validating _ _

/-- The issues of a column stand under it. -/
theorem under_of_mem_columnIssues : ∀ path v, ∀ i ∈ columnIssues path v, i.Under path :=
  under_of_mem_inspect fun _ _ _ h =>
    (List.mem_append.1 h).elim ofMember_memberIssues ofMember_memberIssues

/-- The issues of a group stand under it. -/
theorem under_of_mem_groupIssues : ∀ path v, ∀ i ∈ groupIssues path v, i.Under path :=
  under_of_mem_inspect fun _ _ _ h => ofMember_listIssues under_of_mem_columnIssues h

/-- The issues of a page stand under it. -/
theorem under_of_mem_pageIssues : ∀ path v, ∀ i ∈ pageIssues path v, i.Under path :=
  under_of_mem_inspect fun _ _ _ h =>
    (List.mem_append.1 h).elim ofMember_memberIssues (ofMember_listIssues under_of_mem_groupIssues)

end Places

/-! ## No fault is left to the root -/

/-- A tree is accepted if it reads as a book of which no level is empty. -/
theorem validate_eq_ok_iff {v : Json} {b : Book} :
    validate v = .ok b ↔ decode Book v = .ok b ∧ structureIssues b = [] := by
  unfold validate
  refine ⟨fun h => ?_, fun ⟨hread, hwhole⟩ => ?_⟩
  · split at h
    · rename_i hread
      split at h
      · rename_i hwhole
        cases h
        exact ⟨hread, hwhole⟩
      · cases h
    · split at h <;> cases h
  · simp only [hread, hwhole]

/-- A tree that does not read as a book has issues by the walk over its levels, and these are what it is
rejected with. In an object each of them stands at a member or inside it, or says which one is absent. -/
theorem faults_are_found_by_the_walk {v : Json} {fault : Fault} (h : decode Book v = .error fault) :
    bookIssues v ≠ [] ∧ validate v = .error (bookIssues v) ∧
      ∀ members, v = .object members → ∀ i ∈ bookIssues v, OfMember .root members i := by
  have hissues : bookIssues v ≠ [] := by
    intro hnil
    obtain ⟨b, hb⟩ := exists_book hnil
    rw [hb] at h
    cases h
  refine ⟨hissues, ?_, ?_⟩
  · rw [validate, h]
    dsimp only
    split
    · rename_i hnil
      exact absurd hnil hissues
    · rfl
  · rintro members rfl i hi
    exact ofMember_inspect (fun _ _ _ h => ofMember_listIssues under_of_mem_pageIssues h) hi

/-- A book with a page whose rows are a text and whose groups are none. -/
def brokenBook : Json :=
  .object [("name", .text "Shop"), ("pages", .list [.object [("groups", .null), ("name", .text "Stock"),
    ("rows", .text "five")]])]

/-- The broken book is refused, and the walk finds what is wrong with it. -/
theorem faults_are_found_by_the_walk_brokenBook :
    decode Book brokenBook = .error (.wrongType .null "a sequence") ∧ bookIssues brokenBook ≠ [] ∧
      validate brokenBook = .error (bookIssues brokenBook) ∧
      ∀ members, brokenBook = .object members → ∀ i ∈ bookIssues brokenBook,
        OfMember .root members i := by
  have h : decode Book brokenBook = .error (.wrongType .null "a sequence") := by rfl
  exact ⟨h, faults_are_found_by_the_walk h⟩

end Workbook.Document
