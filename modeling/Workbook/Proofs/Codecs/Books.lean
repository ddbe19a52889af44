import Workbook.Proofs.ReadOrder
import Workbook.Proofs.SchemaFaults
import Workbook.Proofs.Codecs.DataTypes

/-!
# Books are read back

The levels of a book are records. Their definitions are maps, whose members keep the order that they had
when they were read. So the tree that is written for a book is accepted as that book, provided that the
book was accepted from some tree; a book with a reference to an empty name is not, as nothing reads as one.
-/

namespace Workbook

open Schema Channel

section Settled

variable {c : Channel}

/-- Definitions that are read are read back. -/
theorem Definitions.settled : c.Settled (decoder : Decoder Definitions) encode := by
  intro d hd
  obtain ⟨_, h₁, types, htypes, rfl⟩ := hd.record.seq
  obtain ⟨_, h₂, temporals, htemporals, rfl⟩ := h₁.seq
  obtain ⟨_, h₃, numerics, hnumerics, rfl⟩ := h₂.seq
  obtain ⟨_, h₄, themes, hthemes, rfl⟩ := h₃.seq
  obtain ⟨_, h₅, styles, hstyles, rfl⟩ := h₄.seq
  obtain ⟨colors, hcolors, rfl⟩ := h₅.map
  obtain ⟨hcolorKeys, hcolors⟩ := hcolors.defaultedDict
  obtain ⟨hstyleKeys, hstyles⟩ := hstyles.defaultedDict
  obtain ⟨hthemeKeys, hthemes⟩ := hthemes.defaultedDict
  obtain ⟨hnumericKeys, hnumerics⟩ := hnumerics.defaultedDict
  obtain ⟨htemporalKeys, htemporals⟩ := htemporals.defaultedDict
  obtain ⟨htypeKeys, htypes⟩ := htypes.defaultedDict
  exact Written.record ((((((
    (Written.defaultedDict hcolorKeys fun x hx => Color.settled_ref x.2 (hcolors x hx)).map
      Definitions.mk).seq
    (.defaultedDict hstyleKeys fun x hx => Style.settled_ref x.2 (hstyles x hx)) (by decide)).seq
    (.defaultedDict hthemeKeys fun x hx => Theme.settled_ref x.2 (hthemes x hx)) (by decide)).seq
    (.defaultedDict hnumericKeys fun x hx => NumericFormat.settled_ref x.2 (hnumerics x hx)) (by decide)).seq
    (.defaultedDict htemporalKeys fun x hx => TemporalFormat.settled_ref x.2 (htemporals x hx))
      (by decide)).seq
    (.defaultedDict htypeKeys fun x hx => DataType.settled_ref x.2 (htypes x hx)) (by decide)) rfl

/-- Columns that are read are read back. -/
theorem Column.settled : c.Settled (decoder : Decoder Column) encode := by
  intro column hcolumn
  obtain ⟨_, h₁, value, hvalue, rfl⟩ := hcolumn.record.seq
  obtain ⟨_, h₂, dataType, htype, rfl⟩ := h₁.seq
  obtain ⟨_, h₃, definitions, hdefinitions, rfl⟩ := h₂.seq
  obtain ⟨_, h₄, theme, htheme, rfl⟩ := h₃.seq
  obtain ⟨name, _, rfl⟩ := h₄.map
  exact Written.record (((((
    (Written.required (readsBack_text name)).map Column.mk).seq
    (.optional fun t ht => Theme.settled_ref t (htheme.optional t ht)) (by decide)).seq
    (.optional fun d hd => Definitions.settled d (hdefinitions.optional d hd)) (by decide)).seq
    (.required (DataType.settled_ref dataType htype.required)) (by decide)).seq
    (.optional fun e he => Expression.settled e (hvalue.optional e he)) (by decide)) rfl

/-- Groups that are read are read back. -/
theorem Group.settled : c.Settled (decoder : Decoder Group) encode := by
  intro g hg
  obtain ⟨_, h₁, columns, hcolumns, rfl⟩ := hg.record.seq
  obtain ⟨_, h₂, definitions, hdefinitions, rfl⟩ := h₁.seq
  obtain ⟨_, h₃, theme, htheme, rfl⟩ := h₂.seq
  obtain ⟨name, _, rfl⟩ := h₃.map
  have hinner : ∀ column ∈ columns, c.ReadsBack (decoder : Decoder Column) encode column :=
    fun column hcolumn => Column.settled column (hcolumns.required.list column hcolumn)
  exact Written.record ((((
    (Written.required (readsBack_text name)).map Group.mk).seq
    (.optional fun t ht => Theme.settled_ref t (htheme.optional t ht)) (by decide)).seq
    (.optional fun d hd => Definitions.settled d (hdefinitions.optional d hd)) (by decide)).seq
    (.required (ReadsBack.list hinner)) (by decide)) rfl

/-- Pages that are read are read back. -/
theorem Page.settled : c.Settled (decoder : Decoder Page) encode := by
  intro p hp
  obtain ⟨_, h₁, groups, hgroups, rfl⟩ := hp.record.seq
  obtain ⟨_, h₂, definitions, hdefinitions, rfl⟩ := h₁.seq
  obtain ⟨_, h₃, theme, htheme, rfl⟩ := h₂.seq
  obtain ⟨_, h₄, rows, _, rfl⟩ := h₃.seq
  obtain ⟨name, _, rfl⟩ := h₄.map
  have hinner : ∀ g ∈ groups, c.ReadsBack (decoder : Decoder Group) encode g :=
    fun g hg => Group.settled g (hgroups.required.list g hg)
  exact Written.record (((((
    (Written.required (readsBack_text name)).map Page.mk).seq
    (.required (readsBack_count rows)) (by decide)).seq
    (.optional fun t ht => Theme.settled_ref t (htheme.optional t ht)) (by decide)).seq
    (.optional fun d hd => Definitions.settled d (hdefinitions.optional d hd)) (by decide)).seq
    (.required (ReadsBack.list hinner)) (by decide)) rfl

/-- Books that are read are read back. -/
theorem Book.settled : c.Settled (decoder : Decoder Book) encode := by
  intro b hb
  obtain ⟨_, h₁, pages, hpages, rfl⟩ := hb.record.seq
  obtain ⟨_, h₂, definitions, hdefinitions, rfl⟩ := h₁.seq
  obtain ⟨_, h₃, theme, htheme, rfl⟩ := h₂.seq
  obtain ⟨name, _, rfl⟩ := h₃.map
  have hinner : ∀ p ∈ pages, c.ReadsBack (decoder : Decoder Page) encode p :=
    fun p hp => Page.settled p (hpages.required.list p hp)
  exact Written.record ((((
    (Written.required (readsBack_text name)).map Book.mk).seq
    (.optional fun t ht => Theme.settled_ref t (htheme.optional t ht)) (by decide)).seq
    (.optional fun d hd => Definitions.settled d (hdefinitions.optional d hd)) (by decide)).seq
    (.required (ReadsBack.list hinner)) (by decide)) rfl

end Settled

namespace Document

/-- What becomes of the tree that is written for an accepted book is accepted as this book. -/
theorem validate_carry (c : Channel) {v : Json} {b : Book} (hv : c.Source v) (h : validate v = .ok b) :
    validate (c.carry (encode b)) = .ok b := by
  obtain ⟨hread, hwhole⟩ := validate_eq_ok_iff.1 h
  exact validate_eq_ok_iff.2 ⟨(Book.settled b ⟨.plain, v, hv, hread⟩).read .plain, hwhole⟩

/-- The tree of a source text has its members in the order of their keys. -/
theorem arranged_of_parse {source : String} {v : Json} (h : Source.parse source = .ok v) : v.Arranged := by
  rw [Source.parse] at h
  cases hread : Json.read source with
  | error flaw =>
    rw [hread] at h
    cases h
  | ok tree =>
    rw [hread] at h
    cases h
    exact Json.arranged_of_read hread

/-- A tree that is accepted as a book is still accepted as this book after it has been written anew, as it
stands and, if its members are in the order of their keys, with the members of the new tree in that order. This
is how the members of every tree stand that is read from a text. -/
theorem validate_encode_of_validate {v : Json} {b : Book} (h : validate v = .ok b) :
    validate (encode b) = .ok b ∧ (v.Arranged → validate (encode b).arranged = .ok b) ∧
      ∀ source, Source.parse source = .ok v → v.Arranged :=
  ⟨validate_carry .direct trivial h, fun hv => validate_carry .inOrder hv h, fun _ => arranged_of_parse⟩

/-- The tree of a book with a color, a rule between two numbers, and a selector of a column's own cells. -/
def smallTree : Json :=
  .object [("definitions", .object [("colors", .object [("ink", .text " #10203f ")])]), ("name", .text "Shop"),
    ("pages", .list [.object [("groups", .list [.object [("columns", .list [.object
        [("name", .text "Total"),
          ("type", .object [("rule", .object [("high", .real 2.5), ("low", .integer 1), ("type", .text "between")]),
            ("type", .text "numeric")]),
          ("value", .object [("from", .object [("column", .text "self"), ("rows", .text "all")]),
            ("type", .text "selector")])]]), ("name", .text "Sales")]]),
      ("name", .text "Stock"), ("rows", .integer 5)]])]

/-- The book of this tree. -/
def smallBook : Book where
  name := "Shop"
  definitions := some { colors := [("ink", .inline ⟨0x10, 0x20, 0x3f⟩)] }
  pages := [{
    name := "Stock"
    rows := 5
    groups := [{
      name := "Sales"
      columns := [{
        name := "Total"
        dataType := .inline (.numeric { rule := some (.range .between (realOfInteger 1) 2.5) })
        value := some (.selector (.target ⟨.own, .all⟩)) }] }] }]

/-- A small book is read back from what is written for it, in either order of members. -/
theorem validate_encode_of_validate_smallTree :
    validate smallTree = .ok smallBook ∧ smallTree.Arranged ∧
      validate (encode smallBook) = .ok smallBook ∧ validate (encode smallBook).arranged = .ok smallBook := by
  have hread : validate smallTree = .ok smallBook := by rfl
  have harranged : smallTree.Arranged := by
    simp only [smallTree, Json.arranged_object_iff, Json.arranged_list_iff, List.forall_mem_cons,
      List.not_mem_nil, false_imp_iff, implies_true, Json.Arranged.text, Json.Arranged.integer,
      Json.Arranged.real, and_true, true_and]
    decide
  obtain ⟨hback, hordered, -⟩ := validate_encode_of_validate hread
  exact ⟨hread, harranged, hback, hordered harranged⟩

end Document

end Workbook
