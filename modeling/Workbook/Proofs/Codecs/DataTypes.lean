import Workbook.Schema.DataTypes
import Workbook.Proofs.Codecs.Expressions
import Workbook.Proofs.Codecs.Formats
import Workbook.Proofs.Codecs.Styles

/-!
# Rules and data types are read back

A rule over text and a data type are found by their tags. A rule over ordered values has no tag of its own:
its three readings are told apart by the words that they allow for its type.
-/

namespace Workbook

open Schema Channel

section Settled

variable {c : Channel}

/-! ## Rules -/

namespace TextRule

/-- The reader of a rule with one text reads back what such a rule is written as. -/
theorem readsBack_value {rule : String → TextRule} {name tag value : String}
    (hcase : Schema.named [(["is"], valueCase "Is" .is), (["contains"], valueCase "Contains" .contains),
      (["begins"], valueCase "Begins" .begins), (["ends"], valueCase "Ends" .ends),
      (["custom"], record "struct variant TextRule::Custom"
        (TextRule.custom <$> .required "expression" Schema.decoder))] tag = .ok (valueCase name rule))
    (he : tree (rule value) = valueTree tag value) :
    c.ReadsBack (Schema.decoder : Decoder TextRule) encode (rule value) := by
  have hfields : c.Written (rule <$> .required "value" text) (rule value) _ _ :=
    (Written.required (readsBack_text value)).map rule
  exact hfields.taggedRecord tag (by decide) hcase he

/-- Rules of texts that are read are read back. -/
theorem settled : c.Settled (Schema.decoder : Decoder TextRule) encode := by
  intro rule hrule
  obtain ⟨⟨tags, body⟩, hbody, hgiven⟩ := Gives.tagged hrule
  simp only [valueCase, List.mem_cons, Prod.mk.injEq, List.not_mem_nil, or_false] at hbody
  obtain ⟨_, rfl⟩ | ⟨_, rfl⟩ | ⟨_, rfl⟩ | ⟨_, rfl⟩ | ⟨_, rfl⟩ := hbody
  · obtain ⟨value, _, rfl⟩ := hgiven.record.map
    exact readsBack_value rfl rfl
  · obtain ⟨value, _, rfl⟩ := hgiven.record.map
    exact readsBack_value rfl rfl
  · obtain ⟨value, _, rfl⟩ := hgiven.record.map
    exact readsBack_value rfl rfl
  · obtain ⟨value, _, rfl⟩ := hgiven.record.map
    exact readsBack_value rfl rfl
  · obtain ⟨e, hexpression, rfl⟩ := hgiven.record.map
    have hfields : c.Written (TextRule.custom <$> .required "expression" Schema.decoder) (.custom e) _ _ :=
      (Written.required (Expression.settled e hexpression.required)).map TextRule.custom
    exact hfields.taggedRecord "custom" (by decide) rfl rfl

end TextRule

/-- Comparisons are read back. -/
theorem Comparison.readsBack (test : Comparison) : c.ReadsBack (decoder : Decoder Comparison) encode test :=
  readsBack_word rfl (by cases test <;> rfl)

/-- Tests of ranges are read back. -/
theorem RangeTest.readsBack (test : RangeTest) : c.ReadsBack (decoder : Decoder RangeTest) encode test :=
  readsBack_word rfl (by cases test <;> rfl)

/-- Moments are read back. -/
theorem TemporalValue.readsBack (v : TemporalValue) :
    c.ReadsBack (decoder : Decoder TemporalValue) encode v :=
  (readsBack_text v.text).map TemporalValue.mk rfl

namespace OrderedRule

variable {α : Type} [Codec α]

/-- A rule that is read with the fields of a range names a test of ranges. -/
theorem type_of_range {members : List (String × Json)} {rule : OrderedRule α}
    (h : rangeFields.named .shared members = .ok rule) :
    ∃ test, (Fields.required "type" (Schema.decoder : Decoder RangeTest)).named .shared members = .ok test := by
  obtain ⟨_, _, h₁, _, _⟩ := named_seq_eq_ok h
  obtain ⟨_, _, h₂, _, _⟩ := named_seq_eq_ok h₁
  obtain ⟨test, htest, _⟩ := named_map_eq_ok h₂
  exact ⟨test, htest⟩

/-- A rule that is read with the fields of a comparison names a comparison. -/
theorem type_of_comparison {members : List (String × Json)} {rule : OrderedRule α}
    (h : comparisonFields.named .shared members = .ok rule) :
    ∃ test, (Fields.required "type" (Schema.decoder : Decoder Comparison)).named .shared members = .ok test := by
  obtain ⟨_, _, h₁, _, _⟩ := named_seq_eq_ok h
  obtain ⟨test, htest, _⟩ := named_map_eq_ok h₁
  exact ⟨test, htest⟩

/-- Rules of ordered values that are read are read back. -/
theorem settled (hα : ∀ v : α, c.ReadsBack (Schema.decoder : Decoder α) encode v) :
    c.Settled (Schema.decoder : Decoder (OrderedRule α)) encode := by
  intro rule hrule
  obtain hrange | hrule := Gives.readings_or hrule
  · obtain ⟨_, h₁, high, _, rfl⟩ := hrange.namedRecord.seq
    obtain ⟨_, h₂, low, _, rfl⟩ := h₁.seq
    obtain ⟨test, _, rfl⟩ := h₂.map
    exact .here (Written.namedRecord ((((Written.required (RangeTest.readsBack test)).map OrderedRule.range).seq
      (.required (hα low)) (by decide)).seq (.required (hα high)) (by decide)) rfl)
  obtain hcomparison | hcustom := hrule.readings_or
  · obtain ⟨_, h₁, v, _, rfl⟩ := hcomparison.namedRecord.seq
    obtain ⟨test, _, rfl⟩ := h₁.map
    have hfields : c.Written comparisonFields (.comparison test v) _ _ :=
      ((Written.required (Comparison.readsBack test)).map OrderedRule.comparison).seq
        (.required (hα v)) (by decide)
    refine .there (.here (hfields.namedRecord rfl)) ?_
    exact hfields.apart rfl List.mem_cons_self
      (fun t ht => by cases test <;> cases ht) fun _ _ => type_of_range
  · obtain ⟨_, h₁, e, hexpression, rfl⟩ := hcustom.reading.namedRecord.seq
    obtain ⟨_, _, rfl⟩ := h₁.map
    have hword : c.ReadsBack decodeCustom (fun _ => .text customWord) () := readsBack_word rfl rfl
    have hfields : c.Written customFields (.custom e : OrderedRule α) _ _ :=
      ((Written.required hword).map fun _ e => OrderedRule.custom e).seq
        (.required (Expression.settled e hexpression.required)) (by decide)
    refine .there (.there (.here (hfields.namedRecord rfl)) ?_) ?_
    · exact hfields.apart rfl List.mem_cons_self (fun t ht => by cases ht) fun _ _ => type_of_comparison
    · exact hfields.apart rfl List.mem_cons_self (fun t ht => by cases ht) fun _ _ => type_of_range

end OrderedRule

/-! ## Data types -/

/-- Conditional styles that are read are read back if their rules are. -/
theorem ConditionalStyle.settled {ρ : Type} [Codec ρ] (hρ : c.Settled (decoder : Decoder ρ) encode) :
    c.Settled (decoder : Decoder (ConditionalStyle ρ)) encode := by
  intro s hs
  obtain ⟨_, h₁, style, hstyle, rfl⟩ := hs.record.seq
  obtain ⟨rule, hrule, rfl⟩ := h₁.map
  exact Written.record (((Written.required (hρ rule hrule.required)).map ConditionalStyle.mk).seq
    (.required (Style.settled_ref style hstyle.required)) (by decide)) rfl

/-- Members of enumerations that are read are read back. -/
theorem EnumItem.settled : c.Settled (decoder : Decoder EnumItem) encode := by
  intro item hitem
  obtain hbare | hstyled := Gives.readings_or hitem
  · obtain ⟨name, _, rfl⟩ := hbare.map
    exact .here ((readsBack_text name).map EnumItem.bare rfl)
  · obtain ⟨_, h₁, style, hstyle, rfl⟩ := hstyled.reading.namedRecord.seq
    obtain ⟨name, _, rfl⟩ := h₁.map
    have hback : c.ReadsBack (namedRecord "struct variant EnumItem::Styled" EnumItem.fields) EnumItem.tree
        (.styled name style) :=
      Written.namedRecord (((Written.required (readsBack_text name)).map EnumItem.styled).seq
        (.optional fun s hs => Style.settled_ref s (hstyle.optional s hs)) (by decide)) rfl
    refine .there (.here hback) (hback.apart fun v b hb hread => ?_)
    cases v <;> first | (cases hb; done) | cases hread

/-- References to numeric formats that are read are read back. -/
theorem NumericFormat.settled_ref : c.Settled (decoder : Decoder (Ref NumericFormat)) encode :=
  Ref.settled (fun format _ => NumericFormat.readsBack format) Ref.namesApart_record

/-- References to temporal formats that are read are read back. -/
theorem TemporalFormat.settled_ref : c.Settled (decoder : Decoder (Ref TemporalFormat)) encode :=
  Ref.settled (fun format _ => TemporalFormat.readsBack format) Ref.namesApart_list

/-- The fields of a type of texts are read back from its members. -/
theorem TextType.written {t : TextType} (h : c.GivesFields TextType.fields t) :
    c.Written TextType.fields t ["rule", "styles"] t.members := by
  obtain ⟨_, h₁, styles, hstyles, rfl⟩ := h.seq
  obtain ⟨rule, hrule, rfl⟩ := h₁.map
  exact ((Written.optional fun r hr => TextRule.settled r (hrule.optional r hr)).map TextType.mk).seq
    (.defaultedList fun s hs => ConditionalStyle.settled TextRule.settled s (hstyles.defaultedList s hs))
    (by decide)

/-- The fields of an enumeration are read back from its members. -/
theorem EnumType.written {t : EnumType} (h : c.GivesFields EnumType.fields t) :
    c.Written EnumType.fields t ["values"] t.members := by
  obtain ⟨values, hvalues, rfl⟩ := h.map
  exact (Written.required (ReadsBack.list fun item hitem =>
    EnumItem.settled item (hvalues.required.list item hitem))).map EnumType.mk

/-- The fields of a lookup are read back from its members. -/
theorem LookupType.written {t : LookupType} (h : c.GivesFields LookupType.fields t) :
    c.Written LookupType.fields t ["values", "styles"] t.members := by
  obtain ⟨_, h₁, styles, hstyles, rfl⟩ := h.seq
  obtain ⟨values, _, rfl⟩ := h₁.map
  exact ((Written.required (ColumnSelector.readsBack values)).map LookupType.mk).seq
    (.defaultedList fun s hs => ConditionalStyle.settled TextRule.settled s (hstyles.defaultedList s hs))
    (by decide)

/-- The fields of a type of numbers are read back from its members. -/
theorem NumericType.written {t : NumericType} (h : c.GivesFields NumericType.fields t) :
    c.Written NumericType.fields t ["rule", "styles", "format"] t.members := by
  have hrules : c.Settled (decoder : Decoder (OrderedRule Float)) encode :=
    OrderedRule.settled fun x => readsBack_real x
  obtain ⟨_, h₁, format, hformat, rfl⟩ := h.seq
  obtain ⟨_, h₂, styles, hstyles, rfl⟩ := h₁.seq
  obtain ⟨rule, hrule, rfl⟩ := h₂.map
  exact (((Written.optional fun r hr => hrules r (hrule.optional r hr)).map NumericType.mk).seq
    (.defaultedList fun s hs => ConditionalStyle.settled hrules s (hstyles.defaultedList s hs))
    (by decide)).seq (.optional fun f hf => NumericFormat.settled_ref f (hformat.optional f hf)) (by decide)

/-- The fields of a type of moments are read back from its members. -/
theorem TemporalType.written {t : TemporalType} (h : c.GivesFields TemporalType.fields t) :
    c.Written TemporalType.fields t ["rule", "styles", "format"] t.members := by
  have hrules : c.Settled (decoder : Decoder (OrderedRule TemporalValue)) encode :=
    OrderedRule.settled fun v => TemporalValue.readsBack v
  obtain ⟨_, h₁, format, hformat, rfl⟩ := h.seq
  obtain ⟨_, h₂, styles, hstyles, rfl⟩ := h₁.seq
  obtain ⟨rule, hrule, rfl⟩ := h₂.map
  exact (((Written.optional fun r hr => hrules r (hrule.optional r hr)).map TemporalType.mk).seq
    (.defaultedList fun s hs => ConditionalStyle.settled hrules s (hstyles.defaultedList s hs))
    (by decide)).seq (.optional fun f hf => TemporalFormat.settled_ref f (hformat.optional f hf)) (by decide)

/-- Data types that are read are read back. -/
theorem DataType.settled : c.Settled (Schema.decoder : Decoder DataType) encode := by
  intro t ht
  obtain ⟨⟨tags, body⟩, hbody, hgiven⟩ := Gives.tagged ht
  simp only [List.mem_cons, Prod.mk.injEq, List.not_mem_nil, or_false] at hbody
  obtain ⟨_, rfl⟩ | ⟨_, rfl⟩ | ⟨_, rfl⟩ | ⟨_, rfl⟩ | ⟨_, rfl⟩ := hbody
  · obtain ⟨t, hrecord, rfl⟩ := hgiven.map
    exact (TextType.written hrecord.record).taggedMap "text" (by decide) rfl rfl
  · obtain ⟨t, hrecord, rfl⟩ := hgiven.map
    exact (EnumType.written hrecord.record).taggedMap "enum" (by decide) rfl rfl
  · obtain ⟨t, hrecord, rfl⟩ := hgiven.map
    exact (LookupType.written hrecord.record).taggedMap "lookup" (by decide) rfl rfl
  · obtain ⟨t, hrecord, rfl⟩ := hgiven.map
    exact (NumericType.written hrecord.record).taggedMap "numeric" (by decide) rfl rfl
  · obtain ⟨t, hrecord, rfl⟩ := hgiven.map
    exact (TemporalType.written hrecord.record).taggedMap "temporal" (by decide) rfl rfl

/-- References to data types that are read are read back. -/
theorem DataType.settled_ref : c.Settled (Schema.decoder : Decoder (Ref DataType)) encode :=
  Ref.settled DataType.settled Ref.namesApart_tagged

end Settled

end Workbook
