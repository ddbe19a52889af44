import Workbook.Schema.SheetBooks
import Workbook.Proofs.Codecs.Laws
import Workbook.Proofs.ColorTexts

/-!
# Colors, styles and themes are read back

A reference is tried before the value it may stand for, so a value is read back only because no reader of
values takes the text of a name. A color is written in its one form. A theme holds the themes that it
inherits, and the reader goes deep enough for them because it goes as deep as the tree.
-/

namespace Workbook

open Schema Channel

/-! ## Colors -/

namespace Color

/-- Colors are read back. -/
theorem readsBack {c : Channel} (color : Color) : c.ReadsBack (Schema.decoder : Decoder Color) encode color where
  read h := by
    have htext : c.carry (encode color) = .text color.text := c.carry_text color.text
    rw [htext]
    exact decoder_eq_ok_iff.2 ⟨_, rfl, color.writtenIn_text⟩
  ne_null := by
    have htext : c.carry (encode color) = .text color.text := c.carry_text color.text
    rw [htext]
    exact Json.noConfusion

end Color

/-! ## References -/

namespace Ref

/-- A name that is found in a text is found in the text of the name. -/
theorem nameIn?_textOf {s name : String} (h : nameIn? s = some name) : nameIn? (textOf name) = some name := by
  unfold nameIn? at h
  split at h
  · rename_i c cs hs
    cases h
    simp [nameIn?, textOf]
  · cases h

/-- What is read as a name is a text with the name in it. -/
theorem decodeName_eq_ok {h : Holding} {v : Json} {name : String} (hread : decodeName h v = .ok name) :
    ∃ s, v = .text s ∧ nameIn? s = some name := by
  unfold decodeName at hread
  obtain ⟨s, hs, hname⟩ := bind_eq_ok hread
  cases v with
  | text t =>
    cases hs
    clear hread
    split at hname
    · rename_i found hfound
      cases hname
      exact ⟨s, rfl, hfound⟩
    · cases hname
  | _ => cases hs

variable {c : Channel} {α : Type} {d : Decoder α} {e : α → Json}

/-- The text of a name is not read as a value. -/
def NamesApart (d : Decoder α) : Prop :=
  ∀ s name, nameIn? s = some name → ∀ h a, d h (.text s) ≠ .ok a

/-- No record is read from the text of a name. -/
theorem namesApart_record {title : String} {fields : Fields α} : NamesApart (record title fields) := by
  intro s name _ h a hread
  cases hread

/-- No list is read from the text of a name. -/
theorem namesApart_list : NamesApart (list d) := by
  intro s name _ h a hread
  cases hread

/-- No tagged case is read from the text of a name. -/
theorem namesApart_tagged {family : String} {cases : List (List String × Decoder α)} :
    NamesApart (tagged family cases) := by
  intro s name _ h a hread
  cases hread

/-- A reference that was read is read back if its value is, and no name is read as a value. The value may
have been read by a reader that goes less deep. -/
theorem readsBack {d' : Decoder α} {r : Ref α} (hr : c.Gives (decodeWith d) r)
    (hvalue : ∀ a, r = .inline a → c.Gives d a → c.ReadsBack d' e a) (hnames : NamesApart d') :
    c.ReadsBack (decodeWith d') (encodeWith e) r := by
  obtain hname | ⟨v, hv, _, hread⟩ := Gives.readings hr
  · obtain ⟨name, hgiven, rfl⟩ := hname.map
    obtain ⟨_, _, _, hread⟩ := hgiven
    obtain ⟨s, _, hs⟩ := decodeName_eq_ok hread
    have hread : c.ReadsBack decodeName encodeName name := by
      refine ⟨fun h => ?_, ?_⟩
      · rw [encodeName, c.carry_text]
        simp only [decodeName, Schema.text, bind, Except.bind, nameIn?_textOf hs]
      · rw [encodeName, c.carry_text]
        exact Json.noConfusion
    exact .here (hread.map (Ref.named : String → Ref α) rfl)
  · have hvalueRead : c.Gives (d.map Ref.inline) r := Gives.reading ⟨.plain, v, hv, hread .plain⟩
    obtain ⟨a, ha, rfl⟩ := hvalueRead.map
    have hback : c.ReadsBack d' e a := hvalue a rfl ha
    refine .there (.here (hback.map Ref.inline rfl)) fun b hb => ?_
    -- a value that is written as the text of a name would be read as that
    cases hname : decodeName .shared (c.carry (e a)) with
    | error fault =>
      change (decodeName .shared (c.carry (e a))).map Ref.named = _ at hb
      rw [hname] at hb
      cases hb
    | ok name =>
      obtain ⟨s, hs, hin⟩ := decodeName_eq_ok hname
      have htaken := hback.read .plain
      rw [hs] at htaken
      exact hnames s name hin .plain a htaken

/-- References are read back if their values are, and if no value is read from the text of a name. -/
theorem settled (hvalue : c.Settled d e) (hnames : NamesApart d) :
    c.Settled (decodeWith d) (encodeWith e) :=
  fun _ hr => readsBack hr (fun a _ ha => hvalue a ha) hnames

end Ref

/-! ## Borders and styles -/

section Settled

variable {c : Channel}

/-- Styles of borders are read back. -/
theorem BorderStyle.readsBack (style : BorderStyle) :
    c.ReadsBack (Schema.decoder : Decoder BorderStyle) encode style :=
  readsBack_word rfl (by cases style <;> rfl)

/-- No color is read from the text of a name. -/
theorem Color.namesApart : Ref.NamesApart (Schema.decoder : Decoder Color) := by
  intro s name hname h a hread
  unfold Ref.nameIn? at hname
  split at hname
  · rename_i c cs hs
    -- the mark of a name is no blank, so it would be that of a color
    obtain ⟨s, hs', digits, -, inside, -⟩ := Color.decoder_eq_ok_iff.1 hread
    cases hs'
    have hmark := inside.head_eq (by decide : Text.isBlank '@' = false) hs
    cases hmark
  · cases hname

/-- References to colors that are read are read back. -/
theorem Color.settled_ref : c.Settled (Schema.decoder : Decoder (Ref Color)) encode :=
  Ref.settled (fun color _ => Color.readsBack color) Color.namesApart

/-- Borders that are read are read back. -/
theorem Border.settled : c.Settled (Schema.decoder : Decoder Border) encode := by
  intro b hb
  obtain ⟨_, h₁, color, hcolor, rfl⟩ := hb.record.seq
  obtain ⟨style, _, rfl⟩ := h₁.map
  exact Written.record (((Written.required (BorderStyle.readsBack style)).map Border.mk).seq
    (.optional fun r hr => Color.settled_ref r (hcolor.optional r hr)) (by decide)) rfl

/-- Styles that are read are read back. -/
theorem Style.settled : c.Settled (Schema.decoder : Decoder Style) encode := by
  intro s hs
  obtain ⟨_, h₁, between, hbetween, rfl⟩ := hs.record.seq
  obtain ⟨_, h₂, beneath, hbeneath, rfl⟩ := h₁.seq
  obtain ⟨_, h₃, italic, _, rfl⟩ := h₂.seq
  obtain ⟨_, h₄, bold, _, rfl⟩ := h₃.seq
  obtain ⟨_, h₅, back, hback, rfl⟩ := h₄.seq
  obtain ⟨fore, hfore, rfl⟩ := h₅.map
  exact Written.record ((((((
    (Written.optional fun r hr => Color.settled_ref r (hfore.optional r hr)).map Style.mk).seq
    (.optional fun r hr => Color.settled_ref r (hback.optional r hr)) (by decide)).seq
    (.optional fun b _ => readsBack_boolean b) (by decide)).seq
    (.optional fun b _ => readsBack_boolean b) (by decide)).seq
    (.optional fun b hb => Border.settled b (hbeneath.optional b hb)) (by decide)).seq
    (.optional fun b hb => Border.settled b (hbetween.optional b hb)) (by decide)) rfl

/-- References to styles that are read are read back. -/
theorem Style.settled_ref : c.Settled (Schema.decoder : Decoder (Ref Style)) encode :=
  Ref.settled Style.settled Ref.namesApart_record

/-! ## Themes -/

namespace Theme

/-- The tree of a reference to a theme is that of any reference. -/
theorem treeOfRef_eq (t : Ref Theme) : treeOfRef t = Ref.encodeWith tree t := by
  cases t <;> rw [treeOfRef] <;> rfl

/-- The trees of inherited themes are written one by one. -/
theorem treeOfList_eq (ts : List (Ref Theme)) : treeOfList ts = ts.map (Ref.encodeWith tree) := by
  induction ts with
  | nil => rfl
  | cons t rest ih => rw [treeOfList, treeOfRef_eq, ih, List.map_cons]

/-- The members that are written for a theme. -/
def members (t : Theme) : List (String × Json) :=
  memberList "inherits" (Ref.encodeWith tree) t.inherits ++ memberIf "tab" encode t.tab ++
    memberIf "group" encode t.group ++ memberIf "header" encode t.header ++ memberIf "data" encode t.data

/-- The tree of a theme holds the members of the theme. -/
theorem tree_eq (t : Theme) : tree t = .object t.members := by
  obtain ⟨inherits, tab, group, header, data⟩ := t
  rw [tree, treeOfList_eq]
  cases inherits <;> rfl

/-- An inherited theme is nested less deeply than the theme. -/
theorem depth_inherited (c : Channel) {t inherited : Theme} (h : .inline inherited ∈ t.inherits) :
    (c.carry (tree inherited)).depth < (c.carry (tree t)).depth := by
  have hkeys : (t.members.map Prod.fst).Sublist ["inherits", "tab", "group", "header", "data"] := by
    simp only [members, List.map_append]
    exact ((((keys_memberList _ _ _).append (keys_memberIf _ _ _)).append (keys_memberIf _ _ _)).append
      (keys_memberIf _ _ _)).append (keys_memberIf _ _ _)
  have hlist : ("inherits", .list (t.inherits.map (Ref.encodeWith tree))) ∈ t.members := by
    have hmember : ("inherits", .list (t.inherits.map (Ref.encodeWith tree))) ∈
        memberList "inherits" (Ref.encodeWith tree) t.inherits := by
      cases hinherits : t.inherits with
      | nil =>
        rw [hinherits] at h
        cases h
      | cons r rest => exact List.mem_singleton_self _
    simp only [members, List.mem_append]
    exact .inl (.inl (.inl (.inl hmember)))
  have hitem : tree inherited ∈ t.inherits.map (Ref.encodeWith tree) := List.mem_map_of_mem h
  rw [tree_eq t]
  exact Nat.lt_trans (depth_item c hitem) (depth_member c (hkeys.nodup (by decide)) hlist)

/-- A theme that a reader of some depth has read is read back by a reader that is deep enough for it. -/
theorem readsBack_upTo (n : Nat) {t : Theme}
    (h : c.Gives (nestedUpTo (fun inherited => record "struct Theme" (fields inherited)) n) t) :
    ∀ m, (c.carry (tree t)).depth < m →
      c.ReadsBack (nestedUpTo (fun inherited => record "struct Theme" (fields inherited)) m) tree t := by
  induction n generalizing t with
  | zero =>
    obtain ⟨_, _, _, hread⟩ := h
    cases hread
  | succ n ih =>
    intro m hm
    obtain ⟨m, rfl⟩ := Nat.exists_eq_add_one_of_ne_zero (Nat.ne_zero_of_lt hm)
    obtain ⟨_, h₁, data, hdata, rfl⟩ := Gives.record h |>.seq
    obtain ⟨_, h₂, header, hheader, rfl⟩ := h₁.seq
    obtain ⟨_, h₃, group, hgroup, rfl⟩ := h₂.seq
    obtain ⟨_, h₄, tab, htab, rfl⟩ := h₃.seq
    obtain ⟨inherits, hinherits, rfl⟩ := h₄.map
    have hinner : ∀ r ∈ inherits, c.ReadsBack (Ref.decodeWith (nestedUpTo (fun inherited =>
        record "struct Theme" (fields inherited)) m)) (Ref.encodeWith tree) r := by
      intro r hr
      refine Ref.readsBack (hinherits.defaultedList r hr) ?_ ?_
      · rintro inherited rfl hgiven
        have hdepth := depth_inherited c (t := ⟨inherits, tab, group, header, data⟩) hr
        exact ih hgiven m (by omega)
      · cases m with
        | zero =>
          intro s name _ h a hread
          cases hread
        | succ m => exact Ref.namesApart_record
    exact Written.record (((((
      (Written.defaultedList hinner).map Theme.mk).seq
      (.optional fun r hr => Color.settled_ref r (htab.optional r hr)) (by decide)).seq
      (.optional fun r hr => Style.settled_ref r (hgroup.optional r hr)) (by decide)).seq
      (.optional fun r hr => Style.settled_ref r (hheader.optional r hr)) (by decide)).seq
      (.optional fun r hr => Style.settled_ref r (hdata.optional r hr)) (by decide)) (tree_eq _)

/-- Themes that are read are read back. -/
theorem settled : c.Settled (Schema.decoder : Decoder Theme) encode := by
  intro t ht
  change c.Gives (nested fun inherited => record "struct Theme" (fields inherited)) t at ht
  obtain ⟨n, hn⟩ := ht.nested
  exact readsBack_nested (readsBack_upTo n hn)

/-- References to themes that are read are read back. -/
theorem settled_ref : c.Settled (Schema.decoder : Decoder (Ref Theme)) encode :=
  Ref.settled settled fun s name _ h a hread => by cases hread

end Theme

end Settled

end Workbook
