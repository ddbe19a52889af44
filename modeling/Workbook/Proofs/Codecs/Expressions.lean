import Workbook.Schema.Expressions
import Workbook.Proofs.Codecs.Laws

/-!
# Selectors and expressions are read back

The words `self` and `all` are tried before anything that they may stand for. So row units that are one of
these words would not be read back, but the reader never takes such a text for row units. Records are told
from words by the keys they have. An expression is read back by a reader that goes as deep as its tree.
-/

namespace Workbook

open Schema Channel

section Settled

variable {c : Channel}

/-! ## Columns -/

/-- Names of columns are read back. -/
theorem ColumnSelector.readsBack (s : ColumnSelector) :
    c.ReadsBack (decoder : Decoder ColumnSelector) encode s :=
  Written.record ((((Written.optional fun page _ => readsBack_text page).map ColumnSelector.mk).seq
    (.optional fun group _ => readsBack_text group) (by decide)).seq
    (.required (readsBack_text s.column)) (by decide)) rfl

/-- What is read as the word `self` is the word, or an object with the word for its one key. -/
theorem decodeOwn_eq_ok {h : Holding} {v : Json} {u : Unit} (hread : decodeOwn h v = .ok u) :
    v = .text ownWord ∨ ∃ x, v = .object [(ownWord, x)] := by
  obtain ⟨w, hnamed, hv⟩ := word_eq_ok hread
  obtain ⟨x, hx, hw, _⟩ := exists_of_named hnamed
  obtain rfl := List.mem_singleton.1 hx
  obtain rfl := List.mem_singleton.1 hw
  exact hv

/-- So it is not read by a reader of records that have other keys. -/
theorem Schema.Channel.ReadsBack.apart_own {α β : Type} {d : Decoder α} {e : α → Json} {a : α} {f : Unit → β}
    (h : c.ReadsBack d e a) (htext : d .plain (.text ownWord) ≠ .ok a)
    (hobject : ∀ x, d .plain (.object [(ownWord, x)]) ≠ .ok a) (b : β) :
    (decodeOwn.map f) .shared (c.carry (e a)) ≠ .ok b := by
  refine h.apart (fun v b hb hread => ?_) b
  obtain ⟨u, hown, _⟩ := map_eq_ok hb
  obtain rfl | ⟨x, rfl⟩ := decodeOwn_eq_ok hown
  · exact htext hread
  · exact hobject x hread

/-- A value that is written as the own one is read back. -/
theorem readsBack_own {α : Type} {e : α → Json} {a : α} (he : e a = .text ownWord) :
    c.ReadsBack (decodeOwn.map fun _ => a) e a := by
  have hword : c.ReadsBack decodeOwn (fun _ => .text ownWord) () := readsBack_word rfl rfl
  exact hword.map (fun _ => a) he

/-- Columns that are selected are read back. -/
theorem ColumnTarget.readsBack (t : ColumnTarget) : c.ReadsBack (decoder : Decoder ColumnTarget) encode t := by
  cases t with
  | own => exact .here (readsBack_own rfl)
  | column s =>
    have hcolumn := ColumnSelector.readsBack (c := c) s
    refine .there (.here (hcolumn.map ColumnTarget.column rfl)) (hcolumn.apart_own ?_ fun x => ?_)
    · exact fun hread => by cases hread
    · exact fun hread => by cases hread

/-! ## Rows -/

/-- Rows that are counted are read back. -/
theorem RowUnits.readsBack (u : RowUnits) : c.ReadsBack (decoder : Decoder RowUnits) encode u := by
  cases u with
  | single u => exact .here ((readsBack_text u).map RowUnits.single rfl)
  | range a b =>
    have hrange : c.ReadsBack (namedRecord "struct variant RowSelector::Range" RowUnits.rangeFields)
        RowUnits.tree (.range a b) :=
      Written.namedRecord (((Written.required (readsBack_text a)).map RowUnits.range).seq
        (.required (readsBack_text b)) (by decide)) rfl
    refine .there (.here hrange) (hrange.apart fun v b hb hread => ?_)
    cases v <;> first | (cases hb; done) | cases hread

/-- Only a text is read as a single unit. -/
theorem RowUnits.eq_text_of_single {h : Holding} {v : Json} {s : String} (hv : c.Source v)
    (hread : (decoder : Decoder RowUnits) h v = .ok (.single s)) : v = .text s := by
  cases v with
  | text r =>
    cases hread
    rfl
  | object members =>
    have hrange : c.Gives (namedRecord "struct variant RowSelector::Range" RowUnits.rangeFields) (.single s) :=
      ⟨.shared, _, hv, of_reading (readings_of_error rfl hread)⟩
    obtain ⟨_, h₁, _, _, heq⟩ := hrange.namedRecord.seq
    obtain ⟨_, _, rfl⟩ := h₁.map
    cases heq
  | _ => cases hread

namespace RowTarget

/-- The own row is read back. -/
theorem readsBack_own : c.ReadsBack (Schema.decoder : Decoder RowTarget) encode .own :=
  .here (readsBack_word rfl rfl)

/-- The choice of all rows is read back. -/
theorem readsBack_all : c.ReadsBack (Schema.decoder : Decoder RowTarget) encode .all :=
  .here (readsBack_word rfl rfl)

/-- The words for rows. -/
theorem eq_of_named {w : String} {t : RowTarget} (h : Schema.named words w = .ok t) :
    (w = ownWord ∧ t = .own) ∨ (w = "all" ∧ t = .all) := by
  obtain ⟨x, hx, hw, rfl⟩ := exists_of_named h
  obtain rfl | hx := List.mem_cons.1 hx
  · exact .inl ⟨List.mem_singleton.1 hw, rfl⟩
  · obtain rfl := List.mem_singleton.1 hx
    exact .inr ⟨List.mem_singleton.1 hw, rfl⟩

/-- Row units are read back unless they are one of the words for rows. -/
theorem readsBack_units {u : RowUnits} (h : ∀ s, u = .single s → ∀ t, Schema.named words s ≠ .ok t) :
    c.ReadsBack (Schema.decoder : Decoder RowTarget) encode (.units u) := by
  have hunits := RowUnits.readsBack (c := c) u
  refine .there (.here (hunits.map RowTarget.units rfl)) (hunits.apart fun v t ht hread => ?_)
  obtain ⟨w, hnamed, rfl | ⟨x, rfl⟩⟩ := word_eq_ok ht
  · have hunit : Except.ok (RowUnits.single w) = (Except.ok u : Except Fault RowUnits) := hread
    exact h w (Except.ok.inj hunit).symm t hnamed
  · -- an object with a word for its one key has not the keys of a range
    obtain ⟨rfl, _⟩ | ⟨rfl, _⟩ := eq_of_named hnamed
    · cases hread
    · cases hread

/-- Choices of rows that are read are read back. -/
theorem settled : c.Settled (Schema.decoder : Decoder RowTarget) encode := by
  intro t ht
  obtain ⟨_, _, _, hword⟩ | ⟨v, hv, hword, hread⟩ := Gives.readings ht
  · obtain ⟨w, hnamed, _⟩ := word_eq_ok hword
    obtain ⟨_, rfl⟩ | ⟨_, rfl⟩ := eq_of_named hnamed
    · exact readsBack_own
    · exact readsBack_all
  · obtain ⟨u, hu, rfl⟩ := map_eq_ok (of_reading (hread .plain))
    refine readsBack_units fun s hs t hnamed => ?_
    subst hs
    -- the word would have been found by the reading before
    obtain rfl := RowUnits.eq_text_of_single hv hu
    exact hword t hnamed

end RowTarget

/-! ## Selectors -/

/-- Selected cells that are read are read back. -/
theorem TargetSelector.settled : c.Settled (decoder : Decoder TargetSelector) encode := by
  intro s hs
  obtain ⟨_, h₁, rows, hrows, rfl⟩ := hs.record.seq
  obtain ⟨column, _, rfl⟩ := h₁.map
  exact Written.record (((Written.required (ColumnTarget.readsBack column)).map TargetSelector.mk).seq
    (.required (RowTarget.settled rows hrows.required)) (by decide)) rfl

/-- Selectors that are read are read back. -/
theorem Selector.settled : c.Settled (decoder : Decoder Selector) encode := by
  intro s hs
  obtain hown | htarget := Gives.readings_or hs
  · obtain ⟨_, _, rfl⟩ := hown.map
    exact .here (readsBack_own rfl)
  · obtain ⟨cells, hcells, rfl⟩ := htarget.reading.map
    have hback := TargetSelector.settled cells hcells
    refine .there (.here (hback.map Selector.target rfl)) (hback.apart_own ?_ fun x => ?_)
    · exact fun hread => by cases hread
    · exact fun hread => by cases hread

/-! ## Expressions -/

/-- Operators are read back. -/
theorem Operator.readsBack (o : Operator) : c.ReadsBack (decoder : Decoder Operator) encode o :=
  readsBack_word rfl (by cases o <;> rfl)

namespace Expression

/-- The trees of expressions are written one by one. -/
theorem treeOfList_eq (es : List Expression) : treeOfList es = es.map tree := by
  induction es with
  | nil => rfl
  | cons e rest ih => rw [treeOfList, ih, List.map_cons]

/-- The reader of expressions whose parts are read by a given reader. -/
def level (inner : Decoder Expression) : Decoder Expression :=
  readings "ExpressionRepr"
    [Schema.boolean.map .boolean, Schema.real.map .number, Schema.text.map .text, tagged "Node" (nodes inner)]

/-- Nodes are objects, so no scalar is read before them. -/
theorem readsBack_node {inner : Decoder Expression} {e : Expression}
    (h : c.ReadsBack (tagged "Node" (nodes inner)) tree e) : c.ReadsBack (level inner) tree e := by
  refine .there (.there (.there (.here h) ?_) ?_) ?_
  · exact h.apart fun v b hb hread => by cases v <;> first | (cases hb; done) | cases hread
  · exact h.apart fun v b hb hread => by cases v <;> first | (cases hb; done) | cases hread
  · exact h.apart fun v b hb hread => by cases v <;> first | (cases hb; done) | cases hread

/-- Constants are read back at every level of nesting. -/
theorem readsBack_scalar (inner : Decoder Expression) :
    (∀ b, c.ReadsBack (level inner) tree (.boolean b)) ∧ (∀ x, c.ReadsBack (level inner) tree (.number x)) ∧
      ∀ s, c.ReadsBack (level inner) tree (.text s) := by
  refine ⟨fun b => .here ((readsBack_boolean b).map Expression.boolean (by rw [tree])), fun x => ?_,
    fun s => ?_⟩
  · have hreal := readsBack_real (c := c) x
    refine .there (.here (hreal.map Expression.number (by rw [tree]))) ?_
    rw [tree]
    exact hreal.apart fun v b hb hread => by cases v <;> first | (cases hb; done) | cases hread
  · have htext := readsBack_text (c := c) s
    refine .there (.there (.here (htext.map Expression.text (by rw [tree]))) ?_) ?_
    · rw [tree]
      exact htext.apart fun v b hb hread => by cases v <;> first | (cases hb; done) | cases hread
    · rw [tree]
      exact htext.apart fun v b hb hread => by cases v <;> first | (cases hb; done) | cases hread

/-! ### Nodes -/

section Nodes

variable {inner : Decoder Expression}

/-- Compounds are read back if their items are. -/
theorem readsBack_compound {items : List Expression} (h : ∀ e ∈ items, c.ReadsBack inner tree e) (o : Operator) :
    c.ReadsBack (tagged "Node" (nodes inner)) tree (.compound o items) := by
  have hfields : c.Written (Expression.compound <$> .required "with" Schema.decoder
      <*> .required "items" (list inner)) (.compound o items) _ _ :=
    ((Written.required (Operator.readsBack o)).map Expression.compound).seq
      (.required (ReadsBack.list h)) (by decide)
  refine hfields.taggedRecord "compound" (by decide) rfl ?_
  rw [tree, node, treeOfList_eq]

/-- Negations are read back if their items are. -/
theorem readsBack_negated {item : Expression} (h : c.ReadsBack inner tree item) :
    c.ReadsBack (tagged "Node" (nodes inner)) tree (.negated item) := by
  have hfields : c.Written (Expression.negated <$> .required "item" inner) (.negated item) _ _ :=
    (Written.required h).map Expression.negated
  refine hfields.taggedRecord "negated" (by decide) rfl ?_
  rw [tree, node]

/-- Calls of functions are read back if their items are. -/
theorem readsBack_function {items : List Expression} (h : ∀ e ∈ items, c.ReadsBack inner tree e)
    (name : String) : c.ReadsBack (tagged "Node" (nodes inner)) tree (.function name items) := by
  have hfields : c.Written (Expression.function <$> .required "name" Schema.text
      <*> .defaulted "items" (list inner) []) (.function name items) _ _ :=
    ((Written.required (readsBack_text name)).map Expression.function).seq
      (.defaulted (ReadsBack.list h)) (by decide)
  refine hfields.taggedRecord "function" (by decide) rfl ?_
  rw [tree, node, treeOfList_eq]

/-- Expressions that are selectors are read back if the selectors are. -/
theorem readsBack_selector {s : Selector} (h : c.ReadsBack Schema.decoder encode s) :
    c.ReadsBack (tagged "Node" (nodes inner)) tree (.selector s) := by
  have hfields : c.Written (Expression.selector <$> .required "from" Schema.decoder) (.selector s) _ _ :=
    (Written.required h).map Expression.selector
  refine hfields.taggedRecord "selector" (by decide) rfl ?_
  rw [tree, node]

/-- Templates are read back if their selectors are. -/
theorem readsBack_template {vars : List (String × Selector)} (hkeys : c.DictKeys vars)
    (h : ∀ x ∈ vars, c.ReadsBack Schema.decoder encode x.2) (s : String) :
    c.ReadsBack (tagged "Node" (nodes inner)) tree (.template s vars) := by
  have hfields : c.Written (Expression.template <$> .required "text" Schema.text
      <*> .defaulted "vars" (dict Schema.decoder) []) (.template s vars) _ _ :=
    ((Written.required (readsBack_text s)).map Expression.template).seq
      (.defaulted (ReadsBack.dict hkeys h)) (by decide)
  refine hfields.taggedRecord "template" (by decide) rfl ?_
  rw [tree, node]

end Nodes

/-! ### Depth -/

/-- An item of a list member of a node is nested less deeply than the node. -/
theorem depth_item (c : Channel) {items : List Expression} {e : Expression} (h : e ∈ items) {key : String}
    {members : List (String × Json)} (hmember : (key, .list (treeOfList items)) ∈ members)
    (hnodup : (members.map Prod.fst).Nodup) :
    (c.carry (tree e)).depth < (c.carry (.object members)).depth := by
  rw [treeOfList_eq] at hmember
  have hitem : tree e ∈ items.map tree := List.mem_map_of_mem h
  exact Nat.lt_trans (Channel.depth_item c hitem) (depth_member c hnodup hmember)

/-- An item of a compound is written less deep than the compound. -/
theorem depth_compound (c : Channel) {o : Operator} {items : List Expression} {e : Expression} (h : e ∈ items) :
    (c.carry (tree e)).depth < (c.carry (tree (.compound o items))).depth := by
  have hmember : ("items", Json.list (treeOfList items)) ∈ member tagKey (.text "compound") ++
      (member "with" (encode o) ++ member "items" (.list (treeOfList items))) := by simp [member]
  rw [tree]
  exact depth_item c h hmember (by decide : ["type", "with", "items"].Nodup)

/-- What is negated is written less deep than the negation. -/
theorem depth_negated (c : Channel) (item : Expression) :
    (c.carry (tree item)).depth < (c.carry (tree (.negated item))).depth := by
  have hmember : ("item", tree item) ∈ member tagKey (.text "negated") ++ member "item" (tree item) := by
    simp [member]
  rw [tree]
  exact depth_member c (by decide : ["type", "item"].Nodup) hmember

/-- An item of a call is written less deep than the call. -/
theorem depth_function (c : Channel) {name : String} {items : List Expression} {e : Expression} (h : e ∈ items) :
    (c.carry (tree e)).depth < (c.carry (tree (.function name items))).depth := by
  have hmember : ("items", Json.list (treeOfList items)) ∈ member tagKey (.text "function") ++
      (member "name" (.text name) ++ member "items" (.list (treeOfList items))) := by simp [member]
  rw [tree]
  exact depth_item c h hmember (by decide : ["type", "name", "items"].Nodup)

/-- An expression that a reader of some depth has read is read back by a reader that is deep enough. -/
theorem readsBack_upTo (n : Nat) {e : Expression} (h : c.Gives (nestedUpTo level n) e) :
    ∀ m, (c.carry (tree e)).depth < m → c.ReadsBack (nestedUpTo level m) tree e := by
  induction n generalizing e with
  | zero =>
    obtain ⟨_, _, _, hread⟩ := h
    cases hread
  | succ n ih =>
    intro m hm
    obtain ⟨m, rfl⟩ := Nat.exists_eq_add_one_of_ne_zero (Nat.ne_zero_of_lt hm)
    obtain ⟨hboolean, hnumber, htext⟩ := readsBack_scalar (c := c) (nestedUpTo level m)
    obtain h | h := Gives.readings_or h
    · obtain ⟨b, _, rfl⟩ := h.map
      exact hboolean b
    obtain h | h := h.readings_or
    · obtain ⟨x, _, rfl⟩ := h.map
      exact hnumber x
    obtain h | h := h.readings_or
    · obtain ⟨s, _, rfl⟩ := h.map
      exact htext s
    obtain ⟨⟨tags, body⟩, hbody, hgiven⟩ := h.reading.tagged
    refine readsBack_node ?_
    simp only [nodes, List.mem_cons, Prod.mk.injEq, List.not_mem_nil, or_false] at hbody
    obtain ⟨_, rfl⟩ | ⟨_, rfl⟩ | ⟨_, rfl⟩ | ⟨_, rfl⟩ | ⟨_, rfl⟩ := hbody
    · -- a compound
      obtain ⟨_, h₁, items, hitems, rfl⟩ := hgiven.record.seq
      obtain ⟨o, _, rfl⟩ := h₁.map
      refine readsBack_compound (fun e he => ih (hitems.required.list e he) m ?_) o
      have hdepth := depth_compound c (o := o) he
      omega
    · -- a negation
      obtain ⟨item, hitem, rfl⟩ := hgiven.record.map
      refine readsBack_negated (ih hitem.required m ?_)
      have hdepth := depth_negated c item
      omega
    · -- a function
      obtain ⟨_, h₁, items, hitems, rfl⟩ := hgiven.record.seq
      obtain ⟨name, _, rfl⟩ := h₁.map
      refine readsBack_function (fun e he => ih (hitems.defaultedList e he) m ?_) name
      have hdepth : _ < (c.carry (tree (.function name items))).depth := depth_function c he
      omega
    · -- a selector
      obtain ⟨s, hs, rfl⟩ := hgiven.record.map
      exact readsBack_selector (Selector.settled s hs.required)
    · -- a template
      obtain ⟨_, h₁, vars, hvars, rfl⟩ := hgiven.record.seq
      obtain ⟨s, _, rfl⟩ := h₁.map
      obtain ⟨hkeys, hgiven⟩ := hvars.defaultedDict
      exact readsBack_template hkeys (fun x hx => Selector.settled x.2 (hgiven x hx)) s

/-- Expressions that are read are read back. -/
theorem settled : c.Settled (Schema.decoder : Decoder Expression) encode := by
  intro e he
  change c.Gives (nested level) e at he
  obtain ⟨n, hn⟩ := he.nested
  exact readsBack_nested (readsBack_upTo n hn)

end Expression

end Settled

end Workbook
