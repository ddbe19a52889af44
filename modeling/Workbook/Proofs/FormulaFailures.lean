import Workbook.Proofs.Codecs.Expressions
import Workbook.Proofs.FaultPlaces
import Workbook.Proofs.Naturality
import Workbook.Proofs.Relocation
import Workbook.Proofs.Templates

/-!
# Where formulas fail

An expression has no formula if a number in it is not finite, a compound has no items, or a selector does
not resolve or has no text. Of a template those selectors count whose placeholders are read in its text.
What is reported is the issue of the first such node from left to right, and the place of the issue leads
to a node of the tree of the expression that is the failing one or inside it.
-/

namespace Workbook

/-- A path that goes on from the end of another leads on from the value there. -/
theorem Json.at?_join (v : Json) (p q : Path) : v.at? (p.join q) = (v.at? p).bind (·.at? q) := by
  simp [at?, Path.join, List.foldlM_append]

namespace Formula

/-! ## Failures -/

section Failures

variable {ε α β : Type}

/-- What a result fails with. -/
def failure? : Except ε α → Option ε
  | .ok _ => none
  | .error i => some i

/-- The failure of a result is the issue that it failed with. -/
theorem failure?_eq_some_iff {r : Except ε α} {i : ε} : failure? r = some i ↔ r = .error i := by
  cases r with
  | ok a => exact ⟨nofun, nofun⟩
  | error j => exact ⟨fun h => congrArg _ (Option.some.inj h), fun h => congrArg _ (Except.error.inj h)⟩

/-- A result without a failure is a value. -/
theorem failure?_eq_none_iff {r : Except ε α} : failure? r = none ↔ ∃ a, r = .ok a := by
  cases r with
  | ok a => exact ⟨fun _ => ⟨a, rfl⟩, fun _ => rfl⟩
  | error i => exact ⟨nofun, nofun⟩

/-- Work that goes on in one way fails in its first part or in that way. -/
theorem failure?_bind {r : Except ε α} {f : α → Except ε β} {o : Option ε}
    (h : ∀ a, failure? (f a) = o) : failure? (r >>= f) = (failure? r).or o := by
  cases r with
  | ok a => exact h a
  | error i => rfl

/-- What is made of a value fails as the value does. -/
theorem failure?_bind_pure (r : Except ε α) (f : α → β) :
    failure? (do let a ← r; return f a) = failure? r := by
  cases r <;> rfl

/-- A list fails in its first member or in the others. -/
theorem failure?_cons (r : Except ε α) (rest : Except ε (List β)) (f : α → β) :
    failure? (do let a ← r; let bs ← rest; return f a :: bs) = (failure? r).or (failure? rest) :=
  failure?_bind fun a => failure?_bind_pure rest (f a :: ·)

/-- A mapped result fails as the result does. -/
theorem failure?_map (r : Except ε α) (f : α → β) : failure? (r.map f) = failure? r := by
  cases r <;> rfl

/-- A list fails with the first failure of its members. -/
theorem failure?_mapM (f : α → Except ε β) (as : List α) :
    failure? (as.mapM f) = as.findSome? fun a => failure? (f a) := by
  induction as with
  | nil => rfl
  | cons a rest ih =>
    rw [List.mapM_cons, failure?_cons, ih, List.findSome?_cons]
    cases failure? (f a) <;> rfl

end Failures

/-! ## Placeholders -/

/-- The placeholders of a template text with the selectors that their names are bound to. -/
def placeholders (vars : List (String × Selector)) (cs : List Char) : List (String × Selector) :=
  (templateParts vars cs).filterMap fun
    | .char _ => none
    | .place name s => some (name, s)

/-- The rules by which placeholders are read in a text from left to right. A placeholder is a bound name
between an open brace and the first closing one. -/
inductive ReadsPlaceholders (vars : List (String × Selector)) : List Char → List (String × Selector) → Prop
  | nil : ReadsPlaceholders vars [] []
  | place {name s cs places} (closed : '\x7d' ∉ name.toList) (bound : vars.lookup name = some s)
    (rest : ReadsPlaceholders vars cs places) :
    ReadsPlaceholders vars (braced name ++ cs) ((name, s) :: places)
  | char {c cs places}
    (literal : ∀ name s after, c :: cs = braced name ++ after → '\x7d' ∉ name.toList →
      vars.lookup name ≠ some s)
    (rest : ReadsPlaceholders vars cs places) : ReadsPlaceholders vars (c :: cs) places

section Placeholders

variable {vars : List (String × Selector)} {cs : List Char} {name : String} {s : Selector}

/-- The placeholders of a text are those of its parts. -/
theorem mem_placeholders : (name, s) ∈ placeholders vars cs ↔ .place name s ∈ templateParts vars cs := by
  rw [placeholders, List.mem_filterMap]
  constructor
  · rintro ⟨part, hpart, h⟩
    cases part with
    | char c => cases h
    | place m t =>
      cases h
      exact hpart
  · exact fun h => ⟨_, h, rfl⟩

/-- What is read is what the rules allow. -/
theorem readsPlaceholders_iff {places : List (String × Selector)} :
    ReadsPlaceholders vars cs places ↔ placeholders vars cs = places := by
  constructor
  · intro h
    induction h with
    | nil => rw [placeholders, templateParts]; rfl
    | @place name s cs places closed bound _ ih =>
      have found : placeholder? vars (name.toList ++ '\x7d' :: cs) = some (name, s, cs) :=
        placeholder?_eq_some_iff.2 ⟨rfl, closed, bound⟩
      rw [braced_append, placeholders, templateParts_bound found, ← ih]
      rfl
    | @char c cs places literal _ ih =>
      rw [← ih]
      by_cases hc : c = '\x7b'
      · subst hc
        cases found : placeholder? vars cs with
        | none => rw [placeholders, templateParts_unbound found]; rfl
        | some x =>
          obtain ⟨name, s, after⟩ := x
          obtain ⟨rfl, closed, bound⟩ := placeholder?_eq_some_iff.1 found
          exact absurd bound (literal name s after (braced_append name after).symm closed)
      · rw [placeholders, templateParts_literal hc]
        rfl
  · rintro rfl
    induction cs using templateParts.induct vars with
    | case1 => rw [placeholders, templateParts]; exact .nil
    | case2 cs name s rest found ih =>
      obtain ⟨hcs, closed, bound⟩ := placeholder?_eq_some_iff.1 found
      rw [placeholders, templateParts_bound found, hcs, ← braced_append]
      exact .place closed bound ih
    | case3 cs unbound ih =>
      rw [placeholders, templateParts_unbound unbound]
      refine .char (fun name s after hcs closed bound => ?_) ih
      rw [braced_append] at hcs
      cases unbound.symm.trans (placeholder?_eq_some_iff.2 ⟨(List.cons.inj hcs).2, closed, bound⟩)
    | case4 c cs hc ih =>
      rw [placeholders, templateParts_literal hc]
      refine .char (fun name s after hcs => ?_) ih
      rw [braced_append] at hcs
      exact absurd (List.cons.inj hcs).1 hc

/-- The names of placeholders are bound. -/
theorem bound_of_mem_placeholders (h : (name, s) ∈ placeholders vars cs) : vars.lookup name = some s := by
  generalize hplaces : placeholders vars cs = places at h
  induction readsPlaceholders_iff.2 hplaces with
  | nil => cases h
  | place closed bound rest ih =>
    obtain h | h := List.mem_cons.1 h
    · cases h
      exact bound
    · exact ih (readsPlaceholders_iff.1 rest) h
  | char literal rest ih => exact ih (readsPlaceholders_iff.1 rest) h

/-- When no bound name has braces in it, the placeholders are the bound names that stand in the text between
braces. -/
theorem mem_placeholders_iff (braceless : ∀ v ∈ vars, Braceless v.1) :
    (name, s) ∈ placeholders vars cs ↔ braced name <:+: cs ∧ vars.lookup name = some s := by
  have hcuts := cuts_templateParts braceless cs
  rw [mem_placeholders]
  constructor
  · intro h
    obtain ⟨ps, qs, hparts⟩ := List.append_of_mem h
    have hsource := hcuts.sources
    rw [hparts, List.flatMap_append, List.flatMap_cons] at hsource
    refine ⟨⟨ps.flatMap TemplatePart.source, qs.flatMap TemplatePart.source, ?_⟩, hcuts.bound name s h⟩
    rw [← hsource, List.append_assoc]
    rfl
  · rintro ⟨⟨before, after, hcs⟩, bound⟩
    rw [List.append_assoc] at hcs
    obtain ⟨ps, qs, hparts, -⟩ := hcuts.complete before name s after hcs.symm bound
    rw [hparts]
    exact List.mem_append_right ps List.mem_cons_self

end Placeholders

/-! ## Nodes that can fail -/

/-- A node of an expression that may have no formula. -/
inductive Risk where
  | number (x : Float)
  | noItems (operator : Operator)
  | selector (s : Selector)

/-- Such a node and the way to it in the tree of an expression. -/
structure RiskAt where
  way : Path
  risk : Risk

mutual
/-- The nodes of an expression that may have no formula, from left to right. -/
def risks (way : Path) : Expression → List RiskAt
  | .text _ => []
  | .number x => [⟨way, .number x⟩]
  | .boolean _ => []
  | .compound operator items =>
    if items.isEmpty then [⟨way, .noItems operator⟩] else risksOfItems (way.key "items") 0 items
  | .negated item => risks (way.key "item") item
  | .function _ items => risksOfItems (way.key "items") 0 items
  | .selector s => [⟨way.key "from", .selector s⟩]
  | .template text vars =>
    (placeholders vars text.toList).map fun (name, s) => ⟨(way.key "vars").key name, .selector s⟩

/-- Those of items from a number on. -/
def risksOfItems (way : Path) (i : Nat) : List Expression → List RiskAt
  | [] => []
  | e :: es => risks (way.index i) e ++ risksOfItems way (i + 1) es
end

namespace Risk

/-- The node has no formula: a number is not finite, or there are no items, or there is no address that has
a text. -/
def Fails (cell : FormulaCell) : Risk → Prop
  | .number x => ¬x.isFinite
  | .noItems _ => True
  | .selector s => ∀ address text, s.resolve cell.vantage .root = .ok address →
    address.render cell.column cell.row ≠ .ok text

/-- The issue of the node at a path, if it has no formula. -/
def issue? (cell : FormulaCell) (path : Path) : Risk → Option Issue
  | .number x =>
    if x.isFinite then none
    else some (.processing ("number " ++ Decimal.plainText x ++ " has no formula form") path)
  | .noItems operator =>
    some (.processing ("'" ++ operator.token ++ "' expression needs at least one item") path)
  | .selector s =>
    match s.resolve cell.vantage path with
    | .error i => some i
    | .ok address =>
      match address.render cell.column cell.row with
      | .ok _ => none
      | .error fault => some (.processing fault.message path)

/-- The node in the tree of the expression. -/
def tree : Risk → Json
  | .number x => .real x
  | .noItems operator => Expression.tree (.compound operator [])
  | .selector s => Schema.encode s

end Risk

/-- Where issues about a selector stand: at the selector, at its column, at its rows, or at one end of
these. -/
def selectorPlaces : List Path :=
  [.root, Path.root.key "column", Path.root.key "rows", (Path.root.key "rows").key "from",
    (Path.root.key "rows").key "to"]

/-- Where issues about a node stand, from the node on. -/
def Risk.places : Risk → List Path
  | .selector _ => selectorPlaces
  | _ => [.root]

/-! ## Formulas fail at these nodes -/

section Failing

variable (cell : FormulaCell) (path : Path)

/-- The text of a selector fails with its issue. -/
theorem failure?_selectorText (s : Selector) :
    failure? (cell.selectorText s path) = (Risk.selector s).issue? cell path := by
  rw [FormulaCell.selectorText, Risk.issue?]
  cases s.resolve cell.vantage path with
  | error i => rfl
  | ok address =>
    dsimp only [bind, Except.bind]
    cases address.render cell.column cell.row <;> rfl

/-- A template fails as the first of its placeholders does. -/
theorem failure?_template (text : String) (vars : List (String × Selector)) :
    failure? (template cell path text vars) = (placeholders vars text.toList).findSome? fun x =>
      (Risk.selector x.2).issue? cell ((path.key "vars").key x.1) := by
  rw [template, failure?_bind_pure, failure?_mapM, placeholders]
  induction templateParts vars text.toList with
  | nil => rfl
  | cons part rest ih =>
    cases part with
    | char c => exact ih
    | place name s =>
      rw [List.findSome?_cons, TemplatePart.formula, failure?_map, failure?_selectorText, ih]
      rfl

mutual
/-- The formula of an expression fails with the first issue of its nodes. -/
theorem failure?_ofExpression : ∀ (e : Expression) (way : Path),
    failure? (ofExpression cell (path.join way) e) =
      (risks way e).findSome? fun r => r.risk.issue? cell (path.join r.way)
  | .text s, way => rfl
  | .number x, way => by
    rw [ofExpression, risks, numberLiteral, List.findSome?_singleton, Risk.issue?]
    split <;> rfl
  | .boolean b, way => rfl
  | .compound operator items, way => by
    rw [ofExpression, risks, Path.key_join]
    split
    · rfl
    · change failure? (operands cell _ 0 items >>= _) = _
      rw [failure?_bind_pure, failure?_operands]
  | .negated item, way => by
    rw [ofExpression, risks, Path.key_join, failure?_bind_pure, failure?_ofExpression item]
  | .function name items, way => by
    rw [ofExpression, risks, Path.key_join, failure?_bind_pure, failure?_arguments]
  | .selector s, way => by
    rw [ofExpression, risks, Path.key_join, failure?_selectorText, List.findSome?_singleton]
  | .template text vars, way => by
    rw [ofExpression, risks, failure?_template, List.findSome?_map, Path.key_join]
    simp only [Path.key_join]
    rfl

/-- Operands fail as the first of their risks does. -/
theorem failure?_operands : ∀ (es : List Expression) (way : Path) (i : Nat),
    failure? (operands cell (path.join way) i es) =
      (risksOfItems way i es).findSome? fun r => r.risk.issue? cell (path.join r.way)
  | [], way, i => rfl
  | e :: es, way, i => by
    rw [operands, failure?_cons, risksOfItems, List.findSome?_append, Path.index_join,
      failure?_ofExpression e, failure?_operands es]

/-- The items of a call fail as the first of their risks does. -/
theorem failure?_arguments : ∀ (es : List Expression) (way : Path) (i : Nat),
    failure? (arguments cell (path.join way) i es) =
      (risksOfItems way i es).findSome? fun r => r.risk.issue? cell (path.join r.way)
  | [], way, i => rfl
  | e :: es, way, i => by
    rw [arguments, failure?_cons, risksOfItems, List.findSome?_append, Path.index_join,
      failure?_ofExpression e, failure?_arguments es]
end

variable {cell path}

/-- A node has an issue exactly if it fails. -/
theorem issue?_eq_none_iff {risk : Risk} : risk.issue? cell path = none ↔ ¬risk.Fails cell := by
  cases risk with
  | number x =>
    rw [Risk.issue?, Risk.Fails, not_not]
    split
    · rename_i finite
      exact ⟨fun _ => finite, fun _ => rfl⟩
    · rename_i infinite
      exact ⟨nofun, fun finite => absurd finite infinite⟩
  | noItems operator => exact ⟨nofun, fun h => absurd trivial h⟩
  | selector s =>
    -- whether a selector resolves does not depend on the path
    have hroot := s.resolve_failsBelow cell.vantage path .root
    dsimp only at hroot
    rw [Path.join_root] at hroot
    rw [Risk.issue?, Risk.Fails, hroot]
    cases s.resolve cell.vantage .root with
    | error i => exact ⟨nofun, fun h => absurd (fun _ _ => nofun) h⟩
    | ok address =>
      change (match address.render cell.column cell.row with | .ok _ => none | .error fault => _) = none ↔ _
      cases hrender : address.render cell.column cell.row with
      | ok text => exact ⟨fun _ h => h address text rfl hrender, fun _ => rfl⟩
      | error fault =>
        refine ⟨nofun, fun h => absurd (fun a text ha => ?_) h⟩
        cases ha
        rw [hrender]
        exact nofun

/-- A formula fails with the issue of the first node that fails. -/
theorem ofExpression_eq_error_iff {e : Expression} {i : Issue} : ofExpression cell path e = .error i ↔
    ∃ before r after, risks .root e = before ++ r :: after ∧ (∀ q ∈ before, ¬q.risk.Fails cell) ∧
      r.risk.issue? cell (path.join r.way) = some i := by
  have hfails := failure?_ofExpression cell path e .root
  rw [Path.join_root] at hfails
  rw [← failure?_eq_some_iff, hfails, List.findSome?_eq_some_iff]
  constructor
  · rintro ⟨before, r, after, hsplit, hissue, hbefore⟩
    exact ⟨before, r, after, hsplit, fun q hq => issue?_eq_none_iff.1 (hbefore q hq), hissue⟩
  · rintro ⟨before, r, after, hsplit, hbefore, hissue⟩
    exact ⟨before, r, after, hsplit, hissue, fun q hq => issue?_eq_none_iff.2 (hbefore q hq)⟩

/-- A formula fails if and only if a node fails. -/
theorem ofExpression_fails_iff {e : Expression} :
    (∃ i, ofExpression cell path e = .error i) ↔ ∃ r ∈ risks .root e, r.risk.Fails cell := by
  have hfails := failure?_ofExpression cell path e .root
  rw [Path.join_root] at hfails
  simp only [← failure?_eq_some_iff, ← Option.isSome_iff_exists, hfails, List.findSome?_isSome_iff]
  refine exists_congr fun r => and_congr_right fun _ => ?_
  rw [← Option.ne_none_iff_isSome, Ne, issue?_eq_none_iff, not_not]

end Failing

/-! ## Where they are in the tree -/

section Trees

variable {v : Json} {way : Path}

/-- The member of a node. -/
theorem at?_node {tag name : String} {members : List (String × Json)}
    (h : v.at? way = some (Expression.node tag members)) (other : name ≠ Schema.tagKey) :
    v.at? (way.key name) = members.lookup name := by
  rw [Json.at?_key h]
  change List.lookup name ((Schema.tagKey, Json.text tag) :: members) = _
  rw [List.lookup_cons, beq_false_of_ne other]

/-- The items of a list of trees, numbered as in a walk over all of them. -/
theorem at?_items {items : List Expression} (h : v.at? way = some (.list (Expression.treeOfList items)))
    (n : Nat) (e : Expression) (he : items[n]? = some e) : v.at? (way.index (0 + n)) = some e.tree := by
  rw [Nat.zero_add, Json.at?_index h, Expression.treeOfList_eq, List.getElem?_map, he]
  rfl

mutual
/-- The ways to the nodes that can fail lead to them. -/
theorem at?_of_mem_risks {r : RiskAt} : ∀ (e : Expression) {way : Path}, v.at? way = some e.tree →
    r ∈ risks way e → v.at? r.way = some r.risk.tree
  | .text s, way, h, hr => nomatch hr
  | .number x, way, h, hr => by
    obtain rfl := List.mem_singleton.1 hr
    exact h
  | .boolean b, way, h, hr => nomatch hr
  | .compound operator items, way, h, hr => by
    rw [risks] at hr
    split at hr
    · rename_i none
      obtain rfl := List.isEmpty_iff.1 none
      obtain rfl := List.mem_singleton.1 hr
      exact h
    · have hitems : v.at? (way.key "items") = some (.list (Expression.treeOfList items)) := by
        rw [at?_node h (by decide)]
        rfl
      exact at?_of_mem_risksOfItems items (at?_items hitems) hr
  | .negated item, way, h, hr => by
    rw [risks] at hr
    refine at?_of_mem_risks item ?_ hr
    rw [at?_node h (by decide)]
    rfl
  | .function name items, way, h, hr => by
    rw [risks] at hr
    have hitems : v.at? (way.key "items") = some (.list (Expression.treeOfList items)) := by
      rw [at?_node h (by decide)]
      rfl
    exact at?_of_mem_risksOfItems items (at?_items hitems) hr
  | .selector s, way, h, hr => by
    rw [risks] at hr
    obtain rfl := List.mem_singleton.1 hr
    dsimp only
    rw [at?_node h (by decide)]
    rfl
  | .template text vars, way, h, hr => by
    rw [risks] at hr
    obtain ⟨⟨name, s⟩, hplace, rfl⟩ := List.mem_map.1 hr
    have hvars : v.at? (way.key "vars") =
        some (.object (vars.map fun (name, s) => (name, Schema.encode s))) := by
      rw [at?_node h (by decide)]
      rfl
    dsimp only
    rw [Json.at?_key hvars, lookup_map, bound_of_mem_placeholders hplace]
    rfl

/-- The risks of items stand at their nodes. -/
theorem at?_of_mem_risksOfItems {r : RiskAt} : ∀ (items : List Expression) {way : Path} {i : Nat},
    (∀ n e, items[n]? = some e → v.at? (way.index (i + n)) = some e.tree) →
    r ∈ risksOfItems way i items → v.at? r.way = some r.risk.tree
  | [], way, i, h, hr => nomatch hr
  | e :: es, way, i, h, hr => by
    rw [risksOfItems] at hr
    obtain hr | hr := List.mem_append.1 hr
    · exact at?_of_mem_risks e (h 0 e rfl) hr
    · refine at?_of_mem_risksOfItems es (fun n d hd => ?_) hr
      rw [Nat.add_assoc, Nat.add_comm 1 n]
      exact h (n + 1) d hd
end

end Trees

/-! ## Places of issues -/

section Places

variable {path : Path} {i : Issue}

/-- An issue about a value stands at a node inside it. -/
def StandsInside (path : Path) (v : Json) (places : List Path) (i : Issue) : Prop :=
  ∃ below ∈ places, i.place = .node (path.join below) ∧ (v.at? below).isSome

/-- A row that is not read is reported where it is written. -/
theorem place_of_parse_error {u : String} (h : CellUnit.parse u path = .error i) : i.place = .node path := by
  rw [CellUnit.parse] at h
  split at h
  · cases h
  · cases h
    rfl

/-- An own column without a place is reported where it is selected. -/
theorem place_of_ownPlacement_error {v : Vantage} (h : v.ownPlacement path = .error i) :
    i.place = .node path := by
  rw [Vantage.ownPlacement] at h
  split at h
  · cases h
  · cases h
    rfl

/-- A column without a place is reported where it is selected. -/
theorem place_of_placement_error {v : Vantage} {s : ColumnSelector} (h : v.placement s path = .error i) :
    i.place = .node path := by
  rw [Vantage.placement] at h
  split at h
  · cases h
  · cases h
    rfl

/-- What goes wrong in choosing a column is reported inside the selector. -/
theorem standsInside_of_resolveColumn_error {v : Vantage} {column : ColumnTarget} {rows : RowTarget}
    (h : Selector.resolveColumn v path column = .error i) :
    StandsInside path (Selector.target ⟨column, rows⟩).tree selectorPlaces i := by
  cases column with
  | own =>
    have hplace := place_of_ownPlacement_error (map_eq_error h)
    exact ⟨.root, by decide, by rw [hplace, Path.join_root], rfl⟩
  | column s =>
    have hplace := place_of_placement_error (map_eq_error h)
    exact ⟨Path.root.key "column", by decide, by rw [hplace, ← Path.key_join, Path.join_root], rfl⟩

/-- What goes wrong in choosing rows is reported inside the selector. -/
theorem standsInside_of_resolveRows_error {unit : CellUnit} {header : Nat} {column : ColumnTarget}
    {rows : RowTarget} (h : Selector.resolveRows unit header (path.key "rows") rows = .error i) :
    StandsInside path (Selector.target ⟨column, rows⟩).tree selectorPlaces i := by
  cases rows with
  | own => cases h
  | all => cases h
  | units rows =>
    cases rows with
    | single u =>
      obtain h | ⟨_, _, h⟩ := bind_eq_error h
      · have hplace := place_of_parse_error h
        exact ⟨Path.root.key "rows", by decide, by rw [hplace, ← Path.key_join, Path.join_root], rfl⟩
      · cases h
    | range a b =>
      obtain h | ⟨_, _, h⟩ := bind_eq_error h
      · have hplace := place_of_parse_error h
        refine ⟨(Path.root.key "rows").key "from", by decide, ?_, rfl⟩
        rw [hplace, ← Path.key_join, ← Path.key_join, Path.join_root]
      · obtain h | ⟨_, _, h⟩ := bind_eq_error h
        · have hplace := place_of_parse_error h
          refine ⟨(Path.root.key "rows").key "to", by decide, ?_, rfl⟩
          rw [hplace, ← Path.key_join, ← Path.key_join, Path.join_root]
        · cases h

/-- The issue of a selector that does not resolve stands at the selector, or inside it. -/
theorem standsInside_of_resolve_error {v : Vantage} {s : Selector} (h : s.resolve v path = .error i) :
    StandsInside path s.tree selectorPlaces i := by
  cases s with
  | own => cases h
  | target cells =>
    obtain h | ⟨_, _, h⟩ := bind_eq_error h
    · exact standsInside_of_resolveColumn_error h
    · obtain h | ⟨_, _, h⟩ := bind_eq_error h
      · exact standsInside_of_resolveRows_error h
      · cases h

/-- The issue of a node that fails stands at the node, or inside it. -/
theorem standsInside_of_issue? {cell : FormulaCell} {risk : Risk} (h : risk.issue? cell path = some i) :
    StandsInside path risk.tree risk.places i := by
  cases risk with
  | number x =>
    rw [Risk.issue?] at h
    split at h
    · cases h
    · cases h
      exact ⟨.root, List.mem_singleton_self _, congrArg _ path.join_root.symm, rfl⟩
  | noItems operator =>
    cases h
    exact ⟨.root, List.mem_singleton_self _, congrArg _ path.join_root.symm, rfl⟩
  | selector s =>
    rw [Risk.issue?] at h
    split at h
    · rename_i unresolved
      cases h
      exact standsInside_of_resolve_error unresolved
    · split at h
      · cases h
      · cases h
        exact ⟨.root, List.mem_cons_self, congrArg _ path.join_root.symm, rfl⟩

end Places

/-- When and where the formula of an expression for a cell fails at a path. -/
structure FailsExactly (cell : FormulaCell) (path : Path) (e : Expression) : Prop where
  /-- It fails if and only if a node of the expression fails. -/
  fails_iff : (∃ i, ofExpression cell path e = .error i) ↔ ∃ r ∈ risks .root e, r.risk.Fails cell
  /-- What it fails with is the issue of the first such node, at the way to the node from the path on. -/
  first : ∀ i, ofExpression cell path e = .error i ↔
    ∃ before r after, risks .root e = before ++ r :: after ∧ (∀ q ∈ before, ¬q.risk.Fails cell) ∧
      r.risk.Fails cell ∧ r.risk.issue? cell (path.join r.way) = some i
  /-- The way to a node leads to it in the tree of the expression. -/
  node : ∀ r ∈ risks .root e, e.tree.at? r.way = some r.risk.tree
  /-- Its issue stands at the node, or inside it where the tree goes on. -/
  inside : ∀ r ∈ risks .root e, ∀ i, r.risk.issue? cell (path.join r.way) = some i →
    ∃ below ∈ r.risk.places, i.place = .node (path.join (r.way.join below)) ∧
      (e.tree.at? (r.way.join below)).isSome

/-- Every expression fails exactly as its risks say. -/
theorem failsExactly (cell : FormulaCell) (path : Path) (e : Expression) : FailsExactly cell path e := by
  have hnode : ∀ r ∈ risks .root e, e.tree.at? r.way = some r.risk.tree := fun r =>
    at?_of_mem_risks e (Json.at?_root e.tree)
  refine ⟨ofExpression_fails_iff, fun i => ?_, hnode, fun r hr i hissue => ?_⟩
  · rw [ofExpression_eq_error_iff]
    refine exists_congr fun before => exists_congr fun r => exists_congr fun after => ?_
    refine and_congr_right fun _ => and_congr_right fun _ => ⟨fun hissue => ⟨?_, hissue⟩, And.right⟩
    by_contra hmade
    cases (issue?_eq_none_iff.2 hmade).symm.trans hissue
  · obtain ⟨below, hbelow, hplace, hsome⟩ := standsInside_of_issue? hissue
    refine ⟨below, hbelow, hplace.trans (congrArg _ (path.join_assoc r.way below)), ?_⟩
    rw [Json.at?_join, hnode r hr]
    exact hsome

/-- An expression has no formula if and only if one of its nodes has none: a number that is not finite, a
compound without items, or a selector that has no address with a text, in a template one whose placeholder
is read in the text. The formula then fails with the issue of the first such node from left to right, at a
path that leads to the node in the tree of the expression, or into it. Placeholders are read from left to
right; when no bound name has braces in it, they are the bound names between braces in the text. -/
theorem formula_fails_at_first_failing_node :
    (∀ cell path e, FailsExactly cell path e) ∧
    (∀ vars cs places, ReadsPlaceholders vars cs places ↔ placeholders vars cs = places) ∧
    ∀ vars cs name s, (∀ v ∈ vars, Braceless v.1) →
      ((name, s) ∈ placeholders vars cs ↔ braced name <:+: cs ∧ vars.lookup name = some s) :=
  ⟨failsExactly, fun _ _ _ => readsPlaceholders_iff, fun _ _ _ _ => mem_placeholders_iff⟩

/-- The last row of a range in a selector that stands deep inside an expression. -/
example : (failure? (ofExpression bracedPageCell (Path.root.key "value")
    (.compound .add [.text "a", .function "f" [.negated (.selector
      (.target ⟨.column ⟨some "\x7bp\x7d", none, "column"⟩, .units (.range "$1" "2")⟩))]]))).map Issue.place =
    some (.node ⟨[.key "value", .key "items", .index 1, .key "items", .index 0, .key "item", .key "from",
      .key "rows", .key "to"]⟩) := by
  decide +kernel

end Formula

end Workbook
