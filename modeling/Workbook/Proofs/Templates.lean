import Workbook.Proofs.FormulaTrees
import Workbook.Proofs.HeldSelectors
import Workbook.Proofs.Index
import Workbook.Proofs.Reports

/-!
# What a template is filled with

A template text is cut into characters and placeholders. When no bound name has braces in it, bound names
between braces cannot overlap, so there is one way to cut a text such that no placeholder is missed. The
formula of a template is the text with the placeholders of this cut replaced, all at once. What is put in their
place is not looked at again, and names that have no place in the text have no part in the formula.
-/

namespace Workbook

namespace Formula

variable {vars : List (String × Selector)}

/-! ## Placeholders -/

/-- A name between braces. -/
def braced (name : String) : List Char := '\x7b' :: (name.toList ++ ['\x7d'])

/-- A name without braces. -/
def Braceless (name : String) : Prop := '\x7b' ∉ name.toList ∧ '\x7d' ∉ name.toList

/-- A name between braces and what follows it. -/
theorem braced_append (name : String) (cs : List Char) :
    braced name ++ cs = '\x7b' :: (name.toList ++ '\x7d' :: cs) := by
  rw [braced, List.cons_append, List.append_assoc]
  rfl

/-- A placeholder behind an open brace goes on to the first closing brace, and its name is bound. -/
theorem placeholder?_eq_some_iff {cs rest : List Char} {name : String} {s : Selector} :
    placeholder? vars cs = some (name, s, rest) ↔
      cs = name.toList ++ '\x7d' :: rest ∧ '\x7d' ∉ name.toList ∧ vars.lookup name = some s := by
  constructor
  · intro h
    have hsplit : cs = cs.takeWhile (· != '\x7d') ++ cs.dropWhile (· != '\x7d') :=
      List.takeWhile_append_dropWhile.symm
    have hdrop : cs.drop (cs.takeWhile (· != '\x7d')).length = cs.dropWhile (· != '\x7d') :=
      (congrArg (List.drop _) hsplit).trans List.drop_left
    have hstop := List.head?_dropWhile_not (· != '\x7d') cs
    have hname : '\x7d' ∉ cs.takeWhile (· != '\x7d') := by
      intro hmem
      exact absurd (List.all_eq_true.1 List.all_takeWhile _ hmem) (by decide)
    rw [placeholder?, hdrop] at h
    cases hrest : cs.dropWhile (· != '\x7d') with
    | nil =>
      rw [hrest] at h
      cases h
    | cons c tail =>
      rw [hrest] at h hstop hsplit
      have hc : c = '\x7d' := by simpa using hstop
      obtain ⟨found, hlookup, hfound⟩ := Option.map_eq_some_iff.1 h
      cases hfound
      rw [hc] at hsplit
      rw [String.toList_ofList]
      exact ⟨hsplit, hname, hlookup⟩
  · rintro ⟨rfl, hname, hlookup⟩
    have hall : ∀ c ∈ name.toList, (c != '\x7d') = true := by
      intro c hc
      rw [bne_iff_ne]
      rintro rfl
      exact hname hc
    have hstop : StopsAt (· != '\x7d') ('\x7d' :: rest) := by
      intro c hc
      cases hc
      decide
    rw [placeholder?, takeWhile_append hall hstop, List.drop_left, String.ofList_toList, hlookup]
    rfl

/-- The bound name after an open brace and what follows it are determined. -/
theorem braced_unique {name name' : String} {s s' : Selector} {cs cs' : List Char}
    (hname : '\x7d' ∉ name.toList) (hs : vars.lookup name = some s) (hname' : '\x7d' ∉ name'.toList)
    (hs' : vars.lookup name' = some s') (h : braced name ++ cs = braced name' ++ cs') :
    name = name' ∧ cs = cs' := by
  rw [braced_append, braced_append] at h
  have hfound : placeholder? vars (name.toList ++ '\x7d' :: cs) = some (name, s, cs) :=
    placeholder?_eq_some_iff.2 ⟨rfl, hname, hs⟩
  have hfound' : placeholder? vars (name.toList ++ '\x7d' :: cs) = some (name', s', cs') :=
    placeholder?_eq_some_iff.2 ⟨(List.cons.inj h).2, hname', hs'⟩
  have hsame := Prod.mk.inj (Option.some.inj (hfound.symm.trans hfound'))
  exact ⟨hsame.1, (Prod.mk.inj hsame.2).2⟩

/-- A name between braces that comes after some text does not begin inside a name between braces at the start
of that text. -/
theorem braced_apart {name name' : String} {cs before after : List Char} {c : Char}
    (hname : '\x7b' ∉ name.toList) (h : braced name ++ cs = c :: before ++ (braced name' ++ after)) :
    ∃ between, c :: before = braced name ++ between ∧ cs = between ++ (braced name' ++ after) := by
  obtain ⟨between, hbefore, hcs⟩ | ⟨overlap, hbraced, hafter⟩ := List.append_eq_append_iff.1 h
  · exact ⟨between, hbefore, hcs⟩
  · cases overlap with
    | nil =>
      rw [List.append_nil] at hbraced
      exact ⟨[], by rw [hbraced, List.append_nil], hafter.symm⟩
    | cons d overlap =>
      -- the first brace of the second name would be in the first name, or be its closing brace
      have hd : d = '\x7b' := (List.cons.inj hafter).1.symm
      have htail : name.toList ++ ['\x7d'] = before ++ d :: overlap := (List.cons.inj hbraced).2
      have hmem : d ∈ name.toList ++ ['\x7d'] := by
        rw [htail]
        exact List.mem_append_right before List.mem_cons_self
      rw [hd] at hmem
      obtain hin | hclose := List.mem_append.1 hmem
      · exact absurd hin hname
      · exact absurd (List.mem_singleton.1 hclose) (by decide)

/-! ## Cuts -/

namespace TemplatePart

/-- The characters of a part of a template text. -/
def source : TemplatePart → List Char
  | .char c => [c]
  | .place name _ => braced name

/-- The characters of a part of a template whose placeholders are replaced. -/
def filled (texts : String → String) : TemplatePart → List Char
  | .char c => [c]
  | .place name _ => (texts name).toList

/-- A part of a template has characters. -/
theorem source_ne_nil (p : TemplatePart) : p.source ≠ [] := by
  cases p with
  | char c => exact List.cons_ne_nil c []
  | place name s => exact List.cons_ne_nil _ _

end TemplatePart

open TemplatePart

/-- Parts without characters are no parts. -/
theorem eq_nil_of_sources {ps : List TemplatePart} (h : ps.flatMap source = []) : ps = [] := by
  cases ps with
  | nil => rfl
  | cons p ps => exact absurd (List.append_eq_nil_iff.1 h).1 p.source_ne_nil

/-- Parts are a cut of a text: they are the text, what they have places for is bound, and every bound name
between braces is one of their places. -/
structure Cuts (vars : List (String × Selector)) (cs : List Char) (parts : List TemplatePart) : Prop where
  sources : parts.flatMap source = cs
  bound : ∀ name s, .place name s ∈ parts → vars.lookup name = some s
  complete : ∀ before name s after, cs = before ++ (braced name ++ after) → vars.lookup name = some s →
    ∃ ps qs, parts = ps ++ .place name s :: qs ∧ ps.flatMap source = before

namespace Cuts

variable {cs : List Char} {p : TemplatePart} {ps qs : List TemplatePart} {name : String} {s : Selector}

/-- A text that begins with a bound name between braces is cut there. -/
theorem exists_place (h : Cuts vars (braced name ++ cs) ps) (hs : vars.lookup name = some s) :
    ∃ qs, ps = .place name s :: qs := by
  obtain ⟨before, qs, hps, hsource⟩ := h.complete [] name s cs rfl hs
  rw [eq_nil_of_sources hsource] at hps
  exact ⟨qs, hps⟩

/-- What follows the first part of a cut is a cut. -/
theorem tail (h : Cuts vars (p.source ++ cs) (p :: ps)) : Cuts vars cs ps where
  sources := List.append_cancel_left h.sources
  bound name s hplace := h.bound name s (List.mem_cons_of_mem p hplace)
  complete before name s after hcs hs := by
    have hwhole : p.source ++ cs = (p.source ++ before) ++ (braced name ++ after) := by
      rw [hcs, List.append_assoc]
    obtain ⟨xs, ys, hparts, hsource⟩ := h.complete _ name s after hwhole hs
    cases xs with
    | nil => exact absurd (List.append_eq_nil_iff.1 hsource.symm).1 p.source_ne_nil
    | cons x xs =>
      obtain ⟨rfl, hps⟩ := List.cons.inj hparts
      exact ⟨xs, ys, hps, List.append_cancel_left hsource⟩

/-- A text has one cut at most. -/
theorem unique (h : Cuts vars cs ps) (h' : Cuts vars cs qs) : ps = qs := by
  induction ps generalizing cs qs with
  | nil =>
    have hsource : qs.flatMap source = [] := h'.sources.trans h.sources.symm
    exact (eq_nil_of_sources hsource).symm
  | cons p ps ih =>
    have hcs : cs = p.source ++ ps.flatMap source := h.sources.symm
    rw [hcs] at h h'
    cases p with
    | place name s =>
      obtain ⟨rest, hqs⟩ := h'.exists_place (h.bound name s List.mem_cons_self)
      rw [hqs] at h' ⊢
      rw [ih h.tail h'.tail]
    | char c =>
      cases qs with
      | nil => exact absurd h'.sources.symm (List.cons_ne_nil _ _)
      | cons q qs =>
        have hq : q.source ++ qs.flatMap source = c :: ps.flatMap source := h'.sources
        cases q with
        | place name s =>
          rw [source, List.singleton_append, ← hq] at h
          obtain ⟨rest, hps⟩ := h.exists_place (h'.bound name s List.mem_cons_self)
          cases hps
        | char d =>
          obtain ⟨rfl, -⟩ := List.cons.inj hq
          rw [ih h.tail h'.tail]

/-- Nothing is cut into no parts. -/
theorem nil : Cuts vars [] [] where
  sources := rfl
  bound _ _ hplace := nomatch hplace
  complete before name s after hcs _ := by
    have hlength := congrArg List.length hcs
    simp only [braced, List.length_nil, List.length_append, List.length_cons] at hlength
    omega

/-- A character with which no bound name between braces begins is a part. -/
theorem char {c : Char} (h : Cuts vars cs ps)
    (literal : ∀ name s after, c :: cs = braced name ++ after → vars.lookup name ≠ some s) :
    Cuts vars (c :: cs) (.char c :: ps) where
  sources := congrArg (List.cons c) h.sources
  bound name s hplace := by
    obtain hplace | hplace := List.mem_cons.1 hplace
    · cases hplace
    · exact h.bound name s hplace
  complete before name s after hcs hs := by
    cases before with
    | nil => exact absurd hs (literal name s after hcs)
    | cons d before =>
      obtain ⟨rfl, htail⟩ := List.cons.inj hcs
      obtain ⟨xs, ys, hps, hsource⟩ := h.complete before name s after htail hs
      exact ⟨.char c :: xs, ys, congrArg _ hps, congrArg (List.cons c) hsource⟩

/-- A bound name between braces is a part, when no bound name has a brace in it. -/
theorem place (h : Cuts vars cs ps) (braceless : ∀ v ∈ vars, Braceless v.1)
    (hs : vars.lookup name = some s) : Cuts vars (braced name ++ cs) (.place name s :: ps) where
  sources := congrArg (braced name ++ ·) h.sources
  bound m t hplace := by
    obtain hplace | hplace := List.mem_cons.1 hplace
    · cases hplace
      exact hs
    · exact h.bound m t hplace
  complete before m t after hcs ht := by
    have hname : Braceless name := braceless _ (mem_of_lookup hs)
    have hm : Braceless m := braceless _ (mem_of_lookup ht)
    cases before with
    | nil =>
      obtain ⟨rfl, -⟩ := braced_unique hname.2 hs hm.2 ht hcs
      cases hs.symm.trans ht
      exact ⟨[], ps, rfl, rfl⟩
    | cons d before =>
      obtain ⟨between, hbefore, hrest⟩ := braced_apart hname.1 hcs
      obtain ⟨xs, ys, hps, hsource⟩ := h.complete between m t after hrest ht
      rw [hbefore, hps]
      exact ⟨.place name s :: xs, ys, rfl, congrArg (braced name ++ ·) hsource⟩

end Cuts

/-! ## The parts of a template text -/

/-- A bound name between braces is a place. -/
theorem templateParts_bound {cs rest : List Char} {name : String} {s : Selector}
    (found : placeholder? vars cs = some (name, s, rest)) :
    templateParts vars ('\x7b' :: cs) = .place name s :: templateParts vars rest := by
  rw [templateParts, if_pos rfl]
  split
  · rename_i found'
    cases found'.symm.trans found
    rfl
  · rename_i unbound
    cases unbound.symm.trans found

/-- A brace that no bound name follows is a character. -/
theorem templateParts_unbound {cs : List Char} (unbound : placeholder? vars cs = none) :
    templateParts vars ('\x7b' :: cs) = .char '\x7b' :: templateParts vars cs := by
  rw [templateParts, if_pos rfl]
  split
  · rename_i found
    cases found.symm.trans unbound
  · rfl

/-- Any other character is one by itself. -/
theorem templateParts_literal {c : Char} (hc : c ≠ '\x7b') (cs : List Char) :
    templateParts vars (c :: cs) = .char c :: templateParts vars cs := by
  rw [templateParts, if_neg hc]

/-- The parts of a template text are its cut. -/
theorem cuts_templateParts (braceless : ∀ v ∈ vars, Braceless v.1) (cs : List Char) :
    Cuts vars cs (templateParts vars cs) := by
  induction cs using templateParts.induct vars with
  | case1 =>
    rw [templateParts]
    exact .nil
  | case2 cs name s rest found ih =>
    obtain ⟨hcs, -, hs⟩ := placeholder?_eq_some_iff.1 found
    rw [templateParts_bound found, hcs, ← braced_append]
    exact ih.place braceless hs
  | case3 cs unbound ih =>
    rw [templateParts_unbound unbound]
    refine ih.char fun name s after hcs hs => ?_
    rw [braced_append] at hcs
    have hname : Braceless name := braceless _ (mem_of_lookup hs)
    have found := placeholder?_eq_some_iff.2 ⟨(List.cons.inj hcs).2, hname.2, hs⟩
    cases unbound.symm.trans found
  | case4 c cs hc ih =>
    rw [templateParts_literal hc]
    refine ih.char fun name s after hcs => ?_
    rw [braced_append] at hcs
    exact absurd (List.cons.inj hcs).1 hc

/-- The parts of a template text depend on the names only that stand in it between braces. -/
theorem templateParts_congr {vars' : List (String × Selector)} {cs : List Char}
    (same : ∀ name, braced name <:+: cs → vars'.lookup name = vars.lookup name) :
    templateParts vars' cs = templateParts vars cs := by
  induction cs using templateParts.induct vars with
  | case1 => rw [templateParts, templateParts]
  | case2 cs name s rest found ih =>
    obtain ⟨hcs, hname, hs⟩ := placeholder?_eq_some_iff.1 found
    have hwhole : '\x7b' :: cs = braced name ++ rest := by rw [hcs, braced_append]
    rw [hwhole] at same
    have hs' : vars'.lookup name = some s := (same name (List.prefix_append _ _).isInfix).trans hs
    have found' : placeholder? vars' cs = some (name, s, rest) :=
      placeholder?_eq_some_iff.2 ⟨hcs, hname, hs'⟩
    rw [templateParts_bound found, templateParts_bound found',
      ih fun m hm => same m (hm.trans (List.suffix_append _ _).isInfix)]
  | case3 cs unbound ih =>
    have unbound' : placeholder? vars' cs = none := by
      cases found' : placeholder? vars' cs with
      | none => rfl
      | some found =>
        obtain ⟨name, s, rest⟩ := found
        obtain ⟨hcs, hname, hs'⟩ := placeholder?_eq_some_iff.1 found'
        have hwhole : '\x7b' :: cs = braced name ++ rest := by rw [hcs, braced_append]
        rw [hwhole] at same
        have hs : vars.lookup name = some s := (same name (List.prefix_append _ _).isInfix).symm.trans hs'
        cases unbound.symm.trans (placeholder?_eq_some_iff.2 ⟨hcs, hname, hs⟩)
    rw [templateParts_unbound unbound, templateParts_unbound unbound',
      ih fun m hm => same m (hm.trans (List.suffix_cons _ cs).isInfix)]
  | case4 c cs hc ih =>
    rw [templateParts_literal hc, templateParts_literal hc,
      ih fun m hm => same m (hm.trans (List.suffix_cons c cs).isInfix)]

/-! ## Filling -/

section Filling

variable {cell : FormulaCell} {path : Path} {text : String}

/-- When the selectors of all places have texts, the formula is the parts with these texts. -/
theorem template_eq_ok {texts : String → String}
    (written : ∀ name s, .place name s ∈ templateParts vars text.toList →
      cell.selectorText s ((path.key "vars").key name) = .ok (texts name)) :
    template cell path text vars =
      .ok (String.ofList ((templateParts vars text.toList).flatMap (filled texts))) := by
  have hparts : (templateParts vars text.toList).mapM (TemplatePart.formula cell path) =
      .ok ((templateParts vars text.toList).map (filled texts)) := by
    refine mapM_eq_ok fun part hpart => ?_
    cases part with
    | char c => rfl
    | place name s =>
      rw [TemplatePart.formula, written name s hpart]
      rfl
  rw [template, hparts, List.flatMap_def]
  rfl

/-- When the selector of some place has no text, the formula fails with the issue of the first such place. -/
theorem template_eq_error {name : String} {s : Selector} {i : Issue}
    (place : .place name s ∈ templateParts vars text.toList)
    (fails : cell.selectorText s ((path.key "vars").key name) = .error i) :
    ∃ before m t after j, templateParts vars text.toList = before ++ .place m t :: after ∧
      (∀ n u, .place n u ∈ before → ∃ w, cell.selectorText u ((path.key "vars").key n) = .ok w) ∧
      cell.selectorText t ((path.key "vars").key m) = .error j ∧
      template cell path text vars = .error j := by
  cases hparts : (templateParts vars text.toList).mapM (TemplatePart.formula cell path) with
  | ok texts =>
    obtain ⟨cs, -, hcs⟩ := exists_mem_of_mapM hparts place
    rw [TemplatePart.formula, fails] at hcs
    cases hcs
  | error j =>
    obtain ⟨before, part, after, hsplit, hmade, hfail⟩ := first_error_of_mapM hparts
    obtain ⟨m, t, rfl, ht⟩ := TemplatePart.selector_of_error hfail
    refine ⟨before, m, t, after, j, hsplit, fun n u hu => ?_, ht, ?_⟩
    · obtain ⟨cs, hcs⟩ := hmade _ hu
      cases hw : cell.selectorText u ((path.key "vars").key n) with
      | ok w => exact ⟨w, rfl⟩
      | error k =>
        rw [TemplatePart.formula, hw] at hcs
        cases hcs
    · rw [template, hparts]
      rfl

end Filling

/-- A template whose bound names have no braces has a formula that comes of its text in one go. The text has
a cut, and of every cut it holds: when the selectors of all places have texts, the formula is the text with
these in their places. When some do not, the formula fails with the issue of the first place whose selector
has none, which stands at or under the path of its name. What the names are bound to that do not stand in the
text between braces does not matter, nor whether they are bound. -/
theorem template_fills_cut (cell : FormulaCell) (path : Path) (text : String)
    (vars : List (String × Selector)) (braceless : ∀ v ∈ vars, Braceless v.1) :
    (∃ parts, Cuts vars text.toList parts) ∧
    (∀ parts, Cuts vars text.toList parts →
      (∀ texts : String → String,
        (∀ name s, .place name s ∈ parts →
          cell.selectorText s ((path.key "vars").key name) = .ok (texts name)) →
        ofExpression cell path (.template text vars) = .ok (String.ofList (parts.flatMap (filled texts)))) ∧
      ((∃ name s i, .place name s ∈ parts ∧
          cell.selectorText s ((path.key "vars").key name) = .error i) →
        ∃ before name s after i, parts = before ++ .place name s :: after ∧
          (∀ m t, .place m t ∈ before → ∃ w, cell.selectorText t ((path.key "vars").key m) = .ok w) ∧
          cell.selectorText s ((path.key "vars").key name) = .error i ∧
          ofExpression cell path (.template text vars) = .error i ∧
          i.Under ((path.key "vars").key name))) ∧
    ∀ vars', (∀ name, braced name <:+: text.toList → vars'.lookup name = vars.lookup name) →
      ofExpression cell path (.template text vars') = ofExpression cell path (.template text vars) := by
  have hcuts := cuts_templateParts braceless text.toList
  refine ⟨⟨_, hcuts⟩, fun parts hparts => ?_, fun vars' same => ?_⟩
  · rw [hparts.unique hcuts, ofExpression]
    refine ⟨fun texts written => template_eq_ok written, ?_⟩
    rintro ⟨name, s, i, place, fails⟩
    obtain ⟨before, m, t, after, j, hsplit, hmade, hfail, htemplate⟩ := template_eq_error place fails
    exact ⟨before, m, t, after, j, hsplit, hmade, hfail, htemplate, cell.selectorText_fails t _ j hfail⟩
  · rw [ofExpression, ofExpression, template, template, templateParts_congr same]

/-- A cell in a book with a page whose name is a name in braces. -/
def bracedPageCell : FormulaCell where
  vantage := {
    columns := ⟨[(⟨"\x7bp\x7d", "group", "column"⟩, ⟨"\x7bp\x7d", false, 0⟩)]⟩
    key := ⟨"page", "group", "column"⟩ }
  column := 1
  row := 2

/-- A cell of that page, and the cell of the formula. -/
def bracedPageVars : List (String × Selector) :=
  [("p", .target ⟨.column ⟨some "\x7bp\x7d", none, "column"⟩, .own⟩), ("q", .own)]

/-- The texts of these cells. -/
def bracedPageTexts (name : String) : String := if name = "p" then "'\x7bp\x7d'!$A3" else "B3"

/-- A placeholder whose text has one of the placeholders in it, one between further braces, and braces that
open no placeholder. -/
theorem template_fills_cut_braces :
    (∀ v ∈ bracedPageVars, Braceless v.1) ∧
    ofExpression bracedPageCell .root
      (.template "\x7bp\x7d+\x7b\x7bq\x7d\x7dp\x7d-\x7br\x7d\x7b" bracedPageVars) =
        .ok "'\x7bp\x7d'!$A3+\x7bB3\x7dp\x7d-\x7br\x7d\x7b" := by
  have braceless : ∀ v ∈ bracedPageVars, Braceless v.1 := by
    unfold bracedPageVars Braceless
    decide
  have hp : bracedPageCell.selectorText (.target ⟨.column ⟨some "\x7bp\x7d", none, "column"⟩, .own⟩)
      ((Path.root.key "vars").key "p") = .ok (bracedPageTexts "p") := eq_ok_of_toOption (by decide +kernel)
  have hq : bracedPageCell.selectorText .own ((Path.root.key "vars").key "q") = .ok (bracedPageTexts "q") :=
    eq_ok_of_toOption (by decide +kernel)
  have written : ∀ v ∈ bracedPageVars,
      bracedPageCell.selectorText v.2 ((Path.root.key "vars").key v.1) = .ok (bracedPageTexts v.1) :=
    List.forall_mem_cons.2 ⟨hp, List.forall_mem_singleton.2 hq⟩
  have hcuts := cuts_templateParts braceless "\x7bp\x7d+\x7b\x7bq\x7d\x7dp\x7d-\x7br\x7d\x7b".toList
  obtain ⟨-, hfills, -⟩ := template_fills_cut bracedPageCell .root
    "\x7bp\x7d+\x7b\x7bq\x7d\x7dp\x7d-\x7br\x7d\x7b" bracedPageVars braceless
  obtain ⟨hok, -⟩ := hfills _ hcuts
  have hformula := hok bracedPageTexts fun name s place => written _ (mem_of_lookup (hcuts.bound name s place))
  refine ⟨braceless, hformula.trans (congrArg Except.ok ?_)⟩
  decide +kernel

end Formula

end Workbook
