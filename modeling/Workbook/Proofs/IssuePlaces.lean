import Workbook.Proofs.Outcomes

/-!
# Issues by their places

The issues of a whole are split by the nodes of the tree that they are about. An issue at or under one
member of a node is not at or under another member of it, so what a part of the work reports under its own
path can be taken out of what the whole work reports: it is all that stands there.
-/

namespace Workbook

/-! ## Paths under a path -/

/-- A path leads to the node of another path, or to a node below it. -/
def Path.Within (p q : Path) : Prop := p.segments <+: q.segments

namespace Path.Within

variable {p q : Path}

/-- A path is within itself. -/
theorem refl (p : Path) : p.Within p := List.prefix_refl _

/-- What is within a member is within what holds the member. -/
theorem ofKey {name : String} (h : (p.key name).Within q) : p.Within q := (List.prefix_append _ _).trans h

/-- What is within an item is within its list. -/
theorem ofIndex {n : Nat} (h : (p.index n).Within q) : p.Within q := (List.prefix_append _ _).trans h

end Path.Within

namespace Issue

/-- Test whether an issue stands at or under a path. -/
def standsUnder (path : Path) (i : Issue) : Bool :=
  match i.place with
  | .node p => path.segments.isPrefixOf p.segments
  | .source _ _ => false

/-- The test says whether an issue stands under a path. -/
theorem standsUnder_iff {path : Path} {i : Issue} : i.standsUnder path ↔ i.Under path := by
  unfold standsUnder Under
  cases hplace : i.place with
  | source location length => simp
  | node p =>
    rw [List.isPrefixOf_iff_prefix]
    constructor
    · rintro ⟨below, h⟩
      exact ⟨below, by rw [h]⟩
    · rintro ⟨below, h⟩
      cases h
      exact List.prefix_append _ _

/-- The numbers of items on the way to the node of an issue. -/
def numbers (i : Issue) : List Nat :=
  match i.place with
  | .node p => p.segments.filterMap fun
    | .index n => some n
    | .key _ => none
  | .source _ _ => []

/-- Test whether an issue stands at or under a member of some item of a list. -/
def standsUnderItems (path : Path) (name : String) (i : Issue) : Bool :=
  i.numbers.any fun n => i.standsUnder ((path.index n).key name)

/-- The test says whether an issue stands under a member of some item. -/
theorem standsUnderItems_iff {path : Path} {name : String} {i : Issue} :
    i.standsUnderItems path name ↔ ∃ n, i.Under ((path.index n).key name) := by
  rw [standsUnderItems, List.any_eq_true]
  constructor
  · rintro ⟨n, _, h⟩
    exact ⟨n, standsUnder_iff.1 h⟩
  · rintro ⟨n, h⟩
    refine ⟨n, ?_, standsUnder_iff.2 h⟩
    obtain ⟨below, hplace⟩ := h
    rw [numbers, hplace]
    exact List.mem_filterMap.2 ⟨.index n, by simp [Path.key, Path.index], rfl⟩

namespace Under

variable {p q : Path} {i : Issue}

/-- An issue under a path stands under the paths that lead to it. -/
theorem within (h : p.Within q) (hi : i.Under q) : i.Under p := by
  obtain ⟨below, hplace⟩ := hi
  obtain ⟨between, hq⟩ := h
  exact ⟨between ++ below, by rw [hplace, ← hq, List.append_assoc]⟩

/-- An issue stands under one member of a node only. -/
theorem step_inj {x y : Segment} (hx : i.Under ⟨p.segments ++ [x]⟩) (hy : i.Under ⟨p.segments ++ [y]⟩) :
    x = y := by
  obtain ⟨below, hx⟩ := hx
  obtain ⟨below', hy⟩ := hy
  have hplace := hx.symm.trans hy
  rw [List.append_assoc, List.append_assoc] at hplace
  have hsteps := List.append_cancel_left (congrArg Path.segments (Place.node.inj hplace))
  exact (List.cons.inj hsteps).1

/-- An issue stands under one member of an object. -/
theorem key_inj {a b : String} (ha : i.Under (p.key a)) (hb : i.Under (p.key b)) : a = b :=
  Segment.key.inj (step_inj ha hb)

/-- An issue stands under one item of a list. -/
theorem index_inj {m n : Nat} (hm : i.Under (p.index m)) (hn : i.Under (p.index n)) : m = n :=
  Segment.index.inj (step_inj hm hn)

end Under

end Issue

/-! ## The issues under a path -/

/-- The issues of a list that stand at or under a path. -/
def issuesUnder (path : Path) (issues : List Issue) : List Issue := issues.filter (Issue.standsUnder path)

section IssuesUnder

variable {path : Path} {issues : List Issue}

/-- The issues under a path are side by side, as all issues are. -/
@[simp] theorem issuesUnder_append (path : Path) (issues more : List Issue) :
    issuesUnder path (issues ++ more) = issuesUnder path issues ++ issuesUnder path more :=
  List.filter_append issues more

/-- The issues under a path are those of the list that stand there. -/
theorem mem_issuesUnder {i : Issue} : i ∈ issuesUnder path issues ↔ i ∈ issues ∧ i.Under path := by
  rw [issuesUnder, List.mem_filter, Issue.standsUnder_iff]

/-- Where all issues stand under a path, they are the ones under it. -/
theorem issuesUnder_of_all (h : ∀ i ∈ issues, i.Under path) : issuesUnder path issues = issues :=
  List.filter_eq_self.2 fun i hi => Issue.standsUnder_iff.2 (h i hi)

/-- Where no issue stands under a path, none is under it. -/
theorem issuesUnder_of_none (h : ∀ i ∈ issues, ¬i.Under path) : issuesUnder path issues = [] :=
  List.filter_eq_nil_iff.2 fun i hi hunder => h i hi (Issue.standsUnder_iff.1 hunder)

end IssuesUnder

/-- The issues of a list that stand at or under a member of some item. -/
def issuesUnderItems (path : Path) (name : String) (issues : List Issue) : List Issue :=
  issues.filter (Issue.standsUnderItems path name)

section IssuesUnderItems

variable {path : Path} {name : String} {issues : List Issue}

/-- The issues under a member of items are side by side, as all issues are. -/
@[simp] theorem issuesUnderItems_append (path : Path) (name : String) (issues more : List Issue) :
    issuesUnderItems path name (issues ++ more) =
      issuesUnderItems path name issues ++ issuesUnderItems path name more :=
  List.filter_append issues more

/-- Where all issues stand under a member of an item, they are the ones under it. -/
theorem issuesUnderItems_of_all (n : Nat) (h : ∀ i ∈ issues, i.Under ((path.index n).key name)) :
    issuesUnderItems path name issues = issues :=
  List.filter_eq_self.2 fun i hi => Issue.standsUnderItems_iff.2 ⟨n, h i hi⟩

/-- Where no issue stands under a member of an item, none is under it. -/
theorem issuesUnderItems_of_none (h : ∀ i ∈ issues, ∀ n, ¬i.Under ((path.index n).key name)) :
    issuesUnderItems path name issues = [] := by
  refine List.filter_eq_nil_iff.2 fun i hi hitem => ?_
  obtain ⟨n, hn⟩ := Issue.standsUnderItems_iff.1 hitem
  exact h i hi n hn

/-- What stands under members of the items of a list is found among the issues under the list. -/
theorem issuesUnderItems_issuesUnder (path : Path) (name : String) (issues : List Issue) :
    issuesUnderItems path name (issuesUnder path issues) = issuesUnderItems path name issues := by
  rw [issuesUnderItems, issuesUnder, issuesUnderItems, List.filter_filter]
  refine List.filter_congr fun i _ => ?_
  cases hitem : i.standsUnderItems path name with
  | false => rw [Bool.false_and]
  | true =>
    obtain ⟨n, hn⟩ := Issue.standsUnderItems_iff.1 hitem
    rw [Issue.standsUnder_iff.2 hn.ofKey.ofIndex, Bool.and_self]

end IssuesUnderItems

/-- Work that reports under one member of a node reports nothing under another one. -/
theorem Outcome.Under.issuesUnder_key {α : Type} {o : Outcome α} {p q : Path} {a b : String}
    (h : o.Under (p.key a)) (hq : (p.key b).Within q) (hne : a ≠ b) : issuesUnder q o.issues = [] :=
  issuesUnder_of_none fun i hi hunder => hne ((h i hi).key_inj (hunder.within hq))

/-! ## Work on the items of a list -/

/-- Of lists made for items, a test that the others never pass selects from that of one item. -/
theorem filter_flatMap_of_getElem? {α β : Type} {as : List α} {f : α → List β} {test : β → Bool} {n : Nat}
    {a : α} (ha : as[n]? = some a)
    (others : ∀ m b, as[m]? = some b → m ≠ n → (f b).filter test = []) :
    (as.flatMap f).filter test = (f a).filter test := by
  induction as generalizing n with
  | nil => cases ha
  | cons b rest ih =>
    rw [List.flatMap_cons, List.filter_append]
    cases n with
    | zero =>
      rw [List.getElem?_cons_zero, Option.some.injEq] at ha
      have hrest : (rest.flatMap f).filter test = [] := by
        rw [List.filter_flatMap, List.flatMap_eq_nil_iff]
        intro c hc
        obtain ⟨m, hm⟩ := List.mem_iff_getElem?.1 hc
        exact others (m + 1) c hm (Nat.succ_ne_zero m)
      rw [hrest, List.append_nil, ha]
    | succ n =>
      have hfirst : (f b).filter test = [] := others 0 b rfl (Nat.succ_ne_zero n).symm
      rw [hfirst, List.nil_append]
      exact ih ha fun m c hc hne => others (m + 1) c hc fun h => hne (Nat.succ.inj h)

end Workbook
