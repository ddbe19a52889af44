import Mathlib.Data.List.Perm.Basic
import Workbook.Proofs.AncestorFolds
import Workbook.Proofs.Declarations
import Workbook.Proofs.Relocation

/-!
# References without a value

A theme can be rid of the references that have no value in a scope: entries of `inherits` go, colors and
styles are left open, and this also in the themes and styles that are written inside it. The rest makes the
same sheet theme. Its issues are those of the theme itself but for one issue for each reference that went,
which stands where the reference stood.
-/

namespace Workbook

/-! ## Without references that have no value -/

namespace Scope

variable (s : Scope)

/-- A reference has a value. -/
def resolves (k : Kind) (r : Ref k.Value) : Bool := (s.valueOf? k r).isSome

/-- A reference if it has a value. -/
def kept (k : Kind) (r : Option (Ref k.Value)) : Option (Ref k.Value) := r.filter (s.resolves k)

end Scope

/-- A border without a color that has no value. -/
def Border.erase (s : Scope) (b : Border) : Border := { b with color := s.kept .color b.color }

/-- A style without the colors that have no value. -/
def Style.erase (s : Scope) (t : Style) : Style :=
  { t with
    fore := s.kept .color t.fore
    back := s.kept .color t.back
    beneath := t.beneath.map (Border.erase s)
    between := t.between.map (Border.erase s) }

/-- A style of a theme if it has a value, without the colors that have none. -/
def Scope.keptStyle (s : Scope) : Option (Ref Style) → Option (Ref Style)
  | some (.inline t) => some (.inline (t.erase s))
  | t => s.kept .style t

namespace Theme

mutual
/-- A theme without the references that have no value. -/
def erase (s : Scope) : Theme → Theme
  | ⟨inherits, tab, group, header, data⟩ =>
    ⟨eraseEntries s inherits, s.kept .color tab, s.keptStyle group, s.keptStyle header, s.keptStyle data⟩

/-- The inherited themes that have a value, each without the references that have none. -/
def eraseEntries (s : Scope) : List (Ref Theme) → List (Ref Theme)
  | [] => []
  | r :: rs => if s.resolves .theme r then eraseEntry s r :: eraseEntries s rs else eraseEntries s rs

/-- An inherited theme, which loses references if it is written in place. -/
def eraseEntry (s : Scope) : Ref Theme → Ref Theme
  | .named name => .named name
  | .inline t => .inline (erase s t)
end

/-- The entries of a list of inherited themes that have a value, with their numbers. -/
def keptEntries (s : Scope) (rs : List (Ref Theme)) : List (Ref Theme × Nat) :=
  rs.zipIdx.filter fun e => s.resolves .theme e.1

/-- Where a node of an erased theme stands in the theme itself: entries that went are counted again. -/
def original (s : Scope) : Theme → List Segment → List Segment
  | t, .key name :: .index i :: rest =>
    if name = "inherits" then
      match (keptEntries s t.inherits)[i]? with
      | some (.inline u, k) => .key name :: .index k :: original s u rest
      | some (.named _, k) => .key name :: .index k :: rest
      | none => .key name :: .index i :: rest
    else .key name :: .index i :: rest
  | _, segments => segments

/-- Where a node of an erased inherited theme stands in the inherited theme itself. -/
def entryOriginal (s : Scope) : Ref Theme → List Segment → List Segment
  | .named _ => id
  | .inline t => original s t

end Theme

/-- An issue about a node that stands elsewhere. -/
def Issue.moved (f : List Segment → List Segment) (i : Issue) : Issue :=
  match i.place with
  | .node path => { i with place := .node ⟨f path.segments⟩ }
  | .source _ _ => i

/-- An issue about an erased theme at a path, where it stands in the theme itself. -/
def Issue.originalIn (s : Scope) (path : Path) (t : Theme) (i : Issue) : Issue :=
  i.moved fun segments =>
    segments.take path.segments.length ++ t.original s (segments.drop path.segments.length)

/-- An issue that is moved nowhere stays as it is. -/
theorem Issue.moved_id (i : Issue) : i.moved id = i := by
  obtain ⟨phase, message, place, data⟩ := i
  cases place <;> rfl

/-! ## Names that are used -/

/-- A name that stands at a path for a definition of a kind. -/
structure NamedUse where
  path : Path
  kind : Kind
  name : String

namespace NamedUse

/-- What the name stands for, wherever it is. -/
def target (u : NamedUse) : Kind × String := (u.kind, u.name)

/-- The issue of a name that has no value. -/
def fault? (s : Scope) (u : NamedUse) : Option Issue :=
  match s.resolve u.kind u.name with
  | .ok _ => none
  | .error fault => some (fault.issue u.kind.label u.path)

/-- The name has a value. -/
def resolves (s : Scope) (u : NamedUse) : Bool := (u.fault? s).isNone

end NamedUse

/-- The name in a reference. -/
def Ref.uses (k : Kind) (path : Path) : Ref k.Value → List NamedUse
  | .named name => [⟨path, k, name⟩]
  | .inline _ => []

/-- The name of a color that may be absent. -/
def colorUses (path : Path) (c : Option (Ref Color)) : List NamedUse := c.elim [] (Ref.uses .color path)

/-- The name in a border that may be absent. -/
def borderUses (path : Path) (b : Option Border) : List NamedUse :=
  b.elim [] fun b => colorUses (path.key "color") b.color

/-- The names in a style. -/
def Style.uses (path : Path) (t : Style) : List NamedUse :=
  colorUses (path.key "fore") t.fore ++ (colorUses (path.key "back") t.back ++
    (borderUses (path.key "beneath") t.beneath ++ borderUses (path.key "between") t.between))

/-- The names in a style of a theme, which is the one name if the style is a name. -/
def styleUses (path : Path) : Option (Ref Style) → List NamedUse
  | some (.inline t) => t.uses path
  | some (.named name) => [⟨path, .style, name⟩]
  | none => []

namespace Theme

/-- The names in a theme's own fields. -/
def ownUses (path : Path) (t : Theme) : List NamedUse :=
  colorUses (path.key "tab") t.tab ++ (styleUses (path.key "group") t.group ++
    (styleUses (path.key "header") t.header ++ styleUses (path.key "data") t.data))

mutual
/-- The names in a theme and in the themes that are written inside it. -/
def uses (path : Path) : Theme → List NamedUse
  | ⟨inherits, tab, group, header, data⟩ =>
    entriesUses (path.key "inherits") 0 inherits ++ ownUses path { tab, group, header, data }

/-- The names in inherited themes, the first of which has a number. -/
def entriesUses (path : Path) (i : Nat) : List (Ref Theme) → List NamedUse
  | [] => []
  | r :: rs => entryUses (path.index i) r ++ entriesUses path (i + 1) rs

/-- The names in an inherited theme. -/
def entryUses (path : Path) : Ref Theme → List NamedUse
  | .named name => [⟨path, .theme, name⟩]
  | .inline t => uses path t
end

end Theme

section References

variable {s : Scope}

/-- A name with a value has no issue. -/
theorem NamedUse.fault?_of_ok {u : NamedUse} {found : Found u.kind.Value}
    (h : s.resolve u.kind u.name = .ok found) : u.fault? s = none := by
  rw [fault?, h]

/-- A name without a value has the issue that says why. -/
theorem NamedUse.fault?_of_error {u : NamedUse} {fault : NameFault}
    (h : s.resolve u.kind u.name = .error fault) : u.fault? s = some (fault.issue u.kind.label u.path) := by
  rw [fault?, h]

/-- A name that is found has a value. -/
theorem Scope.resolves_of_ok {k : Kind} {name : String} {found : Found k.Value}
    (h : s.resolve k name = .ok found) : s.resolves k (.named name) = true := by
  rw [resolves, valueOf?, h]
  rfl

/-- A name that is not found has none. -/
theorem Scope.resolves_of_error {k : Kind} {name : String} {fault : NameFault}
    (h : s.resolve k name = .error fault) : s.resolves k (.named name) = false := by
  rw [resolves, valueOf?, h]
  rfl

/-- A name that is found is kept. -/
theorem Scope.kept_of_ok {k : Kind} {name : String} {found : Found k.Value}
    (h : s.resolve k name = .ok found) : s.kept k (some (.named name)) = some (.named name) :=
  Option.filter_some_pos (resolves_of_ok h)

/-- A name that is not found is not kept. -/
theorem Scope.kept_of_error {k : Kind} {name : String} {fault : NameFault}
    (h : s.resolve k name = .error fault) : s.kept k (some (.named name)) = none :=
  Option.filter_some_neg (resolves_of_error h)

end References

/-! ## Names that are left -/

/-- Of some names those are left that have a value. -/
def Keeps (s : Scope) (rest whole : List NamedUse) : Prop :=
  rest.map NamedUse.target = (whole.filter (·.resolves s)).map NamedUse.target

section Left

variable {s : Scope}

/-- A name has a value exactly if the reference to it has. -/
theorem NamedUse.resolves_eq (s : Scope) (u : NamedUse) :
    u.resolves s = s.resolves u.kind (.named u.name) := by
  rw [resolves, fault?, Scope.resolves, Scope.valueOf?]
  cases s.resolve u.kind u.name <;> rfl

namespace Keeps

theorem nil : Keeps s [] [] := rfl

theorem append {rest whole rest' whole' : List NamedUse} (h : Keeps s rest whole)
    (h' : Keeps s rest' whole') : Keeps s (rest ++ rest') (whole ++ whole') := by
  rw [Keeps, List.map_append, List.filter_append, List.map_append, h, h']

/-- A single name is left if it has a value. -/
theorem named {k : Kind} {name : String} {p q : Path} :
    Keeps s (if s.resolves k (.named name) then [⟨p, k, name⟩] else []) [⟨q, k, name⟩] := by
  have same : NamedUse.resolves s ⟨q, k, name⟩ = s.resolves k (.named name) := NamedUse.resolves_eq s _
  rw [Keeps, List.filter_singleton, same]
  cases s.resolves k (.named name) <;> rfl

end Keeps

variable (p q : Path)

/-- Erasing keeps the name of a color if it has a value. -/
theorem keeps_color (c : Option (Ref Color)) : Keeps s (colorUses p (s.kept .color c)) (colorUses q c) := by
  rcases c with _ | name | c
  · exact .nil
  · have left : colorUses p (s.kept .color (some (.named name))) =
        if s.resolves .color (.named name) then [⟨p, .color, name⟩] else [] := by
      rw [Scope.kept, Option.filter_some]
      split <;> rfl
    rw [left]
    exact .named
  · exact .nil

/-- Erasing keeps the names in a border that have a value. -/
theorem keeps_border (b : Option Border) :
    Keeps s (borderUses p (b.map (Border.erase s))) (borderUses q b) := by
  cases b with
  | none => exact .nil
  | some b => exact keeps_color _ _ b.color

/-- Erasing keeps the names in a style that have a value. -/
theorem keeps_style (t : Style) : Keeps s ((t.erase s).uses p) (t.uses q) :=
  (keeps_color _ _ t.fore).append ((keeps_color _ _ t.back).append
    ((keeps_border _ _ t.beneath).append (keeps_border _ _ t.between)))

/-- Erasing keeps the names in a style of a theme that have a value. -/
theorem keeps_bucket (t : Option (Ref Style)) : Keeps s (styleUses p (s.keptStyle t)) (styleUses q t) := by
  rcases t with _ | name | t
  · exact .nil
  · have left : styleUses p (s.keptStyle (some (.named name))) =
        if s.resolves .style (.named name) then [⟨p, .style, name⟩] else [] := by
      rw [Scope.keptStyle, Scope.kept, Option.filter_some]
      · split <;> rfl
      · intro t h
        cases h
    rw [left]
    exact .named
  · exact keeps_style p q t

/-- Erasing keeps the names in the own fields of a theme that have a value. -/
theorem keeps_own (t : Theme) : Keeps s ((t.erase s).ownUses p) (t.ownUses q) := by
  cases t
  rw [Theme.erase]
  exact (keeps_color _ _ _).append
    ((keeps_bucket _ _ _).append ((keeps_bucket _ _ _).append (keeps_bucket _ _ _)))

end Left

/-! ## Fields -/

section Fields

variable {s : Scope} {path : Path}

/-- Two lists in two parts each, put together part by part. -/
theorem perm_append_append {α : Type} (a b c d : List α) :
    ((a ++ b) ++ (c ++ d)).Perm ((a ++ c) ++ (b ++ d)) := by
  rw [List.append_assoc, List.append_assoc]
  exact (List.perm_append_comm_assoc b c d).append_left a

/-- Some work and the same work without the names that have no value: it makes the same, and has an issue
for each of these names besides its other issues. -/
structure Outcome.LosesOnly {α : Type} (s : Scope) (whole rest : Outcome α) (uses : List NamedUse) : Prop where
  value : rest.value = whole.value
  issues : whole.issues.Perm (uses.filterMap (·.fault? s) ++ rest.issues)

namespace Outcome.LosesOnly

variable {α β : Type} {whole rest : Outcome α} {uses more : List NamedUse}

theorem refl (o : Outcome α) : LosesOnly s o o [] := ⟨rfl, .refl _⟩

/-- Work loses what its parts lose. -/
theorem bind {f g : α → Outcome β} (h : LosesOnly s whole rest uses)
    (hf : ∀ a, LosesOnly s (f a) (g a) more) : LosesOnly s (whole >>= f) (rest >>= g) (uses ++ more) where
  value := by
    rw [value_bind, value_bind, h.value]
    exact (hf _).value
  issues := by
    rw [issues_bind, issues_bind, List.filterMap_append, h.value]
    exact (h.issues.append (hf _).issues).trans (perm_append_append _ _ _ _)

/-- A name that has a value is no loss. -/
theorem named {k : Kind} {name : String} {found : Found k.Value} (h : s.resolve k name = .ok found)
    (o : Outcome α) : LosesOnly s o o [⟨path, k, name⟩] where
  value := rfl
  issues := by
    have hfault : NamedUse.fault? s ⟨path, k, name⟩ = none := NamedUse.fault?_of_ok h
    rw [List.filterMap_cons_none hfault]
    exact .refl _

/-- A name that has no value defines nothing and has its issue. -/
theorem lost {k : Kind} {name : String} {fault : NameFault} (h : s.resolve k name = .error fault) :
    LosesOnly s (s.valueOf k path (.named name)) (pure none) [⟨path, k, name⟩] where
  value := by
    rw [s.value_valueOf, Scope.valueOf?, h]
    rfl
  issues := by
    have hfault : NamedUse.fault? s ⟨path, k, name⟩ = some (fault.issue k.label path) :=
      NamedUse.fault?_of_error h
    rw [s.issues_valueOf_named, h, List.filterMap_cons_some hfault]
    exact .refl _

theorem map (h : LosesOnly s whole rest uses) (f : α → β) :
    LosesOnly s (do return f (← whole)) (do return f (← rest)) uses := by
  have both := h.bind fun a => refl (pure (f a))
  rwa [List.append_nil] at both

end Outcome.LosesOnly

open Outcome (LosesOnly)

/-- A color loses its name only. -/
theorem color_losesOnly (c : Option (Ref Color)) :
    LosesOnly s (Outcome.forOption (s.color path) c) (Outcome.forOption (s.color path) (s.kept .color c))
      (colorUses path c) := by
  cases c with
  | none => exact .refl _
  | some c =>
    cases c with
    | inline c => exact .refl _
    | named name =>
      cases h : s.resolve .color name with
      | ok found =>
        rw [Scope.kept_of_ok h]
        exact .named h _
      | error fault =>
        rw [Scope.kept_of_error h]
        exact .lost h

/-- A border loses its names only. -/
theorem border_losesOnly (b : Option Border) :
    LosesOnly s (b.mapM (s.border path)) ((b.map (Border.erase s)).mapM (s.border path))
      (borderUses path b) := by
  cases b with
  | none => exact .refl _
  | some b => exact ((color_losesOnly b.color).map _).map some

/-- The fields of a style lose their names only. -/
theorem styleFields_losesOnly (t : Style) :
    LosesOnly s (s.styleFields path t) (s.styleFields path (t.erase s)) (t.uses path) :=
  (color_losesOnly t.fore).bind fun _ => (color_losesOnly t.back).bind fun _ =>
    (border_losesOnly t.beneath).bind fun _ => (border_losesOnly t.between).map _

/-- A style of a theme loses its names only. -/
theorem bucket_losesOnly (t : Option (Ref Style)) :
    LosesOnly s (s.bucket path t) (s.bucket path (s.keptStyle t)) (styleUses path t) := by
  cases t with
  | none => exact .refl _
  | some t =>
    cases t with
    | inline t => exact (LosesOnly.refl _).bind fun _ => styleFields_losesOnly t
    | named name =>
      have same : s.keptStyle (some (.named name)) = s.kept .style (some (.named name)) := rfl
      cases h : s.resolve .style name with
      | ok found =>
        rw [same, Scope.kept_of_ok h]
        exact .named h _
      | error fault =>
        rw [same, Scope.kept_of_error h]
        exact (LosesOnly.lost h).bind fun _ => .refl _

/-- The own fields of a theme lose their names only. -/
theorem ownTheme_losesOnly (t : Theme) :
    LosesOnly s (s.ownTheme path t) (s.ownTheme path (t.erase s)) (t.ownUses path) := by
  cases t
  rw [Theme.erase]
  exact (color_losesOnly _).bind fun _ => (bucket_losesOnly _).bind fun _ =>
    (bucket_losesOnly _).bind fun _ => (bucket_losesOnly _).map _

end Fields

/-! ## Inherited themes -/

section Lists

variable {α β γ : Type}

/-- Items made from numbered members, where each item is known by the member itself. -/
theorem flatMap_zipIdx_map {as : List α} {f : α → β} {F : β × Nat → List γ} {G : α → List γ}
    (h : ∀ i a, as[i]? = some a → F (f a, i) = G a) : (as.map f).zipIdx.flatMap F = as.flatMap G := by
  rw [List.zipIdx_map, List.flatMap_map]
  have members : ∀ e ∈ as.zipIdx, F (Prod.map f id e) = G e.1 := fun e he =>
    h e.2 e.1 (List.mem_zipIdx_iff_getElem?.1 he)
  calc (as.zipIdx.flatMap fun e => F (Prod.map f id e))
      = as.zipIdx.flatMap fun e => G e.1 := List.flatMap_congr members
    _ = (as.zipIdx.map Prod.fst).flatMap G := by rw [List.flatMap_map]
    _ = as.flatMap G := by rw [List.zipIdx_map_fst]

/-- Items of the members that pass a test. -/
theorem flatMap_filter {p : α → Bool} {f : α → List β} (as : List α) :
    (as.filter p).flatMap f = as.flatMap fun a => if p a then f a else [] := by
  induction as with
  | nil => rfl
  | cons a as ih =>
    cases hp : p a with
    | true => simp only [List.filter_cons, List.flatMap_cons, hp, ↓reduceIte, ih]
    | false =>
      simp only [List.filter_cons, List.flatMap_cons, hp, Bool.false_eq_true, ↓reduceIte, ih,
        List.nil_append]

end Lists

namespace Theme

/-- The places in an inherited theme are counted with the entries that went. -/
theorem original_entry {s : Scope} {t : Theme} {i : Nat} {e : Ref Theme × Nat}
    (h : (keptEntries s t.inherits)[i]? = some e) (rest : List Segment) :
    original s t (.key "inherits" :: .index i :: rest) =
      .key "inherits" :: .index e.2 :: entryOriginal s e.1 rest := by
  rw [original, if_pos rfl, h]
  obtain ⟨r, k⟩ := e
  cases r <;> rfl

/-- The places of own fields stay where they are. -/
theorem original_of_ne (s : Scope) (t : Theme) {name : String} (h : name ≠ "inherits") (rest : List Segment) :
    original s t (.key name :: rest) = .key name :: rest := by
  cases rest with
  | nil => rfl
  | cons segment rest =>
    cases segment with
    | key member => rfl
    | index i => rw [original, if_neg h]

/-- An issue of an inherited theme stands at its original place in the theme when it does so in the inherited
theme. -/
theorem moved_entry {s : Scope} {t : Theme} {i : Nat} {e : Ref Theme × Nat}
    (h : (keptEntries s t.inherits)[i]? = some e) (path : Path) (issue : Issue) :
    ((issue.below ((Path.root.key "inherits").index i)).moved (original s t)).below path =
      (issue.moved (entryOriginal s e.1)).below ((path.key "inherits").index e.2) := by
  obtain ⟨phase, message, place, data⟩ := issue
  cases place with
  | node q =>
    have moved := original_entry h q.segments
    simp only [Issue.below, Place.below, Issue.moved, Path.join, Path.key, Path.index, Path.root,
      List.nil_append, List.cons_append, moved, List.append_assoc]
  | source location length => rfl

/-- Issues of an own field stand where they are. -/
theorem moved_of_under {s : Scope} {t : Theme} {name : String} (h : name ≠ "inherits") {issue : Issue}
    (under : issue.Under (Path.root.key name)) : issue.moved (original s t) = issue := by
  obtain ⟨below, hplace⟩ := under
  obtain ⟨phase, message, place, data⟩ := issue
  subst hplace
  have moved := original_of_ne s t h below
  simp only [Issue.moved, Path.key, Path.root, List.nil_append, List.cons_append, moved]

/-- Moving an issue back below a path is moving it back at the root. -/
theorem originalIn_below (s : Scope) (path : Path) (t : Theme) (issue : Issue) :
    (issue.below path).originalIn s path t = (issue.moved (original s t)).below path := by
  obtain ⟨phase, message, place, data⟩ := issue
  cases place with
  | node q =>
    simp only [Issue.below, Place.below, Issue.originalIn, Issue.moved, Path.join, List.take_left,
      List.drop_left]
  | source location length => rfl

/-- Induction over the themes that are written inside each other. -/
theorem inherits_induction {P : Theme → Prop}
    (h : ∀ t, (∀ u, Ref.inline u ∈ t.inherits → P u) → P t) (t : Theme) : P t :=
  h t fun u hu => by
    have smaller : sizeOf u < sizeOf t := by
      have member := List.sizeOf_lt_of_mem hu
      cases t
      simp only [Ref.inline.sizeOf_spec, Theme.mk.sizeOf_spec] at member ⊢
      omega
    exact inherits_induction h u
termination_by sizeOf t

/-- The inherited themes of an erased theme are those that are left. -/
theorem inherits_erase (s : Scope) (t : Theme) : (t.erase s).inherits = eraseEntries s t.inherits := by
  cases t
  rw [erase]

/-- Inherited themes that have a value are erased one by one, and the others go. -/
theorem eraseEntries_eq (s : Scope) (rs : List (Ref Theme)) :
    eraseEntries s rs = (rs.filter (s.resolves .theme)).map (eraseEntry s) := by
  induction rs with
  | nil => rfl
  | cons r rs ih =>
    rw [eraseEntries, List.filter_cons, ih]
    split <;> rfl

/-- The kept entries are those that have a value. -/
theorem map_fst_keptEntries (s : Scope) (rs : List (Ref Theme)) :
    (keptEntries s rs).map Prod.fst = rs.filter (s.resolves .theme) := by
  have numbered : (rs.zipIdx.map Prod.fst).filter (s.resolves .theme) = (keptEntries s rs).map Prod.fst :=
    List.filter_map
  rw [← numbered, List.zipIdx_map_fst]

/-- The inherited themes of an erased theme, by the numbers of the entries that are left. -/
theorem eraseEntries_keptEntries (s : Scope) (rs : List (Ref Theme)) :
    eraseEntries s rs = (keptEntries s rs).map fun e => eraseEntry s e.1 := by
  rw [eraseEntries_eq, ← map_fst_keptEntries, List.map_map]
  rfl

/-- The names in a theme are those in its inherited themes and those in its own fields. -/
theorem uses_eq (path : Path) (t : Theme) :
    t.uses path = entriesUses (path.key "inherits") 0 t.inherits ++ t.ownUses path := by
  cases t
  rw [uses]
  rfl

/-- The names left in inherited themes, if so for those that are written in place. -/
theorem keeps_entries {s : Scope} {rs : List (Ref Theme)} (p q : Path) (i j : Nat)
    (h : ∀ u, Ref.inline u ∈ rs → ∀ p q, Keeps s ((u.erase s).uses p) (u.uses q)) :
    Keeps s (entriesUses p i (eraseEntries s rs)) (entriesUses q j rs) := by
  induction rs generalizing i j with
  | nil => exact .nil
  | cons r rs ih =>
    have rest (i : Nat) := ih i (j + 1) fun u hu => h u (List.mem_cons_of_mem r hu)
    have first : Keeps s (if s.resolves .theme r then entryUses (p.index i) (eraseEntry s r) else [])
        (entryUses (q.index j) r) := by
      cases r with
      | named name =>
        rw [eraseEntry, entryUses, entryUses]
        exact .named
      | inline u =>
        have present : s.resolves .theme (.inline u) = true := rfl
        rw [present, if_pos rfl, eraseEntry, entryUses, entryUses]
        exact h u List.mem_cons_self _ _
    rw [eraseEntries, entriesUses]
    cases hr : s.resolves .theme r with
    | true =>
      rw [hr, if_pos rfl] at first
      rw [if_pos rfl, entriesUses]
      exact first.append (rest _)
    | false =>
      rw [hr, if_neg Bool.false_ne_true] at first
      rw [if_neg Bool.false_ne_true]
      exact first.append (rest i)

/-- The names left in a theme are those that have a value. -/
theorem keeps_uses (s : Scope) (t : Theme) (p q : Path) : Keeps s ((t.erase s).uses p) (t.uses q) := by
  induction t using inherits_induction generalizing p q with
  | h t ih =>
    rw [uses_eq, uses_eq, inherits_erase]
    exact (keeps_entries _ _ 0 0 ih).append (keeps_own p q t)

/-- The names in inherited themes are those in each of them, at its number. -/
theorem entriesUses_eq (path : Path) (i : Nat) (rs : List (Ref Theme)) :
    entriesUses path i rs = (rs.zipIdx i).flatMap fun e => entryUses (path.index e.2) e.1 := by
  induction rs generalizing i with
  | nil => rfl
  | cons r rs ih => rw [entriesUses, ih, List.zipIdx_cons, List.flatMap_cons]

end Theme

/-- The value of an inherited theme, or nothing. -/
theorem Scope.resolves_theme (s : Scope) (r : Ref Theme) : s.resolves .theme r = (s.themeOf? r).isSome := by
  cases r with
  | inline t => rfl
  | named name => exact Option.isSome_map

namespace Cascade

variable {s : Scope}

/-- Inherited themes are laid over each other. -/
theorem value_inherited_foldl (s : Scope) (chain : List Origin) (path : Path) (i : Nat) (base : SheetTheme)
    (rs : List (Ref Theme)) :
    (inherited s chain path i base rs).value =
      (rs.map fun r => (expand s chain (return {}) .root r).value).foldl SheetTheme.overlay base := by
  induction rs generalizing i base with
  | nil => simp only [inherited, Outcome.value_pure, List.map_nil, List.foldl_nil]
  | cons r rs ih =>
    simp only [inherited, Outcome.value_bind, List.map_cons, List.foldl_cons]
    rw [ih, (expand_relocates s chain r).value_eq (path.index i) .root]

/-- Inherited themes report one after another, each at its number. -/
theorem issues_inherited_flatMap (s : Scope) (chain : List Origin) (path : Path) (i : Nat) (base : SheetTheme)
    (rs : List (Ref Theme)) :
    (inherited s chain path i base rs).issues =
      (rs.zipIdx i).flatMap fun e => (expand s chain (return {}) (path.index e.2) e.1).issues := by
  induction rs generalizing i base with
  | nil => simp only [inherited, Outcome.issues_pure, List.zipIdx_nil, List.flatMap_nil]
  | cons r rs ih =>
    simp only [inherited, Outcome.issues_bind, List.zipIdx_cons, List.flatMap_cons]
    rw [ih]

/-- Themes without those that make nothing come to the same. -/
theorem foldl_eraseEntries {V : Ref Theme → SheetTheme} {rs : List (Ref Theme)} (base : SheetTheme)
    (same : ∀ r ∈ rs, V (Theme.eraseEntry s r) = V r)
    (lost : ∀ r ∈ rs, s.resolves .theme r = false → V r = {}) :
    ((Theme.eraseEntries s rs).map V).foldl SheetTheme.overlay base =
      (rs.map V).foldl SheetTheme.overlay base := by
  induction rs generalizing base with
  | nil => rfl
  | cons r rs ih =>
    have rest (base : SheetTheme) := ih base (fun u hu => same u (List.mem_cons_of_mem r hu))
      fun u hu => lost u (List.mem_cons_of_mem r hu)
    rw [Theme.eraseEntries]
    cases hr : s.resolves .theme r with
    | true =>
      simp only [↓reduceIte, List.map_cons, List.foldl_cons]
      rw [same r List.mem_cons_self, rest]
    | false =>
      simp only [Bool.false_eq_true, ↓reduceIte, List.map_cons, List.foldl_cons]
      rw [lost r List.mem_cons_self hr, SheetTheme.overlay_empty, rest]

/-- A theme makes the same without the references that have no value. -/
theorem value_expand_erase (s : Scope) (t : Theme) (chain : List Origin) :
    (expand s chain (return {}) .root (.inline (t.erase s))).value =
      (expand s chain (return {}) .root (.inline t)).value := by
  induction t using Theme.inherits_induction generalizing chain with
  | h t ih =>
    rw [(expand_inline s chain _ _ _).1, (expand_inline s chain _ _ _).1, (ownTheme_losesOnly t).value,
      Theme.inherits_erase, value_inherited_foldl, value_inherited_foldl, foldl_eraseEntries]
    · intro r hr
      cases r with
      | named name => rw [Theme.eraseEntry]
      | inline u =>
        rw [Theme.eraseEntry]
        exact ih u hr _
    · intro r _ hr
      rw [s.resolves_theme, Option.isSome_eq_false_iff, Option.isNone_iff_eq_none] at hr
      exact (expand_of_missing hr _ _ _).2

/-! ## Issues at their original places -/

/-- The issue of a name without a theme. -/
theorem issues_expand_of_error {name : String} {fault : NameFault} (h : s.resolve .theme name = .error fault)
    (chain : List Origin) (ancestors : Outcome SheetTheme) (path : Path) :
    (expand s chain ancestors path (.named name)).issues = [fault.issue Kind.theme.label path] := by
  rw [expand]
  split
  · rename_i site origin t walk
    have hr : s.resolve .theme name = .ok ⟨t, .definition site origin⟩ := Layers.resolve_of_value walk
    rw [hr] at h
    cases h
  · rename_i names walk
    have hr : s.resolve .theme name = .error (.circular names) := Layers.resolve_of_circular walk
    rw [hr] at h
    cases h
    rfl
  · rename_i names last walk
    have hr : s.resolve .theme name = .error (.unknown names last) := Layers.resolve_of_missing walk
    rw [hr] at h
    cases h
    rfl

/-- What an inherited theme reports besides its names without a value: the issues of the erased theme at
their original places. -/
def otherIssues (s : Scope) (chain : List Origin) (path : Path) (r : Ref Theme) : List Issue :=
  ((expand s chain (return {}) .root (Theme.eraseEntry s r)).issues.map
    (Issue.moved (Theme.entryOriginal s r))).map (Issue.below path)

/-- A theme that is named has one issue if it has no value, and else only its other issues. -/
theorem issues_named (chain : List Origin) (path : Path) (name : String) :
    (expand s chain (return {}) path (.named name)).issues =
      (Theme.entryUses path (.named name)).filterMap (·.fault? s) ++
        if s.resolves .theme (.named name) then otherIssues s chain path (.named name) else [] := by
  have uses : Theme.entryUses path (.named name) = [⟨path, .theme, name⟩] := by rw [Theme.entryUses]
  rw [uses]
  cases h : s.resolve .theme name with
  | ok found =>
    have hfault : NamedUse.fault? s ⟨path, .theme, name⟩ = none := NamedUse.fault?_of_ok h
    have unmoved : Issue.moved (Theme.entryOriginal s (.named name)) = id := funext Issue.moved_id
    rw [List.filterMap_cons_none hfault, Scope.resolves_of_ok h, otherIssues, Theme.eraseEntry, unmoved,
      List.map_id, (expand_relocates s chain (.named name)).issues_eq path]
    rfl
  | error fault =>
    have hfault : NamedUse.fault? s ⟨path, .theme, name⟩ = some (fault.issue Kind.theme.label path) :=
      NamedUse.fault?_of_error h
    rw [List.filterMap_cons_some hfault, Scope.resolves_of_error h, issues_expand_of_error h]
    rfl

/-- The entries of an erased theme report what the entries of the theme report besides names without a
value. -/
theorem otherIssues_inherited (s : Scope) (chain : List Origin) (path : Path) (t : Theme) :
    ((inherited s chain (Path.root.key "inherits") 0 {} (t.erase s).inherits).issues.map
      (Issue.moved (t.original s))).map (Issue.below path) =
        (Theme.keptEntries s t.inherits).flatMap fun e =>
          otherIssues s chain ((path.key "inherits").index e.2) e.1 := by
  rw [Theme.inherits_erase, Theme.eraseEntries_keptEntries, issues_inherited_flatMap, List.map_flatMap,
    List.map_flatMap]
  refine flatMap_zipIdx_map fun i e he => ?_
  have relocated := (expand_relocates s chain (Theme.eraseEntry s e.1)).issues_eq
    ((Path.root.key "inherits").index i)
  simp only [relocated, otherIssues, List.map_map]
  exact List.map_congr_left fun x _ => Theme.moved_entry he path x

/-- Own fields have no other issues at other places. -/
theorem otherIssues_own (s : Scope) (path : Path) (t u : Theme) :
    ((s.ownTheme .root u).issues.map (Issue.moved (t.original s))).map (Issue.below path) =
      (s.ownTheme path u).issues := by
  have own : (s.ownTheme .root u).All fun i => ∃ name, name ≠ "inherits" ∧ i.Under (Path.root.key name) :=
    .bind (.forOption (fun c => (s.valueOf_naming .color _ c).under.mono fun _ h => ⟨_, by decide, h⟩) _)
      fun _ => .bind ((s.bucket_naming _ _).under.mono fun _ h => ⟨_, by decide, h⟩)
      fun _ => .bind ((s.bucket_naming _ _).under.mono fun _ h => ⟨_, by decide, h⟩)
      fun _ => .bind ((s.bucket_naming _ _).under.mono fun _ h => ⟨_, by decide, h⟩) fun _ => .pure _
  have unmoved : (s.ownTheme .root u).issues.map (Issue.moved (t.original s)) =
      (s.ownTheme .root u).issues.map id := by
    refine List.map_congr_left fun i hi => ?_
    obtain ⟨name, hname, under⟩ := own i hi
    exact Theme.moved_of_under hname under
  rw [unmoved, List.map_id, (s.ownTheme_relocates u).issues_eq path]

/-- The other issues of a theme are those of its entries with a value, then those of its own fields. -/
theorem otherIssues_inline (s : Scope) (chain : List Origin) (path : Path) (t : Theme) :
    otherIssues s chain path (.inline t) =
      ((Theme.keptEntries s t.inherits).flatMap fun e =>
        otherIssues s (chain ++ [.inline]) ((path.key "inherits").index e.2) e.1) ++
      (s.ownTheme path (t.erase s)).issues := by
  rw [otherIssues, Theme.eraseEntry, (expand_inline s chain _ _ _).2, Outcome.issues_pure, List.nil_append,
    List.map_append, List.map_append, ← otherIssues_inherited]
  exact congrArg _ (otherIssues_own s path t (t.erase s))

/-- A theme has one issue for each name in it that has no value, and its other issues. -/
theorem issues_expand_erase (s : Scope) (t : Theme) (chain : List Origin) (path : Path) :
    (expand s chain (return {}) path (.inline t)).issues.Perm
      ((t.uses path).filterMap (·.fault? s) ++ otherIssues s chain path (.inline t)) := by
  induction t using Theme.inherits_induction generalizing chain path with
  | h t ih =>
    have entries (e : Ref Theme × Nat) (he : e ∈ t.inherits.zipIdx) :
        (expand s (chain ++ [.inline]) (return {}) ((path.key "inherits").index e.2) e.1).issues.Perm
          ((Theme.entryUses ((path.key "inherits").index e.2) e.1).filterMap (·.fault? s) ++
            if s.resolves .theme e.1 then
              otherIssues s (chain ++ [.inline]) ((path.key "inherits").index e.2) e.1
            else []) := by
      obtain ⟨r, k⟩ := e
      cases r with
      | named name => rw [issues_named]
      | inline u =>
        rw [Theme.entryUses]
        exact ih u (List.fst_mem_of_mem_zipIdx he) _ _
    have own : (s.ownTheme path t).issues.Perm _ := (ownTheme_losesOnly t).issues
    rw [(expand_inline s chain _ _ _).2, Outcome.issues_pure, List.nil_append, issues_inherited_flatMap,
      Theme.uses_eq, otherIssues_inline, List.filterMap_append, Theme.entriesUses_eq, List.filterMap_flatMap,
      Theme.keptEntries, flatMap_filter]
    refine (List.Perm.append ?_ own).trans (perm_append_append _ _ _ _)
    exact (List.Perm.flatMap_left _ entries).trans (List.flatMap_append_perm _ _ _).symm

/-- The other issues of a theme are the issues of the erased theme at their original places. -/
theorem otherIssues_eq (s : Scope) (chain : List Origin) (path : Path) (t : Theme) :
    otherIssues s chain path (.inline t) =
      (expand s chain (return {}) path (.inline (t.erase s))).issues.map (Issue.originalIn s path t) := by
  rw [(expand_relocates s chain _).issues_eq path, otherIssues, List.map_map, List.map_map, Theme.eraseEntry]
  exact List.map_congr_left fun i _ => (Theme.originalIn_below s path t i).symm

/-- References without a value cost only themselves. A theme makes the same sheet theme when it is rid of
them, also over ancestors and while other themes are being expanded. It has the issues of its ancestors, one
issue for each name in it that has no value, where that name stands, and the issues of the erased theme at
their original places. The names that are left in the erased theme are those that have a value. -/
theorem lost_references_cost_themselves (s : Scope) (chain : List Origin) (ancestors : Outcome SheetTheme)
    (path : Path) (t : Theme) :
    (expand s chain ancestors path (.inline (t.erase s))).value =
      (expand s chain ancestors path (.inline t)).value ∧
    (expand s chain ancestors path (.inline t)).issues.Perm
      (ancestors.issues ++ ((t.uses path).filterMap (·.fault? s) ++
        (expand s chain (return {}) path (.inline (t.erase s))).issues.map (Issue.originalIn s path t))) ∧
    ((t.erase s).uses path).map NamedUse.target =
      ((t.uses path).filter (·.resolves s)).map NamedUse.target := by
  have laid (u : Theme) :
      (expand s chain ancestors path (.inline u)).value =
        ancestors.value.overlay (expand s chain (return {}) path (.inline u)).value ∧
      (expand s chain ancestors path (.inline u)).issues =
        ancestors.issues ++ (expand s chain (return {}) path (.inline u)).issues :=
    expand_over (rfl : s.themeOf? (.inline u) = some ⟨u, .inline⟩) id ancestors path
  refine ⟨?_, ?_, Theme.keeps_uses s t path path⟩
  · have alone (u : Theme) := (expand_relocates s chain (.inline u)).value_eq path .root
    rw [(laid _).1, (laid _).1, alone, alone, value_expand_erase]
  · rw [(laid t).2, ← otherIssues_eq]
    exact (issues_expand_erase s t chain path).append_left _

end Cascade

end Workbook
