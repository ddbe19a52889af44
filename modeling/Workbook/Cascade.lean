import Workbook.Outcome

/-!
# The cascade of themes

Resolving declared styles and themes. A theme is folded from its ancestors, from the themes that it
inherits, and from its own fields, a later field winning over an earlier one. A theme that comes back to
itself through `inherits` is reported instead of followed. The expansion ends: a named theme is a
definition that is not yet being expanded, and an inherited theme that is written in place is a part of
the theme around it.
-/

namespace Workbook

namespace Scope

/-- The color of a declared color, or nothing with an issue. -/
def color (s : Scope) (path : Path) (c : Ref Color) : Outcome (Option Color) := s.valueOf .color path c

/-- The border of a declared border. A color without a value is left out. -/
def border (s : Scope) (path : Path) (b : Border) : Outcome SheetBorder := do
  let color ← Outcome.forOption (s.color (path.key "color")) b.color
  return ⟨b.style, color⟩

/-- The fields of a declared style. -/
def styleFields (s : Scope) (path : Path) (t : Style) : Outcome SheetStyle := do
  let fore ← Outcome.forOption (s.color (path.key "fore")) t.fore
  let back ← Outcome.forOption (s.color (path.key "back")) t.back
  let beneath ← t.beneath.mapM (s.border (path.key "beneath"))
  let between ← t.between.mapM (s.border (path.key "between"))
  return { fore, back, bold := t.bold, italic := t.italic, beneath, between }

/-- The style of a declared style. A reference without a value defines nothing. -/
def style (s : Scope) (path : Path) (t : Ref Style) : Outcome SheetStyle := do
  match ← s.valueOf .style path t with
  | some t => s.styleFields path t
  | none => return {}

/-- A style of a theme, which defines nothing when it is absent. -/
def bucket (s : Scope) (path : Path) : Option (Ref Style) → Outcome SheetStyle
  | some t => s.style path t
  | none => return {}

/-- A theme's own fields. -/
def ownTheme (s : Scope) (path : Path) (t : Theme) : Outcome SheetTheme := do
  let tab ← Outcome.forOption (s.color (path.key "tab")) t.tab
  let group ← s.bucket (path.key "group") t.group
  let header ← s.bucket (path.key "header") t.header
  let data ← s.bucket (path.key "data") t.data
  return ⟨tab, group, header, data⟩

end Scope

namespace Cascade

/-- The issue of a theme that comes back to itself, met while some themes are being expanded. -/
def circular (path : Path) (name : String) (depth : Nat) : Issue :=
  { Issue.processing ("circular theme inheritance: theme '" ++ Ref.textOf name ++
      "' inherits from itself") path with
    data := some (.object [("depth", .ofNat depth)]) }

/-- The definitions of themes in a scope. -/
def definitions (s : Scope) : List Origin :=
  s.themes.places.map fun (site, name) => .definition site name

/-- The number of definitions of themes that are not being expanded. -/
def unexpanded (s : Scope) (chain : List Origin) : Nat :=
  ((definitions s).filter fun o => decide (o ∉ chain)).length

/-- A theme that is written in place is no definition. -/
theorem unexpanded_inline (s : Scope) (chain : List Origin) :
    unexpanded s (chain ++ [.inline]) = unexpanded s chain := by
  unfold unexpanded
  congr 1
  apply List.filter_congr
  intro o ho
  simp only [definitions, List.mem_map] at ho
  obtain ⟨⟨site, name⟩, _, rfl⟩ := ho
  simp

/-- Expanding one more definition leaves fewer to expand. -/
theorem unexpanded_lt {s : Scope} {chain : List Origin} {site : Site} {start name : String}
    {value : Theme} (h : s.themes.walk [] start = .value site name value)
    (fresh : Origin.definition site name ∉ chain) :
    unexpanded s (chain ++ [.definition site name]) < unexpanded s chain := by
  apply Layers.filter_lt_of_mem _ fresh
  simp only [definitions, List.mem_map]
  exact ⟨(site, name), Layers.mem_places_of_walk h, rfl⟩

mutual
/-- The sheet theme of a declared theme, laid over that of its ancestors, while the themes of a chain are
being expanded. A theme without a value has an issue and leaves nothing, not even its ancestors. -/
def expand (s : Scope) (chain : List Origin) (ancestors : Outcome SheetTheme) (path : Path) :
    Ref Theme → Outcome SheetTheme
  | .inline t => do
    let base ← ancestors
    let base ← inherited s (chain ++ [.inline]) (path.key "inherits") 0 base t.inherits
    let own ← s.ownTheme path t
    return base.overlay own
  | .named name => do
    Outcome.record (.lookup s .theme name)
    match _found : s.themes.walk [] name with
    | .value site origin t =>
      if _seen : Origin.definition site origin ∈ chain then
        Outcome.report (circular path name chain.length)
        return {}
      else
        let base ← ancestors
        let base ← inherited s (chain ++ [.definition site origin]) (path.key "inherits") 0 base t.inherits
        let own ← s.ownTheme path t
        return base.overlay own
    | .circular names =>
      Outcome.report ((NameFault.circular names).issue Kind.theme.label path)
      return {}
    | .missing names last =>
      Outcome.report ((NameFault.unknown names last).issue Kind.theme.label path)
      return {}
termination_by t => (unexpanded s chain, sizeOf t)
decreasing_by
  · simp only [unexpanded_inline]
    apply Prod.Lex.right
    cases t
    simp only [Ref.inline.sizeOf_spec, Theme.mk.sizeOf_spec]
    omega
  · exact Prod.Lex.left _ _ (unexpanded_lt _found _seen)

/-- A sheet theme overlaid by inherited themes, the first of which has a number in its list. -/
def inherited (s : Scope) (chain : List Origin) (path : Path) (i : Nat) (base : SheetTheme) :
    List (Ref Theme) → Outcome SheetTheme
  | [] => return base
  | t :: ts => do
    let theme ← expand s chain (return {}) (path.index i) t
    inherited s chain path (i + 1) (base.overlay theme) ts
termination_by ts => (unexpanded s chain, sizeOf ts)
end

/-- A theme with nothing around it. -/
def resolve (s : Scope) (path : Path) (t : Ref Theme) : Outcome SheetTheme :=
  expand s [] (return {}) path t

/-- Themes folded in order, each resolved on its own. -/
def fold (s : Scope) (path : Path) (base : SheetTheme) : List (Ref Theme) → Outcome SheetTheme
  | [] => return base
  | t :: ts => do
    let theme ← resolve s path t
    fold s path (base.overlay theme) ts

/-- A theme over those of its ancestors, the outermost first. -/
def resolveOver (s : Scope) (ancestors : List (Ref Theme)) (path : Path) (t : Ref Theme) :
    Outcome SheetTheme :=
  expand s [] (fold s path {} ancestors) path t

end Cascade

end Workbook
