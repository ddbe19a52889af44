import Workbook.Proofs.Registries

/-!
# Sessions as trees of registries

The scopes of a session are, kind by kind, a tree of registries, and asking a session is asking the tree
of the kind. So the answers of a session are those of its scopes: nothing that was asked before shows.
-/

namespace Workbook

namespace Memos

/-- The memory of a kind is the one that is put there. -/
theorem get_set (m : Memos) (k : Kind) (n : Memo k.Value) : (m.set k n).get k = n := by
  cases k <;> rfl

/-- The memories of other kinds stay. -/
theorem get_set_of_ne (m : Memos) {k k' : Kind} (h : k' ≠ k) (n : Memo k.Value) :
    (m.set k n).get k' = m.get k' := by
  cases k <;> cases k' <;> first | rfl | exact absurd rfl h

end Memos

namespace Scope

/-- Definitions on top of a scope are on top of its layers of each kind. -/
theorem layers_overlay (s : Scope) (site : Site) (definitions : Option Definitions) (k : Kind) :
    (s.overlay site definitions).layers k =
      (s.layers k).overlay site ((definitions.getD {}).entries k) := by
  cases k <;> rfl

/-- Definitions change no library. -/
theorem standard_overlay (s : Scope) (site : Site) (definitions : Option Definitions) (k : Kind) :
    (s.overlay site definitions).standard k = s.standard k := by
  cases k <;> rfl

/-- The level of the root is the root. -/
theorem site_root (definitions : Option Definitions) (options : CompileOptions) (k : Kind) :
    ((root definitions options).layers k).site = [] := by
  have hnone (palette formats : Bool) :
      layers { standardPalette := palette, standardFormats := formats } k = [] := by
    cases k <;> rfl
  rw [root, layers_overlay, hnone, Layers.overlay]
  split <;> rfl

end Scope

namespace Session

/-- The registries of a kind in a session. -/
def registries (s : Session) (k : Kind) : Registries k.Value :=
  ⟨s.scopes.map (·.layers k), s.memos.get k⟩

/-- A registry sees the layers of the scope with its number. -/
theorem view_registries (s : Session) (n : Nat) (k : Kind) :
    (s.registries k).view n = (s.scope n).layers k := by
  have hnone : ({ standardPalette := false, standardFormats := false } : Scope).layers k = [] := by
    cases k <;> rfl
  unfold Registries.view scope registries
  rw [← hnone]
  exact getD_headD_map (fun s : Scope => s.layers k) s.scopes n _

/-- A number means one of the scopes. -/
theorem scope_mem {s : Session} (h : s.scopes ≠ []) (n : Nat) : s.scope n ∈ s.scopes :=
  getD_headD_mem h n _

/-- A session starts with the definitions of the book. -/
theorem registries_start (definitions : Option Definitions) (options : CompileOptions) (k : Kind) :
    (start definitions options).registries k = Registries.root ((definitions.getD {}).entries k) := by
  cases k <;> rfl

/-- Opening a scope opens a registry of every kind. -/
theorem registries_overlay (s : Session) (parent : Nat) (definitions : Option Definitions) (k : Kind) :
    (s.overlay parent definitions).registries k =
      (s.registries k).overlay parent ((definitions.getD {}).entries k) := by
  have hviews : (s.overlay parent definitions).scopes.map (·.layers k) =
      s.scopes.map (·.layers k) ++
        [((s.registries k).view parent).overlay [s.scopes.length] ((definitions.getD {}).entries k)] := by
    rw [overlay, List.map_append, List.map_singleton, Scope.layers_overlay, view_registries]
  have hlength : (s.registries k).views.length = s.scopes.length := List.length_map _
  rw [registries, hviews, Registries.overlay, hlength]
  rfl

/-- Asking a session is asking the registries of the kind. -/
theorem resolve_registries (s : Session) (n : Nat) (k : Kind) (name : String) :
    (s.resolve n k name).1 = ((s.registries k).resolve ((s.scope n).standard k) n name).1 ∧
      (s.resolve n k name).2.registries k =
        ((s.registries k).resolve ((s.scope n).standard k) n name).2 := by
  unfold Registries.resolve
  rw [view_registries]
  refine ⟨rfl, ?_⟩
  unfold registries
  rw [Registries.mk.injEq]
  exact ⟨rfl, Memos.get_set _ _ _⟩

/-- Asking for a name of one kind leaves the registries of the others. -/
theorem registries_resolve_of_ne (s : Session) (n : Nat) {k k' : Kind} (h : k' ≠ k) (name : String) :
    (s.resolve n k name).2.registries k' = s.registries k' := by
  unfold registries
  rw [Registries.mk.injEq]
  exact ⟨rfl, Memos.get_set_of_ne _ h _⟩

/-- The sessions that opening scopes and asking for names lead to. -/
inductive Reachable (definitions : Option Definitions) (options : CompileOptions) : Session → Prop
  | start : Reachable definitions options (start definitions options)
  | overlay {s : Session} (parent : Nat) (more : Option Definitions) :
    Reachable definitions options s → Reachable definitions options (s.overlay parent more)
  | resolve {s : Session} (n : Nat) (k : Kind) (name : String) :
    Reachable definitions options s → Reachable definitions options (s.resolve n k name).2

namespace Reachable

variable {definitions : Option Definitions} {options : CompileOptions} {s : Session}

/-- All scopes of a session have the libraries of its root. -/
theorem standard_scope (h : Reachable definitions options s) (n : Nat) (k : Kind) :
    (s.scope n).standard k = (Scope.root definitions options).standard k := by
  have hall : s.scopes ≠ [] ∧ ∀ scope ∈ s.scopes,
      scope.standard k = (Scope.root definitions options).standard k := by
    induction h with
    | start =>
      exact ⟨List.cons_ne_nil _ _, fun scope hs => by rw [List.mem_singleton.1 hs]⟩
    | @overlay s parent more _ ih =>
      obtain ⟨hne, hall⟩ := ih
      refine ⟨List.append_ne_nil_of_left_ne_nil hne _, fun scope hs => ?_⟩
      obtain hs | hs := List.mem_append.1 hs
      · exact hall scope hs
      · rw [List.mem_singleton.1 hs, Scope.standard_overlay]
        exact hall _ (scope_mem hne parent)
    | resolve n k name _ ih => exact ih
  exact hall.2 _ (scope_mem hall.1 n)

/-- The scope of the book stays the first. -/
theorem scope_zero (h : Reachable definitions options s) : s.scope 0 = Scope.root definitions options := by
  have hfirst : ∃ rest, s.scopes = Scope.root definitions options :: rest := by
    induction h with
    | start => exact ⟨[], rfl⟩
    | overlay parent more _ ih =>
      obtain ⟨rest, hrest⟩ := ih
      rw [Session.overlay, hrest, List.cons_append]
      exact ⟨_, rfl⟩
    | resolve n k name _ ih => exact ih
  obtain ⟨rest, hrest⟩ := hfirst
  rw [scope, hrest]
  rfl

/-- The registries of a session are sound. -/
theorem sound (h : Reachable definitions options s) (k : Kind) :
    (s.registries k).Sound ((Scope.root definitions options).standard k) := by
  induction h with
  | start =>
    rw [registries_start]
    exact Registries.sound_root _
  | overlay parent more _ ih =>
    rw [registries_overlay]
    exact Registries.sound_overlay ih _ _
  | @resolve s n k' name hs ih =>
    by_cases hk : k = k'
    · subst hk
      rw [(resolve_registries s n k name).2, hs.standard_scope]
      exact (Registries.resolve_sound ih n name).2
    · rw [registries_resolve_of_ne s n hk]
      exact ih

/-- A session answers as its scopes do. -/
theorem resolve_eq (h : Reachable definitions options s) (n : Nat) (k : Kind) (name : String) :
    (s.resolve n k name).1 = (s.scope n).resolve k name := by
  rw [(resolve_registries s n k name).1, h.standard_scope, (Registries.resolve_sound (h.sound k) n name).1,
    view_registries, Scope.resolve, h.standard_scope]

end Reachable

/-! ## Requests -/

/-- Something that is done with a session. -/
inductive Request where
  /-- Open a scope with definitions on top of another. -/
  | overlay (parent : Nat) (definitions : Option Definitions)
  /-- Ask a scope for a name, or take a value as it is written. -/
  | use (n : Nat) (k : Kind) (r : Ref k.Value)

/-- The session after a request. -/
def step (s : Session) : Request → Session
  | .overlay parent definitions => s.overlay parent definitions
  | .use n k r => (s.resolveRef n k r).2

/-- The session after requests in their order. -/
def perform (s : Session) (requests : List Request) : Session := requests.foldl step s

namespace Reachable

variable {definitions : Option Definitions} {options : CompileOptions} {s : Session}

/-- A request leads to a session that can be reached. -/
theorem step (h : Reachable definitions options s) (request : Request) :
    Reachable definitions options (s.step request) := by
  cases request with
  | overlay parent more => exact h.overlay parent more
  | use n k r =>
    cases r with
    | named name => exact h.resolve n k name
    | inline value => exact h

/-- Requests in their order lead to a session that can be reached. -/
theorem perform (h : Reachable definitions options s) (requests : List Request) :
    Reachable definitions options (s.perform requests) := by
  induction requests generalizing s with
  | nil => exact h
  | cons request rest ih => exact ih (h.step request)

end Reachable

end Session

end Workbook
