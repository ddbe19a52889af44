import Workbook.Proofs.FlatWalk
import Workbook.Session

/-!
# Memory never shows in an answer

Registries of one kind form a tree: each sees its own definitions over those of its parent, and shares
its parent's memory when it has no definitions of its own. Whatever was asked before, of whichever
registry, an answer is that of a search without memory in one flat list: the definitions from the root
down to the registry that is asked, inner ones first.

The invariant is that every remembered answer is the answer of a search at the level that remembers it.
The root remembers in addition what was taken from a library on behalf of other levels; that is the
root's own answer too, because a name that some level does not define is not defined at the root either.
-/

namespace Workbook

variable {α : Type}

/-! ## What a memory holds after a change -/

/-- Entries of other keys do not matter to a look-up. -/
theorem lookup_filter_ne {κ β : Type} [BEq κ] [LawfulBEq κ] [DecidableEq κ] {k key : κ} (h : k ≠ key)
    (entries : List (κ × β)) : (entries.filter (·.1 ≠ key)).lookup k = entries.lookup k := by
  induction entries with
  | nil => rfl
  | cons e rest ih =>
    obtain ⟨key', value⟩ := e
    by_cases hk : key' = key
    · subst hk
      rw [List.filter_cons_of_neg (by simp), ih, List.lookup_cons, beq_false_of_ne h]
    · rw [List.filter_cons_of_pos (by simpa using hk), List.lookup_cons, List.lookup_cons, ih]

/-- Reading a member by its number, or else the first one, commutes with a change of all members. -/
theorem getD_headD_map {β γ : Type} (f : β → γ) (as : List β) (n : Nat) (none : β) :
    (as.map f).getD n ((as.map f).headD (f none)) = f (as.getD n (as.headD none)) := by
  cases as with
  | nil => rfl
  | cons a rest =>
    rw [List.map_cons, List.headD_cons, List.headD_cons, ← List.map_cons, List.getD_eq_getElem?_getD,
      List.getD_eq_getElem?_getD, List.getElem?_map]
    cases (a :: rest)[n]? <;> rfl

/-- A member by its number, or else the first one, is a member. -/
theorem getD_headD_mem {β : Type} {as : List β} (h : as ≠ []) (n : Nat) (none : β) :
    as.getD n (as.headD none) ∈ as := by
  rw [List.getD_eq_getElem?_getD]
  cases hn : as[n]? with
  | some a => exact List.mem_of_getElem? hn
  | none =>
    cases as with
    | nil => exact absurd rfl h
    | cons a rest => exact List.mem_cons_self

namespace Memo

/-- A change of the memory of a level changes that memory only. -/
theorem at?_modify (m : Memo α) (site other : Site) (f : Recollection α → Recollection α) :
    (m.modify site f).at? other = if other = site then f (m.at? site) else m.at? other := by
  unfold modify at?
  split
  · rename_i h
    subst h
    rw [List.lookup_cons_self, Option.getD_some]
  · rename_i h
    rw [List.lookup_cons, beq_false_of_ne h]
    dsimp only
    rw [lookup_filter_ne h]

/-- A change that leaves the answers of its level leaves all answers. -/
theorem remembered?_modify {m : Memo α} {site : Site} {f : Recollection α → Recollection α}
    (hf : ∀ r, (f r).found = r.found) (other : Site) (name : String) :
    (m.modify site f).remembered? other name = m.remembered? other name := by
  rw [remembered?, remembered?, at?_modify]
  split
  · rename_i h
    rw [hf, h]
  · rfl

/-- Besides what was remembered, the new answer is remembered. -/
theorem remembered?_remember (m : Memo α) (site other : Site) (name asked : String) (answer : Found α) :
    (m.remember site name answer).remembered? other asked =
      if other = site ∧ asked = name then some answer else m.remembered? other asked := by
  rw [remembered?, remembered?, remember, at?_modify]
  by_cases hs : other = site
  · subst hs
    rw [if_pos rfl]
    by_cases hn : asked = name
    · subst hn
      rw [if_pos ⟨rfl, rfl⟩, List.lookup_cons_self]
    · rw [if_neg (fun h => hn h.2), List.lookup_cons, beq_false_of_ne hn]
  · rw [if_neg hs, if_neg (fun h => hs h.1)]

end Memo

/-! ## Sound memories -/

/-- Views of a tree: the layers that its registries see. A site belongs to one view, and names that a
view does not define are not defined at the root. -/
structure Coherent (views : Layers α → Prop) (root : Layers α) : Prop where
  root_mem : views root
  root_site : root.site = []
  site_inj : ∀ {a b}, views a → views b → a.site = b.site → a = b
  root_find? : ∀ {a}, views a → ∀ {name}, a.find? name = none → root.find? name = none

/-- What is remembered is remembered for a view, and is what a search there finds. -/
structure Memo.Sound (library : String → Option α) (views : Layers α → Prop) (m : Memo α) : Prop where
  known : ∀ {site name found}, m.remembered? site name = some found → ∃ a, views a ∧ a.site = site
  answers : ∀ {a}, views a → ∀ {name found}, m.remembered? a.site name = some found →
    a.resolve library name = .ok found

namespace Memo.Sound

variable {library : String → Option α} {views : Layers α → Prop} {root : Layers α} {m : Memo α}

/-- A memory that holds nothing is sound. -/
theorem empty : (({} : Memo α)).Sound library views where
  known h := by cases h
  answers _ _ _ h := by cases h

/-- Only what is remembered matters. -/
theorem congr (hm : m.Sound library views) {n : Memo α}
    (h : ∀ site name, n.remembered? site name = m.remembered? site name) : n.Sound library views where
  known hr := hm.known (by rw [← h]; exact hr)
  answers ha _ _ hr := hm.answers ha (by rw [← h]; exact hr)

/-- Remembering at a view what a search there finds keeps a memory sound. -/
theorem remember (hc : Coherent views root) (hm : m.Sound library views) {a : Layers α} (ha : views a)
    {name : String} {answer : Found α} (h : a.resolve library name = .ok answer) :
    (m.remember a.site name answer).Sound library views where
  known hr := by
    rw [remembered?_remember] at hr
    split at hr
    · rename_i hs
      exact ⟨a, ha, hs.1.symm⟩
    · exact hm.known hr
  answers {b} hb {asked} {found} hr := by
    rw [remembered?_remember] at hr
    split at hr
    · rename_i hs
      rw [hc.site_inj hb ha hs.1, hs.2, h]
      exact congrArg Except.ok (Option.some.inj hr)
    · exact hm.answers hb hr

end Memo.Sound

/-! ## One question -/

namespace Memo

variable {library : String → Option α} {views : Layers α → Prop} {root : Layers α} {m : Memo α}

/-- A name that a view does not define is taken from the library, whether or not the root remembers it. -/
theorem standard?_sound (hc : Coherent views root) (hm : m.Sound library views) {name : String}
    (h : root.find? name = none) :
    (library name = none ∧ m.standard? library name = none) ∨
      ∃ value n events, library name = some value ∧ n.Sound library views ∧
        m.standard? library name = some (⟨value, .standard name⟩, n, events) := by
  have hroot : root.resolve library name = _ := Layers.resolve_of_missing (Layers.walk_missing List.not_mem_nil h)
  unfold standard?
  cases hr : m.remembered? [] name with
  | some answer =>
    have hanswer : root.resolve library name = .ok answer := by
      apply hm.answers hc.root_mem
      rw [hc.root_site]
      exact hr
    rw [hanswer] at hroot
    cases hl : library name with
    | none =>
      rw [hl] at hroot
      cases hroot
    | some value =>
      rw [hl] at hroot
      cases hroot
      exact .inr ⟨value, m, [], rfl, hm, rfl⟩
  | none =>
    cases hl : library name with
    | none => exact .inl ⟨rfl, rfl⟩
    | some value =>
      rw [hl] at hroot
      have hn := Sound.remember hc hm hc.root_mem hroot
      rw [hc.root_site] at hn
      exact .inr ⟨value, _, [.standard name], rfl, hn, rfl⟩

/-- A search answers as one without memory does, and leaves the memory sound. -/
theorem search_sound (hc : Coherent views root) (hm : m.Sound library views) {a : Layers α} (ha : views a)
    (name : String) :
    (m.search library a name).1 = a.resolve library name ∧
      (m.search library a name).2.1.Sound library views := by
  unfold search
  cases hw : a.walk [] name with
  | circular chain => exact ⟨(Layers.resolve_of_circular hw).symm, hm⟩
  | value site origin value =>
    have hresolve : a.resolve library name = _ := Layers.resolve_of_value hw
    exact ⟨hresolve.symm, hm.remember hc ha hresolve⟩
  | missing chain last =>
    have hresolve : a.resolve library name = _ := Layers.resolve_of_missing hw
    have hlast : root.find? last = none := hc.root_find? ha (Layers.find?_of_walk_missing hw)
    obtain ⟨hl, hs⟩ | ⟨value, n, events, hl, hn, hs⟩ := standard?_sound hc hm hlast
    · simp only [hl] at hresolve
      simp only [hs]
      exact ⟨hresolve.symm, hm⟩
    · simp only [hl] at hresolve
      simp only [hs]
      exact ⟨hresolve.symm, hn.remember hc ha hresolve⟩

/-- A question is answered as a search without memory answers it, and leaves the memory sound. -/
theorem resolve_sound (hc : Coherent views root) (hm : m.Sound library views) {a : Layers α}
    (ha : views a) (name : String) :
    (m.resolve library a name).1 = a.resolve library name ∧
      (m.resolve library a name).2.1.Sound library views := by
  unfold resolve
  cases hr : m.remembered? a.site name with
  | some answer =>
    exact ⟨(hm.answers ha hr).symm, hm.congr (remembered?_modify fun _ => rfl)⟩
  | none =>
    have hcounted : (m.modify a.site fun r => { r with walks := r.walks + 1 }).Sound library views :=
      hm.congr (remembered?_modify fun _ => rfl)
    exact search_sound hc hcounted ha name

end Memo

/-! ## Trees of registries -/

/-- Registries of one kind by number, the root first: the layers that each of them sees, and what is
remembered. -/
structure Registries (α : Type) where
  views : List (Layers α)
  memo : Memo α := {}

/-- Something that is done with a tree of registries. -/
inductive Request (α : Type) where
  /-- Open a registry with definitions on top of another. -/
  | overlay (parent : Nat) (definitions : List (String × Ref α))
  /-- Ask a registry for a name that is used at a path. -/
  | resolve (registry : Nat) (name : String) (path : Path)

/-- The value of a name, or the issue at the path where it is used. -/
def answerAt (kind : String) (path : Path) (r : Except NameFault α) : Except Issue α :=
  r.mapError (NameFault.issue kind path)

namespace Registries

/-- The root alone. -/
def root (definitions : List (String × Ref α)) : Registries α :=
  { views := [Layers.overlay [] definitions []] }

/-- What a registry sees; numbers of no registry mean the root. -/
def view (r : Registries α) (n : Nat) : Layers α := r.views.getD n (r.views.headD [])

/-- Open a registry on top of another. Without definitions it is the other one itself. -/
def overlay (r : Registries α) (parent : Nat) (definitions : List (String × Ref α)) : Registries α :=
  { r with views := r.views ++ [(r.view parent).overlay [r.views.length] definitions] }

/-- Ask a registry for a name. -/
def resolve (r : Registries α) (library : String → Option α) (n : Nat) (name : String) :
    Except NameFault (Found α) × Registries α :=
  let (answer, memo, _) := r.memo.resolve library (r.view n) name
  (answer, { r with memo })

/-- The registries after requests in their order. -/
def perform (library : String → Option α) (r : Registries α) : List (Request α) → Registries α
  | [] => r
  | .overlay parent definitions :: rest => perform library (r.overlay parent definitions) rest
  | .resolve n name _ :: rest => perform library (r.resolve library n name).2 rest

/-- The answers to requests in their order, for definitions of a kind with some libraries. -/
def run (kind : String) (libraries : List (String → Option α)) (r : Registries α) :
    List (Request α) → List (Except Issue α)
  | [] => []
  | .overlay parent definitions :: rest => run kind libraries (r.overlay parent definitions) rest
  | .resolve n name path :: rest =>
    let (answer, r) := r.resolve (fun name => libraries.findSome? fun library => library name) n name
    answerAt kind path (answer.map Found.value) :: run kind libraries r rest

/-- The answers of searches without memory, each in the one list of definitions from the root down to the
registry that is asked. -/
def flatRun (kind : String) (libraries : List (String → Option α))
    (flats : List (List (String × Ref α))) : List (Request α) → List (Except Issue α)
  | [] => []
  | .overlay parent definitions :: rest =>
    flatRun kind libraries (flats ++ [definitions ++ flats.getD parent (flats.headD [])]) rest
  | .resolve n name path :: rest =>
    answerAt kind path (follow libraries (flats.getD n (flats.headD [])) [] name) ::
      flatRun kind libraries flats rest

/-- Every registry sees the root, a site belongs to one view, and what is remembered is right. -/
structure Sound (library : String → Option α) (r : Registries α) : Prop where
  coherent : ∃ root, Coherent (· ∈ r.views) root
  site : ∀ a ∈ r.views, a.site = [] ∨ ∃ n < r.views.length, a.site = [n]
  memo : r.memo.Sound library (· ∈ r.views)

variable {library : String → Option α} {r : Registries α}

/-- A registry sees one of the views. -/
theorem view_mem (hr : r.Sound library) (n : Nat) : r.view n ∈ r.views := by
  obtain ⟨root, hc⟩ := hr.coherent
  exact getD_headD_mem (List.ne_nil_of_mem hc.root_mem) n []

/-- The registry of the root is sound. -/
theorem sound_root (definitions : List (String × Ref α)) : (root definitions).Sound library where
  coherent := by
    refine ⟨Layers.overlay [] definitions [], List.mem_singleton.2 rfl, ?_, ?_, ?_⟩
    · unfold Layers.overlay
      split <;> rfl
    · intro a b ha hb _
      rw [List.mem_singleton.1 ha, List.mem_singleton.1 hb]
    · intro a ha name h
      rw [← List.mem_singleton.1 ha]
      exact h
  site a ha := by
    rw [List.mem_singleton.1 ha]
    left
    unfold Layers.overlay
    split <;> rfl
  memo := .empty

/-- A site that no view has yet stays apart from those that views have. -/
theorem ne_newSite (hr : r.Sound library) {a : Layers α} (ha : a ∈ r.views) :
    a.site ≠ [r.views.length] := by
  intro h
  obtain hs | ⟨n, hn, hs⟩ := hr.site a ha
  · rw [hs] at h
    cases h
  · rw [hs, List.cons.injEq] at h
    omega

/-- A registry that defines nothing shares the view of its parent. -/
theorem mem_views_overlay_nil (hr : r.Sound library) (parent : Nat) (a : Layers α) :
    a ∈ (r.overlay parent []).views ↔ a ∈ r.views := by
  rw [overlay, Layers.overlay, if_pos List.isEmpty_nil, List.mem_append, List.mem_singleton]
  exact ⟨fun h => h.elim id fun he => he ▸ view_mem hr parent, .inl⟩

/-- A registry with definitions has one view more, at a site of its own. -/
theorem mem_views_overlay {definitions : List (String × Ref α)} (hsome : ¬definitions.isEmpty) (parent : Nat)
    (a : Layers α) : a ∈ (r.overlay parent definitions).views ↔
      a ∈ r.views ∨ a = ⟨[r.views.length], definitions⟩ :: r.view parent := by
  rw [overlay, Layers.overlay, if_neg hsome, List.mem_append, List.mem_singleton]

/-- A registry that shares the view of its parent keeps a tree sound. -/
theorem sound_overlay_nil (hr : r.Sound library) (parent : Nat) : (r.overlay parent []).Sound library := by
  obtain ⟨root, hc⟩ := hr.coherent
  have hviews := mem_views_overlay_nil hr parent
  have hlength : (r.overlay parent []).views.length = r.views.length + 1 := List.length_append
  refine ⟨⟨root, (hviews root).2 hc.root_mem, hc.root_site, ?_, ?_⟩, ?_, ?_, ?_⟩
  · intro a b ha hb
    exact hc.site_inj ((hviews a).1 ha) ((hviews b).1 hb)
  · intro a ha
    exact hc.root_find? ((hviews a).1 ha)
  · intro a ha
    exact (hr.site a ((hviews a).1 ha)).imp_right fun ⟨n, hn, hs⟩ => ⟨n, by omega, hs⟩
  · intro site name found h
    obtain ⟨a, ha, hs⟩ := hr.memo.known h
    exact ⟨a, (hviews a).2 ha, hs⟩
  · intro a ha name found h
    exact hr.memo.answers ((hviews a).1 ha) h

/-- A registry with a level of its own, at which nothing is remembered yet, keeps a tree sound. -/
theorem sound_overlay_level (hr : r.Sound library) (parent : Nat) {definitions : List (String × Ref α)}
    (hsome : ¬definitions.isEmpty) : (r.overlay parent definitions).Sound library := by
  obtain ⟨root, hc⟩ := hr.coherent
  have hview := view_mem hr parent
  have hviews := mem_views_overlay (r := r) hsome parent
  have hlength : (r.overlay parent definitions).views.length = r.views.length + 1 := List.length_append
  refine ⟨⟨root, (hviews root).2 (.inl hc.root_mem), hc.root_site, ?_, ?_⟩, ?_, ?_, ?_⟩
  · intro a b ha hb hs
    obtain ha | rfl := (hviews a).1 ha <;> obtain hb | rfl := (hviews b).1 hb
    · exact hc.site_inj ha hb hs
    · exact absurd hs (ne_newSite hr ha)
    · exact absurd hs.symm (ne_newSite hr hb)
    · rfl
  · intro a ha name h
    obtain ha | rfl := (hviews a).1 ha
    · exact hc.root_find? ha h
    · have hover : ((r.view parent).overlay [r.views.length] definitions).find? name = none := by
        rw [Layers.overlay, if_neg hsome]
        exact h
      exact hc.root_find? hview (Layers.find?_overlay_eq_none hover)
  · intro a ha
    obtain ha | rfl := (hviews a).1 ha
    · exact (hr.site a ha).imp_right fun ⟨n, hn, hs⟩ => ⟨n, by omega, hs⟩
    · exact .inr ⟨r.views.length, by omega, rfl⟩
  · intro site name found h
    obtain ⟨a, ha, hs⟩ := hr.memo.known h
    exact ⟨a, (hviews a).2 (.inl ha), hs⟩
  · intro a ha name found h
    obtain ha | rfl := (hviews a).1 ha
    · exact hr.memo.answers ha h
    · obtain ⟨a, ha, hs⟩ := hr.memo.known h
      exact absurd hs (ne_newSite hr ha)

/-- Opening a registry keeps a tree sound: it shares another's level, or it has a level of its own. -/
theorem sound_overlay (hr : r.Sound library) (parent : Nat) (definitions : List (String × Ref α)) :
    (r.overlay parent definitions).Sound library := by
  cases definitions with
  | nil => exact sound_overlay_nil hr parent
  | cons first rest => exact sound_overlay_level hr parent Bool.false_ne_true

/-- A question is answered as a search of what the registry sees answers it, and keeps the tree sound. -/
theorem resolve_sound (hr : r.Sound library) (n : Nat) (name : String) :
    (r.resolve library n name).1 = (r.view n).resolve library name ∧
      (r.resolve library n name).2.Sound library := by
  obtain ⟨root, hc⟩ := hr.coherent
  obtain ⟨hanswer, hmemo⟩ := Memo.resolve_sound hc hr.memo (view_mem hr n) name
  exact ⟨hanswer, ⟨root, hc⟩, hr.site, hmemo⟩

/-- Requests keep a tree sound. -/
theorem perform_sound (hr : r.Sound library) (requests : List (Request α)) :
    (r.perform library requests).Sound library := by
  induction requests generalizing r with
  | nil => exact hr
  | cons request rest ih =>
    cases request with
    | overlay parent definitions => exact ih (sound_overlay hr parent definitions)
    | resolve n name path => exact ih (resolve_sound hr n name).2

/-- What is seen in a flat list is what a registry sees. -/
theorem union_view (r : Registries α) (n : Nat) :
    (r.views.map Layers.union).getD n ((r.views.map Layers.union).headD []) = (r.view n).union :=
  getD_headD_map Layers.union r.views n []

/-- From a sound tree on, all answers are those of searches without memory. -/
theorem run_eq_flatRun_of_sound (kind : String) (libraries : List (String → Option α))
    (hr : r.Sound fun name => libraries.findSome? fun library => library name)
    (requests : List (Request α)) :
    r.run kind libraries requests = flatRun kind libraries (r.views.map Layers.union) requests := by
  induction requests generalizing r with
  | nil => rfl
  | cons request rest ih =>
    cases request with
    | overlay parent definitions =>
      have hviews : (r.overlay parent definitions).views.map Layers.union =
          r.views.map Layers.union ++ [definitions ++
            (r.views.map Layers.union).getD parent ((r.views.map Layers.union).headD [])] := by
        rw [overlay, List.map_append, List.map_singleton, Layers.union_overlay, union_view]
      rw [run, flatRun, ih (sound_overlay hr parent definitions), hviews]
    | resolve n name path =>
      obtain ⟨hanswer, hnext⟩ := resolve_sound hr n name
      have hvalue := Layers.resolve_eq_follow libraries (r.view n) name
      rw [run, flatRun, union_view, ← hvalue, ← hanswer]
      exact congrArg _ (ih hnext)

/-- Memory and shared levels are invisible in answers: whatever registries are opened over a root, and
whatever is asked of any of them in any order, each answer is that of a search without memory in the one
list of definitions from the root down to the registry that is asked. -/
theorem run_eq_flatRun (kind : String) (libraries : List (String → Option α))
    (definitions : List (String × Ref α)) (requests : List (Request α)) :
    (root definitions).run kind libraries requests =
      flatRun kind libraries [definitions] requests := by
  have hflat : (root definitions).views.map Layers.union = [definitions] := by
    rw [root, List.map_singleton, Layers.union_overlay]
    exact congrArg (fun l => [l]) (List.append_nil definitions)
  rw [run_eq_flatRun_of_sound kind libraries (sound_root definitions), hflat]

end Registries

end Workbook
