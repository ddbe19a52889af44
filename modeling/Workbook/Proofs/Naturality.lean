import Workbook.Proofs.Registries

/-!
# Registries do not look into values

Names are looked up, followed and remembered in the same way whatever the definitions hold. So a change of
all values commutes with everything that is done with registries: the definitions that are found, the
answers, and what is remembered afterwards.
-/

namespace Workbook

variable {α β : Type}

/-! ## Changing all values -/

/-- A reference with its value changed. -/
def Ref.map (f : α → β) : Ref α → Ref β
  | .named name => .named name
  | .inline value => .inline (f value)

/-- Definitions with their values changed. -/
def mapEntries (f : α → β) (entries : List (String × Ref α)) : List (String × Ref β) :=
  entries.map fun (name, r) => (name, r.map f)

/-- Layers with their values changed. -/
def Layers.map (f : α → β) (layers : Layers α) : Layers β :=
  List.map (fun layer => ⟨layer.site, mapEntries f layer.entries⟩) layers

/-- The end of a search with its value changed. -/
def Landing.map (f : α → β) : Landing α → Landing β
  | .value site name v => .value site name (f v)
  | .missing chain name => .missing chain name
  | .circular chain => .circular chain

/-- A found value changed, where it was found. -/
def Found.map (f : α → β) (found : Found α) : Found β := ⟨f found.value, found.origin⟩

/-- What a level remembers with its values changed. -/
def Recollection.map (f : α → β) (r : Recollection α) : Recollection β :=
  { found := r.found.map fun (name, found) => (name, found.map f), hits := r.hits, walks := r.walks }

/-- What all levels remember with its values changed. -/
def Memo.map (f : α → β) (m : Memo α) : Memo β :=
  ⟨m.levels.map fun (site, r) => (site, r.map f)⟩

/-- Registries with their values changed. -/
def Registries.map (f : α → β) (r : Registries α) : Registries β :=
  ⟨r.views.map (Layers.map f), r.memo.map f⟩

variable (f : α → β)

/-- Looking up a key commutes with a change of what is listed. -/
theorem lookup_map {κ γ δ : Type} [BEq κ] (g : γ → δ) (k : κ) (entries : List (κ × γ)) :
    (entries.map fun (key, value) => (key, g value)).lookup k = (entries.lookup k).map g := by
  induction entries with
  | nil => rfl
  | cons e rest ih =>
    rw [List.map_cons, List.lookup_cons, List.lookup_cons, ih]
    cases k == e.1 <;> rfl

/-! ## Searches -/

namespace Layers

/-- A definition is found where it is, with its value mapped. -/
theorem find?_map (name : String) (layers : Layers α) :
    (layers.map f).find? name = (layers.find? name).map fun (site, r) => (site, r.map f) := by
  induction layers with
  | nil => rfl
  | cons layer outer ih =>
    change find? name (_ :: Layers.map f outer) = _
    rw [find?, find?, ih]
    dsimp only [mapEntries]
    rw [lookup_map]
    cases layer.entries.lookup name <;> rfl

/-- A walk does not look at values. -/
theorem walk_map (layers : Layers α) (chain : List String) (name : String) :
    (layers.map f).walk chain name = (layers.walk chain name).map f := by
  fun_induction walk layers chain name with
  | case1 chain name seen =>
    rw [walk, dif_pos seen, Landing.map]
  | case2 chain name fresh found =>
    exact walk_missing fresh (by rw [find?_map, found]; rfl)
  | case3 chain name fresh site value found =>
    exact walk_inline fresh (by rw [find?_map, found]; rfl)
  | case4 chain name fresh site next found ih =>
    have stands : (layers.map f).find? name = some (site, .named next) := by
      rw [find?_map, found]
      rfl
    exact (walk_named fresh stands).trans ih

/-- The innermost level does not depend on values. -/
theorem site_map (layers : Layers α) : (layers.map f).site = layers.site := by
  cases layers <;> rfl

/-- A level is put on top of others whatever its values are. -/
theorem overlay_map (site : Site) (entries : List (String × Ref α)) (layers : Layers α) :
    (layers.map f).overlay site (mapEntries f entries) = (layers.overlay site entries).map f := by
  cases entries <;> rfl

end Layers

/-! ## Memories -/

namespace Memo

variable (m : Memo α)

/-- The memory of a level is mapped as a whole. -/
theorem at?_map (site : Site) : (m.map f).at? site = (m.at? site).map f := by
  rw [at?, at?, map, lookup_map]
  cases m.levels.lookup site <;> rfl

/-- An answer is remembered with its value mapped. -/
theorem remembered?_map (site : Site) (name : String) :
    (m.map f).remembered? site name = (m.remembered? site name).map (Found.map f) := by
  rw [remembered?, remembered?, at?_map, Recollection.map, lookup_map]

/-- Changing the memory of a level commutes with mapping, if the change does. -/
theorem modify_map (site : Site) {g : Recollection α → Recollection α}
    {g' : Recollection β → Recollection β} (hg : ∀ r, g' (r.map f) = (g r).map f) :
    (m.map f).modify site g' = (m.modify site g).map f := by
  rw [modify, at?_map, hg]
  unfold modify map
  rw [List.map_cons, List.filter_map]
  rfl

/-- Remembering an answer commutes with mapping. -/
theorem remember_map (site : Site) (name : String) (answer : Found α) :
    (m.map f).remember site name (answer.map f) = (m.remember site name answer).map f :=
  modify_map f m site fun _ => rfl

/-- Asking a library commutes with mapping. -/
theorem standard?_map (library : String → Option α) (name : String) :
    (m.map f).standard? (fun n => (library n).map f) name =
      (m.standard? library name).map fun (answer, n, events) => (answer.map f, n.map f, events) := by
  unfold standard?
  rw [remembered?_map]
  cases m.remembered? [] name with
  | some answer => rfl
  | none =>
    dsimp only [Option.map_none]
    cases library name with
    | none => rfl
    | some value =>
      dsimp only [Option.map_some]
      rw [← remember_map]
      rfl

/-- A search does not look at values. -/
theorem search_map (library : String → Option α) (layers : Layers α) (name : String) :
    (m.map f).search (fun n => (library n).map f) (layers.map f) name =
      ((m.search library layers name).1.map (Found.map f), (m.search library layers name).2.1.map f,
        (m.search library layers name).2.2) := by
  unfold search
  rw [Layers.walk_map, Layers.site_map]
  cases layers.walk [] name with
  | circular chain => rfl
  | value site origin value =>
    dsimp only [Landing.map]
    rw [← remember_map]
    rfl
  | missing chain last =>
    dsimp only [Landing.map]
    rw [standard?_map]
    cases m.standard? library last with
    | none => rfl
    | some found =>
      obtain ⟨answer, n, events⟩ := found
      dsimp only [Option.map_some]
      rw [remember_map]
      rfl

/-- A question is answered and remembered in the same way whatever the values are. -/
theorem resolve_map (library : String → Option α) (layers : Layers α) (name : String) :
    (m.map f).resolve (fun n => (library n).map f) (layers.map f) name =
      ((m.resolve library layers name).1.map (Found.map f), (m.resolve library layers name).2.1.map f,
        (m.resolve library layers name).2.2) := by
  unfold resolve
  rw [remembered?_map, Layers.site_map]
  cases m.remembered? layers.site name with
  | some answer =>
    dsimp only [Option.map_some]
    rw [modify_map f m _ (g := fun r => { r with hits := r.hits + 1 }) fun _ => rfl]
    rfl
  | none =>
    dsimp only [Option.map_none]
    rw [modify_map f m _ (g := fun r => { r with walks := r.walks + 1 }) fun _ => rfl, search_map]

end Memo

/-! ## Registries -/

namespace Registries

variable (r : Registries α)

/-- What a registry sees is mapped as a whole. -/
theorem view_map (n : Nat) : (r.map f).view n = (r.view n).map f :=
  getD_headD_map (Layers.map f) r.views n []

/-- Opening a registry commutes with mapping. -/
theorem overlay_map (parent : Nat) (definitions : List (String × Ref α)) :
    (r.map f).overlay parent (mapEntries f definitions) = (r.overlay parent definitions).map f := by
  unfold overlay
  rw [view_map, Layers.overlay_map]
  unfold map
  rw [List.map_append, List.length_map]
  rfl

/-- The answers of registries do not depend on what values are. -/
theorem resolve_map (library : String → Option α) (n : Nat) (name : String) :
    (r.map f).resolve (fun n => (library n).map f) n name =
      ((r.resolve library n name).1.map (Found.map f), (r.resolve library n name).2.map f) := by
  have hmemo : (r.map f).memo = r.memo.map f := rfl
  unfold resolve
  rw [view_map, hmemo, Memo.resolve_map]
  rfl

end Registries

end Workbook
