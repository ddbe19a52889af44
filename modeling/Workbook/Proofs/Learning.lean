import Workbook.Proofs.Registries

/-!
# What a question teaches

A question leaves a memory with what it had and at most one answer more. The answer was remembered
somewhere before, or it is written in a definition that the registry sees, or the root has taken it from a
library and remembers it from then on. So a library is asked at most once for a name.
-/

namespace Workbook

variable {β : Type}

namespace Memo

/-- A memory forgets nothing, and all it learns is one answer. -/
structure Learns (m m' : Memo β) (found : Found β) : Prop where
  kept : ∀ {site name other}, m.remembered? site name = some other → m'.remembered? site name = some other
  only : ∀ {site name other}, m'.remembered? site name = some other →
    m.remembered? site name = some other ∨ other = found

/-- How a question is answered: with a fault, which is not remembered, or with an answer that was remembered
somewhere, that is written in a definition, or that the root has not taken from a library before. -/
inductive Answered (m m' : Memo β) (library : String → Option β) (layers : Layers β) :
    Except NameFault (Found β) → Prop
  | fault {fault : NameFault}
    (same : ∀ site name, m'.remembered? site name = m.remembered? site name) :
    Answered m m' library layers (.error fault)
  | known {site : Site} {name : String} {found : Found β} (h : m.remembered? site name = some found)
    (learns : m.Learns m' found) : Answered m m' library layers (.ok found)
  | defined {start : String} {site : Site} {name : String} {value : β}
    (h : layers.walk [] start = .value site name value)
    (learns : m.Learns m' ⟨value, .definition site name⟩) :
    Answered m m' library layers (.ok ⟨value, .definition site name⟩)
  | taken {name : String} {value : β} (new : m.remembered? [] name = none) (h : library name = some value)
    (kept : m'.remembered? [] name = some ⟨value, .standard name⟩)
    (learns : m.Learns m' ⟨value, .standard name⟩) :
    Answered m m' library layers (.ok ⟨value, .standard name⟩)

namespace Learns

variable {m m' : Memo β} {found : Found β}

/-- Only what is remembered matters. -/
theorem of_same (h : ∀ site name, m'.remembered? site name = m.remembered? site name) :
    m.Learns m' found where
  kept hr := by rw [h, hr]
  only hr := .inl (by rw [← h, hr])

/-- Remembering the answer where there is room for it. -/
theorem remember (h : m.Learns m' found) {site : Site} {name : String}
    (room : ∀ other, m'.remembered? site name = some other → other = found) :
    m.Learns (m'.remember site name found) found where
  kept hr := by
    rw [remembered?_remember]
    split
    · rename_i hs
      obtain ⟨rfl, rfl⟩ := hs
      rw [room _ (h.kept hr)]
    · exact h.kept hr
  only hr := by
    rw [remembered?_remember] at hr
    split at hr
    · exact .inr (Option.some.inj hr).symm
    · exact h.only hr

end Learns

/-- What is learned does not depend on how a memory is stored. -/
theorem Learns.congr {m n m' : Memo β} {found : Found β} (h : n.Learns m' found)
    (same : ∀ site name, n.remembered? site name = m.remembered? site name) : m.Learns m' found where
  kept hr := h.kept (by rw [same, hr])
  only hr := (h.only hr).imp_left fun hn => by rw [← same, hn]

/-- How a question is answered does not depend on how a memory is stored. -/
theorem Answered.congr {m n m' : Memo β} {library : String → Option β} {layers : Layers β}
    {answer : Except NameFault (Found β)} (h : Answered n m' library layers answer)
    (same : ∀ site name, n.remembered? site name = m.remembered? site name) :
    Answered m m' library layers answer := by
  cases h with
  | fault unchanged => exact .fault fun site name => (unchanged site name).trans (same site name)
  | known hr learns => exact .known (by rw [← same, hr]) (learns.congr same)
  | defined hw learns => exact .defined hw (learns.congr same)
  | taken new hl kept learns => exact .taken (by rw [← same, new]) hl kept (learns.congr same)

variable (m : Memo β) (library : String → Option β) (layers : Layers β) (name : String)

/-- A search is made for a name that is not remembered. -/
theorem search_answered (new : m.remembered? layers.site name = none) :
    Answered m (m.search library layers name).2.1 library layers (m.search library layers name).1 := by
  have room {found : Found β} (other : Found β) (hr : m.remembered? layers.site name = some other) :
      other = found := by
    cases new.symm.trans hr
  unfold search
  cases hw : layers.walk [] name with
  | circular chain => exact .fault fun _ _ => rfl
  | value site origin value =>
    exact .defined hw (Learns.remember (.of_same fun _ _ => rfl) room)
  | missing chain last =>
    dsimp only
    unfold standard?
    cases hroot : m.remembered? [] last with
    | some found => exact .known hroot (Learns.remember (.of_same fun _ _ => rfl) room)
    | none =>
      cases hl : library last with
      | none => exact .fault fun _ _ => rfl
      | some value =>
        let found : Found β := ⟨value, .standard last⟩
        have hfirst : (m.remember [] last found).remembered? [] last = some found := by
          rw [remembered?_remember, if_pos ⟨rfl, rfl⟩]
        have learns : m.Learns (m.remember [] last found) found :=
          Learns.remember (.of_same fun _ _ => rfl) fun other hr => by cases hroot.symm.trans hr
        have learnsBoth : m.Learns ((m.remember [] last found).remember layers.site name found) found :=
          learns.remember fun other hr => (learns.only hr).elim (room other) id
        have hboth : ((m.remember [] last found).remember layers.site name found).remembered? [] last =
            some found := by
          rw [remembered?_remember, hfirst, ite_self]
        exact .taken hroot hl hboth learnsBoth

/-- A question is answered from memory, from a definition or from a library. -/
theorem resolve_answered :
    Answered m (m.resolve library layers name).2.1 library layers (m.resolve library layers name).1 := by
  unfold resolve
  cases hr : m.remembered? layers.site name with
  | some found => exact .known hr (.of_same (remembered?_modify fun _ => rfl))
  | none =>
    let counted := m.modify layers.site fun r => { r with walks := r.walks + 1 }
    have same : ∀ site name, counted.remembered? site name = m.remembered? site name :=
      remembered?_modify fun _ => rfl
    exact (search_answered counted library layers name (by rw [same, hr])).congr same

end Memo

/-- A value that is found is written in one of the layers. -/
theorem Layers.exists_layer_of_find? {name : String} {site : Site} {entry : Ref β} {layers : Layers β}
    (h : layers.find? name = some (site, entry)) :
    ∃ layer ∈ layers, layer.site = site ∧ layer.entries.lookup name = some entry := by
  induction layers with
  | nil => cases h
  | cons layer outer ih =>
    rw [find?] at h
    split at h
    · rename_i e he
      cases h
      exact ⟨layer, List.mem_cons_self, rfl, he⟩
    · obtain ⟨other, hmem, hother⟩ := ih h
      exact ⟨other, List.mem_cons_of_mem _ hmem, hother⟩

/-- The value that a walk finds is written in one of the layers. -/
theorem Layers.exists_layer_of_walk {layers : Layers β} {chain : List String} {start name : String}
    {site : Site} {value : β} (h : layers.walk chain start = .value site name value) :
    ∃ layer ∈ layers, layer.site = site ∧ layer.entries.lookup name = some (.inline value) := by
  fun_induction walk layers chain start with
  | case1 => cases h
  | case2 => cases h
  | case3 chain start seen s v found =>
    cases h
    exact exists_layer_of_find? found
  | case4 chain start seen s next found ih => exact ih h

end Workbook
