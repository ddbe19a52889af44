import Workbook.Proofs.Codecs.Laws

/-!
# Trees in the order of keys

A document that is read holds the members of an object in the order of their keys, whatever the order in
which they were written. Putting the members of a written tree into that order loses nothing: each is found
under its key, and members that were in order stay as they are. So a written tree can be read back as it
stands, and after its members have been put into order.
-/

namespace Workbook

namespace Json

/-! ## Putting members into order -/

mutual
/-- A tree with the members of every object in the order of their keys. -/
def arranged : Json → Json
  | .null => .null
  | .boolean b => .boolean b
  | .integer n => .integer n
  | .real x => .real x
  | .text s => .text s
  | .list items => .list (arrangedItems items)
  | .object members => .object (arrangedOnto [] members)

/-- Items with all their members in order. -/
def arrangedItems : List Json → List Json
  | [] => []
  | item :: items => arranged item :: arrangedItems items

/-- Members put one by one among those that are held. -/
def arrangedOnto (held : List (String × Json)) : List (String × Json) → List (String × Json)
  | [] => held
  | (key, v) :: members => arrangedOnto (insertMember key (arranged v) held) members
end

/-- The members of every object stand in the order of their keys, each key once. -/
inductive Arranged : Json → Prop where
  | null : Arranged .null
  | boolean (b : Bool) : Arranged (.boolean b)
  | integer (n : Int) : Arranged (.integer n)
  | real (x : Float) : Arranged (.real x)
  | text (s : String) : Arranged (.text s)
  | list {items : List Json} (hitems : ∀ v ∈ items, Arranged v) : Arranged (.list items)
  | object {members : List (String × Json)} (hkeys : (members.map Prod.fst).Pairwise (· < ·))
      (hmembers : ∀ m ∈ members, Arranged m.2) : Arranged (.object members)

attribute [simp] Arranged.null Arranged.boolean Arranged.integer Arranged.real Arranged.text

/-- A list is arranged exactly if its items are. -/
@[simp]
theorem arranged_list_iff {items : List Json} : Arranged (.list items) ↔ ∀ v ∈ items, Arranged v := by
  refine ⟨fun h => ?_, .list⟩
  cases h with
  | list h => exact h

/-- An object is arranged exactly if its keys ascend and its members are arranged. -/
@[simp]
theorem arranged_object_iff {members : List (String × Json)} :
    Arranged (.object members) ↔
      (members.map Prod.fst).Pairwise (· < ·) ∧ ∀ m ∈ members, Arranged m.2 := by
  refine ⟨fun h => ?_, fun h => .object h.1 h.2⟩
  cases h with
  | object hkeys h => exact ⟨hkeys, h⟩

/-- The items of a list are arranged one by one. -/
theorem arrangedItems_eq (items : List Json) : arrangedItems items = items.map arranged := by
  induction items with
  | nil => rw [arrangedItems, List.map_nil]
  | cons item rest ih => rw [arrangedItems, ih, List.map_cons]

/-- A member that is put among others is found, and hides only those with its key. -/
theorem lookup_insertMember (key : String) (v : Json) (held : List (String × Json)) (other : String) :
    (insertMember key v held).lookup other = if other = key then some v else held.lookup other := by
  induction held with
  | nil =>
    rw [insertMember, List.lookup_cons]
    by_cases h : other = key
    · rw [if_pos h, h, beq_self_eq_true]
    · rw [if_neg h, beq_false_of_ne h]
  | cons m rest ih =>
    obtain ⟨k, w⟩ := m
    rw [insertMember]
    by_cases h : other = key
    · subst h
      rw [if_pos rfl]
      split
      · exact List.lookup_cons_self
      · split
        · exact List.lookup_cons_self
        · rename_i hne
          rw [List.lookup_cons, beq_false_of_ne hne, ih, if_pos rfl]
    · rw [if_neg h]
      split
      · rw [List.lookup_cons, beq_false_of_ne h]
      · split
        · rename_i heq
          subst heq
          rw [List.lookup_cons, List.lookup_cons, beq_false_of_ne h]
        · rw [List.lookup_cons, List.lookup_cons, ih, if_neg h]

/-- The members of an object with different keys are found among those that they are put onto. -/
theorem lookup_arrangedOnto (held : List (String × Json)) {members : List (String × Json)}
    (hnodup : (members.map Prod.fst).Nodup) (key : String) :
    (arrangedOnto held members).lookup key =
      ((members.lookup key).map arranged).or (held.lookup key) := by
  induction members generalizing held with
  | nil => rfl
  | cons m rest ih =>
    obtain ⟨k, v⟩ := m
    rw [List.map_cons, List.nodup_cons] at hnodup
    rw [arrangedOnto, ih _ hnodup.2, lookup_insertMember, List.lookup_cons]
    by_cases h : key = k
    · subst h
      have habsent : rest.lookup key = none := by
        rw [List.lookup_eq_none_iff]
        intro m hm
        rw [bne_iff_ne]
        intro heq
        exact hnodup.1 (List.mem_map.2 ⟨m, hm, heq.symm⟩)
      rw [if_pos rfl, habsent, beq_self_eq_true]
      rfl
    · rw [if_neg h, beq_false_of_ne h]

/-- A member whose key comes after all others is put at their end. -/
theorem insertMember_of_lt {key : String} (v : Json) {held : List (String × Json)}
    (h : ∀ m ∈ held, m.1 < key) : insertMember key v held = held ++ [(key, v)] := by
  induction held with
  | nil => rfl
  | cons m rest ih =>
    obtain ⟨k, w⟩ := m
    have hk : k < key := h (k, w) List.mem_cons_self
    have hne : key ≠ k := by
      rintro rfl
      exact String.lt_irrefl _ hk
    rw [insertMember, if_neg (String.lt_asymm hk), if_neg hne,
      ih fun m hm => h m (List.mem_cons_of_mem _ hm), List.cons_append]

/-- Members that are in order already are put one after another. -/
theorem arrangedOnto_of_pairwise {held members : List (String × Json)}
    (h : ((held ++ members).map Prod.fst).Pairwise (· < ·)) :
    arrangedOnto held members = held ++ members.map fun m => (m.1, arranged m.2) := by
  induction members generalizing held with
  | nil => rw [arrangedOnto, List.map_nil, List.append_nil]
  | cons m rest ih =>
    obtain ⟨key, v⟩ := m
    have hlast : insertMember key (arranged v) held = held ++ [(key, arranged v)] := by
      refine insertMember_of_lt _ fun m hm => ?_
      rw [List.map_append, List.pairwise_append] at h
      exact h.2.2 m.1 (List.mem_map_of_mem hm) key List.mem_cons_self
    have hrest : ((held ++ [(key, arranged v)] ++ rest).map Prod.fst).Pairwise (· < ·) := by
      simpa only [List.map_append, List.map_cons, List.map_nil, List.append_assoc, List.cons_append,
        List.nil_append] using h
    rw [arrangedOnto, hlast, ih hrest, List.map_cons, List.append_assoc, List.cons_append, List.nil_append]

/-! ## Order is kept -/

/-- What a member is put into holds that member and what it held before. -/
theorem mem_insertMember {key : String} {v : Json} {held : List (String × Json)} {m : String × Json}
    (h : m ∈ insertMember key v held) : m = (key, v) ∨ m ∈ held := by
  induction held with
  | nil => exact .inl (List.mem_singleton.1 h)
  | cons n rest ih =>
    obtain ⟨k, w⟩ := n
    rw [insertMember] at h
    split at h
    · exact List.mem_cons.1 h
    · split at h
      · obtain h | h := List.mem_cons.1 h
        · exact .inl h
        · exact .inr (List.mem_cons_of_mem _ h)
      · obtain rfl | h := List.mem_cons.1 h
        · exact .inr List.mem_cons_self
        · exact (ih h).imp_right (List.mem_cons_of_mem _)

/-- Members in order stay so when one more is put among them. -/
theorem pairwise_insertMember (key : String) (v : Json) {held : List (String × Json)}
    (h : (held.map Prod.fst).Pairwise (· < ·)) :
    ((insertMember key v held).map Prod.fst).Pairwise (· < ·) := by
  induction held with
  | nil => exact List.pairwise_singleton _ _
  | cons m rest ih =>
    obtain ⟨k, w⟩ := m
    have hall := h
    rw [List.map_cons, List.pairwise_cons] at h
    rw [insertMember]
    split
    · rename_i hlt
      refine List.pairwise_cons.2 ⟨fun other hother => ?_, hall⟩
      obtain rfl | hother := List.mem_cons.1 hother
      · exact hlt
      · exact String.lt_trans hlt (h.1 other hother)
    · rename_i hnot
      split
      · rename_i heq
        rw [List.map_cons, List.pairwise_cons]
        exact ⟨heq ▸ h.1, h.2⟩
      · rename_i hne
        have hk : k < key := Std.lt_of_le_of_ne (String.not_lt.1 hnot) (Ne.symm hne)
        refine List.pairwise_cons.2 ⟨fun other hother => ?_, ih h.2⟩
        obtain ⟨m, hm, rfl⟩ := List.mem_map.1 hother
        obtain rfl | hm := mem_insertMember hm
        · exact hk
        · exact h.1 m.1 (List.mem_map_of_mem hm)

end Json

namespace Schema.Channel

/-- A tree that is read as it was written. -/
def direct : Channel where
  Source _ := True
  carry v := v
  source_item _ _ _ := trivial
  source_tail _ := trivial
  source_member _ _ _ := trivial
  source_without _ _ := trivial
  carry_boolean _ := rfl
  carry_integer _ := rfl
  carry_real _ := rfl
  carry_text _ := rfl
  carry_list _ := by rw [List.map_id']
  carry_object _ := ⟨_, rfl, fun _ => by rw [Option.map_id']⟩
  carry_dict _ _ := by rw [List.map_id']

/-- A tree whose members have been put into order. -/
def inOrder : Channel where
  Source := Json.Arranged
  carry := Json.arranged
  source_item h := Json.arranged_list_iff.1 h
  source_tail h := Json.arranged_list_iff.2 fun v hv =>
    Json.arranged_list_iff.1 h v (List.mem_cons_of_mem _ hv)
  source_member h := (Json.arranged_object_iff.1 h).2
  source_without key h := by
    obtain ⟨hkeys, h⟩ := Json.arranged_object_iff.1 h
    refine .object (hkeys.sublist (List.filter_sublist.map Prod.fst)) fun m hm => ?_
    exact h m (List.mem_of_mem_filter hm)
  carry_boolean _ := by rw [Json.arranged]
  carry_integer _ := by rw [Json.arranged]
  carry_real _ := by rw [Json.arranged]
  carry_text _ := by rw [Json.arranged]
  carry_list items := by rw [Json.arranged, Json.arrangedItems_eq]
  carry_object hnodup := by
    refine ⟨_, by rw [Json.arranged], fun key => ?_⟩
    rw [Json.lookup_arrangedOnto [] hnodup, List.lookup_nil, Option.or_none]
  carry_dict h heq := by
    have hkeys := (Json.arranged_object_iff.1 h).1
    rw [Json.arranged, Json.arrangedOnto_of_pairwise (by rw [List.nil_append, heq]; exact hkeys),
      List.nil_append]

end Schema.Channel

end Workbook
