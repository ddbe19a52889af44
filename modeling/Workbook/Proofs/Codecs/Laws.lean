import Workbook.Schema.Decoder
import Workbook.Proofs.Index
import Workbook.Proofs.Outcomes

/-!
# Laws of reading back

What a reader makes of a tree that was written for a value. Between writing and reading the tree may have
passed through a text, which keeps the lists and the scalars but not the order of members; a channel says
what has become of it. A value is read back from a channel if every reader of its type finds it there. For
each way to build readers there is one law that puts this together from the parts, and one that takes a
value that was read apart into the values that its parts were read as.
-/

namespace Workbook.Schema

/-- What a written tree has become when it is read again, and the trees that values are read from in the
first place. -/
structure Channel where
  /-- The trees that values are read from. -/
  Source : Json → Prop
  /-- What becomes of a tree that is written. -/
  carry : Json → Json
  source_item : ∀ {items : List Json}, Source (.list items) → ∀ v ∈ items, Source v
  source_tail : ∀ {v : Json} {items : List Json}, Source (.list (v :: items)) → Source (.list items)
  source_member : ∀ {members : List (String × Json)}, Source (.object members) → ∀ m ∈ members, Source m.2
  source_without : ∀ {members : List (String × Json)} (key : String), Source (.object members) →
    Source (.object (members.filter (·.1 ≠ key)))
  carry_boolean : ∀ b, carry (.boolean b) = .boolean b
  carry_integer : ∀ n, carry (.integer n) = .integer n
  carry_real : ∀ x, carry (.real x) = .real x
  carry_text : ∀ s, carry (.text s) = .text s
  carry_list : ∀ items, carry (.list items) = .list (items.map carry)
  /-- The members of an object with different keys are found under their keys. -/
  carry_object : ∀ {members : List (String × Json)}, (members.map Prod.fst).Nodup →
    ∃ carried, carry (.object members) = .object carried ∧
      ∀ key, carried.lookup key = (members.lookup key).map carry
  /-- The members of an object with the keys of one that was read are in their order. -/
  carry_dict : ∀ {members entries : List (String × Json)}, Source (.object members) →
    entries.map Prod.fst = members.map Prod.fst →
    carry (.object entries) = .object (entries.map fun m => (m.1, carry m.2))

namespace Channel

variable (c : Channel)

/-- A value is read by a reader from some tree. -/
def Gives {α : Type} (d : Decoder α) (a : α) : Prop := ∃ h v, c.Source v ∧ d h v = .ok a

/-- A value is read back from the tree that is written for it. -/
structure ReadsBack {α : Type} (d : Decoder α) (e : α → Json) (a : α) : Prop where
  read : ∀ h, d h (c.carry (e a)) = .ok a
  /-- So it is not taken for a value that is left open. -/
  ne_null : c.carry (e a) ≠ .null

/-- Values that are read are read back. -/
def Settled {α : Type} (d : Decoder α) (e : α → Json) : Prop := ∀ a, c.Gives d a → c.ReadsBack d e a

variable {c}

/-! ## Scalars and collections -/

section Values

variable {α β : Type} {d : Decoder α} {e : α → Json}

/-- Texts are read back. -/
theorem readsBack_text (s : String) : c.ReadsBack text .text s where
  read h := by rw [c.carry_text, text]
  ne_null := by
    rw [c.carry_text]
    exact Json.noConfusion

/-- Booleans are read back. -/
theorem readsBack_boolean (b : Bool) : c.ReadsBack boolean .boolean b where
  read h := by rw [c.carry_boolean, boolean]
  ne_null := by
    rw [c.carry_boolean]
    exact Json.noConfusion

/-- Numbers are read back. -/
theorem readsBack_real (x : Float) : c.ReadsBack real .real x where
  read h := by rw [c.carry_real, real]
  ne_null := by
    rw [c.carry_real]
    exact Json.noConfusion

/-- Counts are read back. -/
theorem readsBack_count (n : UInt32) : c.ReadsBack count ofCount n where
  read h := by
    have hbound : (n.toNat : Int) < (UInt32.size : Nat) := Int.ofNat_lt.2 n.toNat_lt
    have hrange : (0 ≤ (n.toNat : Int) && (n.toNat : Int) < (UInt32.size : Nat)) = true := by
      rw [decide_eq_true (Int.natCast_nonneg _), decide_eq_true hbound, Bool.and_self]
    rw [ofCount, Json.ofNat, c.carry_integer, count, Decoder.map, below, if_pos hrange]
    change Except.ok (UInt32.ofNat n.toNat) = _
    rw [UInt32.ofNat_toNat]
  ne_null := by
    rw [ofCount, Json.ofNat, c.carry_integer]
    exact Json.noConfusion

/-- A value that is written as another one is read back as that one. -/
theorem ReadsBack.map {a : α} (h : c.ReadsBack d e a) (f : α → β) {e' : β → Json}
    (he : e' (f a) = e a) : c.ReadsBack (d.map f) e' (f a) where
  read holding := by rw [Decoder.map, he, h.read]; rfl
  ne_null := he ▸ h.ne_null

/-- Items that are read back one by one are read back as a list. -/
theorem mapM_map_eq_ok {ε : Type} {f : β → Except ε α} {g : α → β} {as : List α}
    (h : ∀ a ∈ as, f (g a) = .ok a) : (as.map g).mapM f = .ok as := by
  have hread : as.mapM (f ∘ g) = .ok (as.map id) := mapM_eq_ok h
  rw [List.mapM_map, hread, List.map_id]

/-- Lists are read back if their items are. -/
theorem ReadsBack.list {as : List α} (h : ∀ a ∈ as, c.ReadsBack d e a) :
    c.ReadsBack (list d) (fun as => .list (as.map e)) as where
  read holding := by
    rw [c.carry_list, Schema.list, List.map_map]
    exact mapM_map_eq_ok fun a ha => (h a ha).read holding
  ne_null := by
    rw [c.carry_list]
    exact Json.noConfusion

/-- Lists of a fixed length are read back if their items are. -/
theorem ReadsBack.vector {as : List α} (h : ∀ a ∈ as, c.ReadsBack d e a) :
    c.ReadsBack (vector as.length d) (fun as => .list (as.map e)) as where
  read holding := by
    have hread : ((as.map e).map c.carry).mapM (d holding) = .ok as := by
      rw [List.map_map]
      exact mapM_map_eq_ok fun a ha => (h a ha).read holding
    have hlength : ((as.map e).map c.carry).length = as.length := by
      rw [List.length_map, List.length_map]
    rw [c.carry_list, Schema.vector, ← hlength, List.take_length, hread]
    dsimp only [bind, Except.bind]
    rw [if_neg (Nat.lt_irrefl _), if_neg (Nat.lt_irrefl _)]
    rfl
  ne_null := by
    rw [c.carry_list]
    exact Json.noConfusion

/-- Objects with the keys of a map are carried member by member. -/
def DictKeys (c : Channel) (entries : List (String × α)) : Prop :=
  ∀ written : List (String × Json), written.map Prod.fst = entries.map Prod.fst →
    c.carry (.object written) = .object (written.map fun m => (m.1, c.carry m.2))

/-- A map without entries is carried as it is. -/
theorem dictKeys_nil : c.DictKeys ([] : List (String × α)) := by
  intro written hkeys
  obtain rfl : written = [] := List.map_eq_nil_iff.1 hkeys
  have hnodup : (([] : List (String × Json)).map Prod.fst).Nodup := List.nodup_nil
  obtain ⟨carried, hcarry, hlookup⟩ := c.carry_object hnodup
  rw [hcarry]
  cases carried with
  | nil => rfl
  | cons m rest =>
    have habsent := hlookup m.1
    rw [List.lookup_cons_self] at habsent
    cases habsent

/-- Maps are read back if their values are. -/
theorem ReadsBack.dict {entries : List (String × α)} (hkeys : c.DictKeys entries)
    (h : ∀ x ∈ entries, c.ReadsBack d e x.2) :
    c.ReadsBack (dict d) (fun entries => .object (entries.map fun (name, a) => (name, e a))) entries := by
  have hcarry : c.carry (.object (entries.map fun (name, a) => (name, e a))) =
      .object (entries.map fun x => (x.1, c.carry (e x.2))) := by
    rw [hkeys _ (by rw [List.map_map]; rfl), List.map_map]
    rfl
  refine ⟨fun holding => ?_, ?_⟩
  · rw [hcarry, Schema.dict]
    refine mapM_map_eq_ok fun x hx => ?_
    dsimp only
    rw [(h x hx).read]
    rfl
  · rw [hcarry]
    exact Json.noConfusion

/-- What a mapped reader reads is the image of what the reader reads. -/
theorem map_eq_ok {f : α → β} {h : Holding} {v : Json} {b : β} (hread : d.map f h v = .ok b) :
    ∃ a, d h v = .ok a ∧ b = f a := by
  rw [Decoder.map] at hread
  cases ha : d h v with
  | error fault =>
    rw [ha] at hread
    cases hread
  | ok a =>
    rw [ha] at hread
    cases hread
    exact ⟨a, rfl, rfl⟩

/-- A mapped reader gives images of what the reader gives. -/
theorem Gives.map {f : α → β} {b : β} (h : c.Gives (d.map f) b) : ∃ a, c.Gives d a ∧ b = f a := by
  obtain ⟨holding, v, hv, hread⟩ := h
  obtain ⟨a, ha, hb⟩ := map_eq_ok hread
  exact ⟨a, ⟨holding, v, hv, ha⟩, hb⟩

/-- The items of a list that was read have been read. -/
theorem exists_of_mem_mapM {ε : Type} {f : β → Except ε α} {bs : List β} {as : List α}
    (h : bs.mapM f = .ok as) {a : α} (ha : a ∈ as) : ∃ b ∈ bs, f b = .ok a := by
  induction bs generalizing as with
  | nil =>
    cases h
    cases ha
  | cons b rest ih =>
    rw [List.mapM_cons] at h
    obtain ⟨first, hfirst, h⟩ := bind_eq_ok h
    obtain ⟨others, hothers, h⟩ := bind_eq_ok h
    cases h
    obtain rfl | ha := List.mem_cons.1 ha
    · exact ⟨b, List.mem_cons_self, hfirst⟩
    · obtain ⟨b', hb', hread⟩ := ih hothers ha
      exact ⟨b', List.mem_cons_of_mem b hb', hread⟩

/-- The items of a list that is read are read. -/
theorem Gives.list {as : List α} (h : c.Gives (list d) as) : ∀ a ∈ as, c.Gives d a := by
  obtain ⟨holding, v, hv, hread⟩ := h
  cases v with
  | list items =>
    intro a ha
    obtain ⟨item, hitem, hread⟩ := exists_of_mem_mapM hread ha
    exact ⟨holding, item, c.source_item hv item hitem, hread⟩
  | _ => cases hread

/-- A map that was read has the keys of its tree, and its values have been read. -/
theorem Gives.dict {entries : List (String × α)} (h : c.Gives (dict d) entries) :
    c.DictKeys entries ∧ ∀ x ∈ entries, c.Gives d x.2 := by
  obtain ⟨holding, v, hv, hread⟩ := h
  cases v with
  | object members =>
    have hmember {m : String × Json} {x : String × α}
        (hx : ((d holding m.2).map (m.1, ·)) = .ok x) : x.1 = m.1 ∧ d holding m.2 = .ok x.2 := by
      cases ha : d holding m.2 with
      | error fault =>
        rw [ha] at hx
        cases hx
      | ok a =>
        rw [ha] at hx
        cases hx
        exact ⟨rfl, rfl⟩
    have hkeys : entries.map Prod.fst = members.map Prod.fst := by
      rw [Schema.dict] at hread
      clear hv
      induction members generalizing entries with
      | nil =>
        cases hread
        rfl
      | cons m rest ih =>
        rw [List.mapM_cons] at hread
        obtain ⟨first, hfirst, hread⟩ := bind_eq_ok hread
        obtain ⟨others, hothers, hread⟩ := bind_eq_ok hread
        cases hread
        rw [List.map_cons, List.map_cons, (hmember hfirst).1, ih hothers]
    refine ⟨fun written hwritten => c.carry_dict hv (hwritten.trans hkeys), fun x hx => ?_⟩
    obtain ⟨m, hm, hread⟩ := exists_of_mem_mapM hread hx
    exact ⟨holding, m.2, c.source_member hv m hm, (hmember hread).2⟩
  | _ => cases hread

/-- A value that may be left open is read by its reader. -/
theorem Gives.nullable {a : α} (h : c.Gives (nullable d) (some a)) : c.Gives d a := by
  obtain ⟨holding, v, hv, hread⟩ := h
  unfold Schema.nullable at hread
  split at hread
  · cases hread
  · cases ha : d holding v with
    | error fault =>
      rw [ha] at hread
      cases hread
    | ok b =>
      rw [ha] at hread
      cases hread
      exact ⟨holding, v, hv, ha⟩

end Values

/-! ## Records -/

section Records

variable {α β : Type} {fs : Fields (α → β)} {as : Fields α} {keys : List String}
  {written : List (String × Json)}

/-- Fields are read back from any members that hold, under the keys of the fields, what was written. -/
structure Written (c : Channel) (fs : Fields α) (a : α) (keys : List String)
    (written : List (String × Json)) : Prop where
  within : ∀ m ∈ written, m.1 ∈ keys
  nodup : (written.map Prod.fst).Nodup
  read : ∀ h members, (∀ key ∈ keys, members.lookup key = (written.lookup key).map c.carry) →
    fs.named h members = .ok a

/-- Fields are read from the members of an object, or from the items of a list. -/
def GivesFields (c : Channel) (fs : Fields α) (a : α) : Prop :=
  (∃ h members, c.Source (.object members) ∧ fs.named h members = .ok a) ∨
    ∃ h place items, c.Source (.list items) ∧ fs.placed h place items = .ok a

/-- Keys that are not among those of a list are not found in it. -/
theorem lookup_of_not_within {key : String} (h : ∀ m ∈ written, m.1 ∈ keys) (hkey : key ∉ keys) :
    written.lookup key = none := by
  rw [List.lookup_eq_none_iff]
  intro m hm
  rw [bne_iff_ne]
  rintro rfl
  exact hkey (h m hm)

namespace Written

theorem map {a : α} (h : c.Written as a keys written) (f : α → β) :
    c.Written (f <$> as) (f a) keys written where
  within := h.within
  nodup := h.nodup
  read holding members hmembers := by
    change ((Fields.pure f).andThen as).named holding members = _
    simp only [Fields.andThen, Fields.pure, h.read holding members hmembers]

/-- Fields are read back side by side, if they share no key. -/
theorem seq {f : α → β} {a : α} {more : List String} {next : List (String × Json)}
    (hf : c.Written fs f keys written) (ha : c.Written as a more next)
    (hkeys : ∀ key ∈ keys, key ∉ more) :
    c.Written (fs <*> as) (f a) (keys ++ more) (written ++ next) where
  within m hm := by
    rw [List.mem_append] at hm ⊢
    exact hm.imp (hf.within m) (ha.within m)
  nodup := by
    rw [List.map_append, List.nodup_append]
    refine ⟨hf.nodup, ha.nodup, fun key hkey other hother heq => ?_⟩
    obtain ⟨m, hm, rfl⟩ := List.mem_map.1 hkey
    obtain ⟨n, hn, rfl⟩ := List.mem_map.1 hother
    exact hkeys m.1 (hf.within m hm) (heq ▸ ha.within n hn)
  read holding members hmembers := by
    have hfirst : fs.named holding members = .ok f := by
      refine hf.read holding members fun key hkey => ?_
      rw [hmembers key (List.mem_append_left _ hkey), List.lookup_append,
        lookup_of_not_within ha.within (hkeys key hkey), Option.or_none]
    have hsecond : as.named holding members = .ok a := by
      refine ha.read holding members fun key hkey => ?_
      rw [hmembers key (List.mem_append_right _ hkey), List.lookup_append,
        lookup_of_not_within hf.within (fun hmem => hkeys key hmem hkey), Option.none_or]
    change (fs.andThen as).named holding members = _
    simp only [Fields.andThen, hfirst, hsecond]

variable {d : Decoder α} {e : α → Json}

/-- A field whose member is written, and read by its reader. -/
theorem single {key : String} {v : Json} {a : α} {unnamed unplaced : Option α}
    (h : ∀ holding, d holding (c.carry v) = .ok a) :
    c.Written (.single key d unnamed unplaced) a [key] (member key v) where
  within m hm := by
    rw [List.mem_singleton.1 hm]
    exact List.mem_singleton_self key
  nodup := List.nodup_singleton key
  read holding members hmembers := by
    have hlookup : members.lookup key = some (c.carry v) := by
      rw [hmembers key (List.mem_singleton_self key), Schema.member, List.lookup_cons_self, Option.map_some]
    simp only [Fields.single, hlookup, h holding]
    rfl

/-- A field whose member is not written, and may be absent. -/
theorem absent {key : String} {a : α} {unplaced : Option α} :
    c.Written (.single key d (some a) unplaced) a [key] [] where
  within _ hm := nomatch hm
  nodup := List.nodup_nil
  read holding members hmembers := by
    have hlookup : members.lookup key = none := hmembers key (List.mem_singleton_self key)
    simp only [Fields.single, hlookup]

/-- A field that is required is read back from its member. -/
theorem required {key : String} {a : α} (h : c.ReadsBack d e a) :
    c.Written (.required key d) a [key] (member key (e a)) :=
  single h.read

/-- A field with a default is read back from its member. -/
theorem defaulted {key : String} {a absent : α} (h : c.ReadsBack d e a) :
    c.Written (.defaulted key d absent) a [key] (member key (e a)) :=
  single h.read

/-- A value that may be null is read back where it is none. -/
theorem nullable_read {a : α} (h : c.ReadsBack d e a) (holding : Holding) :
    nullable d holding (c.carry (e a)) = .ok (some a) := by
  unfold nullable
  split
  · rename_i hnull
    exact absurd hnull h.ne_null
  · rw [h.read]
    rfl

/-- A field that may be absent is read back from its member, if there is one. -/
theorem optional {key : String} {o : Option α} (h : ∀ a, o = some a → c.ReadsBack d e a) :
    c.Written (.optional key d) o [key] (memberIf key e o) := by
  change c.Written (.single key (nullable d) (some none) (some none)) o [key] (memberIf key e o)
  cases o with
  | none => exact absent
  | some a => exact single (nullable_read (h a rfl))

/-- A field that may be absent from the end of a list is read back from its member, if there is one. -/
theorem listedOptional {key : String} {o : Option α} (h : ∀ a, o = some a → c.ReadsBack d e a) :
    c.Written (.listedOptional key d) o [key] (memberIf key e o) := by
  cases o with
  | none => exact absent
  | some a => exact single (nullable_read (h a rfl))

/-- A list that is left out when it is empty is read back. -/
theorem defaultedList {key : String} {as : List α} (h : ∀ a ∈ as, c.ReadsBack d e a) :
    c.Written (.defaulted key (list d) []) as [key] (memberList key e as) := by
  cases as with
  | nil => exact absent
  | cons a rest => exact single (ReadsBack.list h).read

/-- A map that is left out when it is empty is read back. -/
theorem defaultedDict {key : String} {entries : List (String × α)} (hkeys : c.DictKeys entries)
    (h : ∀ x ∈ entries, c.ReadsBack d e x.2) :
    c.Written (.defaulted key (dict d) []) entries [key] (memberDict key e entries) := by
  cases entries with
  | nil => exact absent
  | cons x rest => exact single (ReadsBack.dict hkeys h).read

end Written

variable {e : α → Json} {a : α}

/-- A record is read from an object from which its fields are read. -/
theorem record_object {title : String} {holding : Holding} {members : List (String × Json)}
    (h : as.named holding members = .ok a) : record title as holding (.object members) = .ok a := by
  rw [Schema.record, h]
  rfl

/-- A record is read back if its fields are. -/
theorem Written.record (h : c.Written as a keys written) (he : e a = .object written) {title : String} :
    c.ReadsBack (record title as) e a := by
  obtain ⟨carried, hcarry, hlookup⟩ := c.carry_object h.nodup
  refine ⟨fun holding => ?_, ?_⟩
  · rw [he, hcarry]
    exact record_object (h.read holding carried fun key _ => hlookup key)
  · rw [he, hcarry]
    exact Json.noConfusion

/-- A record is read back from the members that are written for its fields. -/
theorem Written.namedRecord (h : c.Written as a keys written) (he : e a = .object written)
    {title : String} : c.ReadsBack (namedRecord title as) e a := by
  obtain ⟨carried, hcarry, hlookup⟩ := c.carry_object h.nodup
  refine ⟨fun holding => ?_, ?_⟩
  · rw [he, hcarry, Schema.namedRecord, h.read holding carried fun key _ => hlookup key]
    rfl
  · rw [he, hcarry]
    exact Json.noConfusion

/-! ### Taking records apart -/

section Inversion

variable {h : Holding} {members : List (String × Json)} {items : List Json} {place : Nat}

theorem named_map_eq_ok {f : α → β} {b : β} (hread : (f <$> as).named h members = .ok b) :
    ∃ a, as.named h members = .ok a ∧ b = f a := by
  change ((Fields.pure f).andThen as).named h members = _ at hread
  cases ha : as.named h members with
  | error fault =>
    simp only [Fields.andThen, Fields.pure, ha] at hread
    cases hread
  | ok a =>
    simp only [Fields.andThen, Fields.pure, ha] at hread
    cases hread
    exact ⟨a, rfl, rfl⟩

/-- Fields that are read side by side by name are read each. -/
theorem named_seq_eq_ok {b : β} (hread : (fs <*> as).named h members = .ok b) :
    ∃ f a, fs.named h members = .ok f ∧ as.named h members = .ok a ∧ b = f a := by
  change (fs.andThen as).named h members = _ at hread
  cases hf : fs.named h members with
  | error fault =>
    cases ha : as.named h members with
    | error other =>
      simp only [Fields.andThen, hf, ha] at hread
      cases hread
    | ok a =>
      simp only [Fields.andThen, hf, ha] at hread
      cases hread
  | ok f =>
    cases ha : as.named h members with
    | error fault =>
      simp only [Fields.andThen, hf, ha] at hread
      cases hread
    | ok a =>
      simp only [Fields.andThen, hf, ha] at hread
      cases hread
      exact ⟨f, a, rfl, rfl, rfl⟩

/-- A result of a reader that only changes the fault is one of the reader. -/
theorem ok_of_mapError {ε ε' : Type} {f : ε → ε'} {r : Except ε α} {a : α} (h : r.mapError f = .ok a) :
    r = .ok a := by
  cases r with
  | error fault => cases h
  | ok b =>
    cases h
    rfl

/-- A required field is read by name from a member under its key. -/
theorem named_required_eq_ok {d : Decoder α} {key : String} {a : α}
    (hread : (Fields.required key d).named h members = .ok a) :
    ∃ v, members.lookup key = some v ∧ d h v = .ok a := by
  simp only [Fields.required, Fields.single] at hread
  split at hread
  · exact ⟨_, by assumption, ok_of_mapError hread⟩
  · cases hread

theorem placed_map_eq_ok {f : α → β} {b : β} (hread : (f <$> as).placed h place items = .ok b) :
    ∃ a, as.placed h place items = .ok a ∧ b = f a := by
  change ((Fields.pure f).andThen as).placed h place items = _ at hread
  simp only [Fields.andThen, Fields.pure, Nat.add_zero] at hread
  cases ha : as.placed h place items with
  | error fault =>
    rw [ha] at hread
    cases hread
  | ok a =>
    rw [ha] at hread
    cases hread
    exact ⟨a, rfl, rfl⟩

/-- Fields that are read side by side by place are read each, the later ones further on. -/
theorem placed_seq_eq_ok {b : β} (hread : (fs <*> as).placed h place items = .ok b) :
    ∃ f a, fs.placed h place items = .ok f ∧ as.placed h (place + fs.width) items = .ok a ∧ b = f a := by
  change (fs.andThen as).placed h place items = _ at hread
  cases hf : fs.placed h place items with
  | error fault =>
    simp only [Fields.andThen, hf] at hread
    cases hread
  | ok f =>
    cases ha : as.placed h (place + fs.width) items with
    | error fault =>
      simp only [Fields.andThen, hf, ha] at hread
      cases hread
    | ok a =>
      simp only [Fields.andThen, hf, ha] at hread
      cases hread
      exact ⟨f, a, rfl, rfl, rfl⟩

end Inversion

namespace GivesFields

theorem map {f : α → β} {b : β} (h : c.GivesFields (f <$> as) b) : ∃ a, c.GivesFields as a ∧ b = f a := by
  obtain ⟨holding, members, hsource, hread⟩ | ⟨holding, place, items, hsource, hread⟩ := h
  · obtain ⟨a, ha, hb⟩ := named_map_eq_ok hread
    exact ⟨a, .inl ⟨holding, members, hsource, ha⟩, hb⟩
  · obtain ⟨a, ha, hb⟩ := placed_map_eq_ok hread
    exact ⟨a, .inr ⟨holding, place, items, hsource, ha⟩, hb⟩

/-- Fields side by side give what each of them gives. -/
theorem seq {b : β} (h : c.GivesFields (fs <*> as) b) :
    ∃ f, c.GivesFields fs f ∧ ∃ a, c.GivesFields as a ∧ b = f a := by
  obtain ⟨holding, members, hsource, hread⟩ | ⟨holding, place, items, hsource, hread⟩ := h
  · obtain ⟨f, a, hf, ha, hb⟩ := named_seq_eq_ok hread
    exact ⟨f, .inl ⟨holding, members, hsource, hf⟩, a, .inl ⟨holding, members, hsource, ha⟩, hb⟩
  · obtain ⟨f, a, hf, ha, hb⟩ := placed_seq_eq_ok hread
    exact ⟨f, .inr ⟨holding, place, items, hsource, hf⟩, a, .inr ⟨holding, _, items, hsource, ha⟩, hb⟩

variable {d : Decoder α} {key : String} {a : α}

/-- A field has been read, unless it has a value for its absence. -/
theorem single {unnamed unplaced : Option α} (h : c.GivesFields (.single key d unnamed unplaced) a) :
    c.Gives d a ∨ unnamed = some a ∨ unplaced = some a := by
  obtain ⟨holding, members, hsource, hread⟩ | ⟨holding, place, items, hsource, hread⟩ := h
  · simp only [Fields.single] at hread
    split at hread
    · rename_i v hlookup
      exact .inl ⟨holding, v, c.source_member hsource _ (mem_of_lookup hlookup), ok_of_mapError hread⟩
    · cases unnamed with
      | none => cases hread
      | some absent =>
        cases hread
        exact .inr (.inl rfl)
  · simp only [Fields.single] at hread
    split at hread
    · rename_i v hitem
      exact .inl ⟨holding, v, c.source_item hsource v (List.mem_of_getElem? hitem), ok_of_mapError hread⟩
    · cases unplaced with
      | none => cases hread
      | some absent =>
        cases hread
        exact .inr (.inr rfl)

/-- A required field gives what its reader gives. -/
theorem required (h : c.GivesFields (.required key d) a) : c.Gives d a := by
  obtain h | h | h := single h
  · exact h
  · cases h
  · cases h

/-- A field that may be absent gives nothing, or what its reader gives. -/
theorem optional {o : Option α} (h : c.GivesFields (.optional key d) o) : ∀ a, o = some a → c.Gives d a := by
  rintro a rfl
  change c.GivesFields (.single key (nullable d) (some none) (some none)) (some a) at h
  obtain h | h | h := single h
  · exact h.nullable
  · cases h
  · cases h

/-- The items of a list that may be left out are given by their reader. -/
theorem defaultedList {as : List α} (h : c.GivesFields (.defaulted key (list d) []) as) :
    ∀ a ∈ as, c.Gives d a := by
  obtain h | h | h := single h
  · exact h.list
  · cases h
    exact fun a ha => nomatch ha
  · cases h
    exact fun a ha => nomatch ha

/-- The values of a map that may be left out are given by their reader, under keys that are carried. -/
theorem defaultedDict {entries : List (String × α)} (h : c.GivesFields (.defaulted key (dict d) []) entries) :
    c.DictKeys entries ∧ ∀ x ∈ entries, c.Gives d x.2 := by
  obtain h | h | h := single h
  · exact h.dict
  · cases h
    exact ⟨dictKeys_nil, fun x hx => nomatch hx⟩
  · cases h
    exact ⟨dictKeys_nil, fun x hx => nomatch hx⟩

end GivesFields

/-- The fields of a record that was read have been read. -/
theorem Gives.record {title : String} (h : c.Gives (record title as) a) : c.GivesFields as a := by
  obtain ⟨holding, v, hv, hread⟩ := h
  cases v with
  | object members => exact .inl ⟨holding, members, hv, ok_of_mapError hread⟩
  | list items =>
    rw [Schema.record] at hread
    split at hread
    · cases hread
    · cases hread
    · rename_i b hplaced
      split at hread
      · cases hread
        exact .inr ⟨holding, 0, items, hv, hplaced⟩
      · cases hread
  | _ => cases hread

/-- What is read as a record is given by its fields. -/
theorem Gives.namedRecord {title : String} (h : c.Gives (namedRecord title as) a) : c.GivesFields as a := by
  obtain ⟨holding, v, hv, hread⟩ := h
  cases v with
  | object members => exact .inl ⟨holding, members, hv, ok_of_mapError hread⟩
  | _ => cases hread

end Records

/-! ## Alternatives -/

section Alternatives

variable {α : Type} {e : α → Json} {a : α}

/-- A word is read back if it names the value. -/
theorem readsBack_word {cases : List (List String × α)} {w : String} (he : e a = .text w)
    (hnamed : Schema.named cases w = .ok a) : c.ReadsBack (word cases) e a where
  read h := by rw [he, c.carry_text, word, hnamed]
  ne_null := by
    rw [he, c.carry_text]
    exact Json.noConfusion

/-- A word that names an alternative is one of its words. -/
theorem exists_of_named {cases : List (List String × α)} {w : String} {a : α}
    (h : Schema.named cases w = .ok a) : ∃ x ∈ cases, w ∈ x.1 ∧ x.2 = a := by
  unfold Schema.named at h
  split at h
  · rename_i words found hfind
    cases h
    have hword := List.find?_some hfind
    exact ⟨_, List.mem_of_find?_eq_some hfind, by simpa using hword, rfl⟩
  · cases h

/-- What is read as a word is the word, or an object with the word for its one key. -/
theorem word_eq_ok {cases : List (List String × α)} {h : Holding} {v : Json} {a : α}
    (hread : word cases h v = .ok a) :
    ∃ w, Schema.named cases w = .ok a ∧ (v = .text w ∨ ∃ x, v = .object [(w, x)]) := by
  unfold word at hread
  split at hread
  · exact ⟨_, hread, .inl rfl⟩
  · rename_i w x
    obtain ⟨b, hnamed, hread⟩ := bind_eq_ok hread
    obtain ⟨_, _, hread⟩ := bind_eq_ok hread
    cases hread
    exact ⟨w, hnamed, .inr ⟨x, rfl⟩⟩
  · cases hread
  · cases hread

variable {d : Decoder α} {ds : List (Decoder α)} {family : String}

/-- A value that its first reading reads back is read back. -/
theorem ReadsBack.here (h : c.ReadsBack d e a) : c.ReadsBack (readings family (d :: ds)) e a where
  read holding := by simp only [readings, firstOf, h.read]
  ne_null := h.ne_null

/-- A value that its first reading does not take is left to the others. -/
theorem ReadsBack.there (h : c.ReadsBack (readings family ds) e a)
    (hfirst : ∀ b, d .shared (c.carry (e a)) ≠ .ok b) : c.ReadsBack (readings family (d :: ds)) e a where
  read holding := by
    have hrest := h.read holding
    simp only [readings] at hrest
    simp only [readings, firstOf]
    cases hd : d .shared (c.carry (e a)) with
    | error fault => exact hrest
    | ok b => exact absurd hd (hfirst b)
  ne_null := h.ne_null

/-- A reader that takes no tree from which the value can be read does not take the tree of the value. -/
theorem ReadsBack.apart {β : Type} {d' : Decoder β} (h : c.ReadsBack d e a)
    (hd : ∀ v b, d' .shared v = .ok b → d .plain v ≠ .ok a) (b : β) :
    d' .shared (c.carry (e a)) ≠ .ok b := fun hread => hd _ b hread (h.read .plain)

/-- A record is not read from the tree of a value that holds, under the key of its type, a word that its
reader does not take. -/
theorem Written.apart {β γ : Type} {as : Fields α} {keys : List String} {written : List (String × Json)}
    {fs : Fields β} {d : Decoder γ} {key w title : String} (h : c.Written as a keys written)
    (he : e a = .object written) (hmember : (key, .text w) ∈ written) (hword : ∀ t, d .shared (.text w) ≠ .ok t)
    (hfs : ∀ members b, fs.named .shared members = .ok b →
      ∃ t, (Fields.required key d).named .shared members = .ok t) (b : β) :
    Schema.namedRecord title fs .shared (c.carry (e a)) ≠ .ok b := by
  obtain ⟨carried, hcarry, hlookup⟩ := c.carry_object h.nodup
  rw [he, hcarry]
  intro hread
  obtain ⟨t, ht⟩ := hfs carried b (ok_of_mapError hread)
  obtain ⟨v, hv, htaken⟩ := named_required_eq_ok ht
  rw [hlookup, lookup_of_mem h.nodup hmember, Option.map_some, c.carry_text] at hv
  cases hv
  exact hword t htaken

/-- A value with several readings was read by the first one, or by the others where that one fails. -/
theorem Gives.readings (h : c.Gives (readings family (d :: ds)) a) :
    c.Gives d a ∨ ∃ v, c.Source v ∧ (∀ b, d .shared v ≠ .ok b) ∧
      ∀ holding, Schema.readings family ds holding v = .ok a := by
  obtain ⟨holding, v, hv, hread⟩ := h
  simp only [Schema.readings, firstOf] at hread
  cases hd : d .shared v with
  | error fault =>
    rw [hd] at hread
    refine .inr ⟨v, hv, fun b hb => ?_, fun _ => hread⟩
    rw [hd] at hb
    cases hb
  | ok b =>
    rw [hd] at hread
    cases hread
    exact .inl ⟨.shared, v, hv, hd⟩

/-- What one of some readings gives is given by the first or by one of the others. -/
theorem Gives.readings_or (h : c.Gives (Schema.readings family (d :: ds)) a) :
    c.Gives d a ∨ c.Gives (Schema.readings family ds) a := by
  obtain h | ⟨v, hv, _, hread⟩ := h.readings
  · exact .inl h
  · exact .inr ⟨.plain, v, hv, hread .plain⟩

/-- A value that the first reading does not find in a tree is found by the others. -/
theorem readings_of_error {fault : Fault} {holding : Holding} {v : Json} (hd : d .shared v = .error fault)
    (h : Schema.readings family (d :: ds) holding v = .ok a) :
    Schema.readings family ds holding v = .ok a := by
  simp only [Schema.readings, firstOf, hd] at h
  exact h

/-- What is found by the only reading is found by its reader. -/
theorem of_reading {holding : Holding} {v : Json} (h : Schema.readings family [d] holding v = .ok a) :
    d .shared v = .ok a := by
  cases hd : d .shared v with
  | error fault => cases readings_of_error hd h
  | ok b =>
    simp only [Schema.readings, firstOf, hd] at h
    exact h

/-- A value with one reading was read by it. -/
theorem Gives.reading (h : c.Gives (Schema.readings family [d]) a) : c.Gives d a := by
  obtain ⟨holding, v, hv, hread⟩ := h
  exact ⟨.shared, v, hv, of_reading hread⟩

/-- What is found under a key is found after another key has been taken out. -/
theorem lookup_filter_ne {key other : String} (hne : other ≠ key) (members : List (String × Json)) :
    (members.filter (·.1 ≠ key)).lookup other = members.lookup other := by
  induction members with
  | nil => rfl
  | cons m rest ih =>
    obtain ⟨name, v⟩ := m
    rw [List.filter_cons]
    by_cases hname : name = key
    · rw [if_neg (by simpa using hname), ih, List.lookup_cons, beq_false_of_ne (hname ▸ hne)]
    · rw [if_pos (by simpa using hname), List.lookup_cons, List.lookup_cons, ih]

/-- A value is read back under its tag if the reader that the tag names reads back the fields. -/
theorem Written.tagged {β : Type} {as : Fields β} {b : β} {keys : List String}
    {written : List (String × Json)} (h : c.Written as b keys written) (htag : tagKey ∉ keys)
    {cases : List (List String × Decoder α)} {tag : String} {body : Decoder α}
    (hcase : Schema.named cases tag = .ok body)
    (hbody : ∀ holding members, as.named holding members = .ok b →
      body holding (.object members) = .ok a)
    (he : e a = .object (member tagKey (.text tag) ++ written)) :
    c.ReadsBack (tagged family cases) e a := by
  have habsent : tagKey ∉ written.map Prod.fst := by
    intro hmem
    obtain ⟨m, hm, hkey⟩ := List.mem_map.1 hmem
    exact htag (hkey ▸ h.within m hm)
  have hnodup : ((member tagKey (.text tag) ++ written).map Prod.fst).Nodup :=
    List.nodup_cons.2 ⟨habsent, h.nodup⟩
  obtain ⟨carried, hcarry, hlookup⟩ := c.carry_object hnodup
  have hfound : carried.lookup tagKey = some (.text tag) := by
    have htagged : (member tagKey (.text tag) ++ written).lookup tagKey = some (.text tag) :=
      List.lookup_cons_self
    rw [hlookup, htagged, Option.map_some, c.carry_text]
  -- without its tag the object holds what was written for the fields
  have hread : as.named .detached (carried.filter (·.1 ≠ tagKey)) = .ok b := by
    refine h.read _ _ fun key hkey => ?_
    have hne : key ≠ tagKey := fun heq => htag (heq ▸ hkey)
    rw [lookup_filter_ne hne, hlookup]
    change (List.lookup key ((tagKey, .text tag) :: written)).map c.carry = _
    rw [List.lookup_cons, beq_false_of_ne hne]
  refine ⟨fun holding => ?_, ?_⟩
  · have hchosen : tagged? cases holding (.text tag) = .ok body := by
      rw [tagged?, hcase]
    rw [he, hcarry, Schema.tagged, hfound]
    dsimp only
    rw [hchosen]
    exact hbody _ _ hread
  · rw [he, hcarry]
    exact Json.noConfusion

/-- A record is read back under its tag if its fields are. -/
theorem Written.taggedRecord {as : Fields α} {keys : List String} {written : List (String × Json)}
    (h : c.Written as a keys written) (tag : String) (htag : tagKey ∉ keys)
    {cases : List (List String × Decoder α)} {title : String}
    (hcase : Schema.named cases tag = .ok (Schema.record title as))
    (he : e a = .object (member tagKey (.text tag) ++ written)) : c.ReadsBack (Schema.tagged family cases) e a :=
  h.tagged htag hcase (fun _ _ hread => record_object hread) he

/-- So is what is made of a record. -/
theorem Written.taggedMap {β : Type} {as : Fields β} {b : β} {g : β → α} {keys : List String}
    {written : List (String × Json)} (h : c.Written as b keys written) (tag : String) (htag : tagKey ∉ keys)
    {cases : List (List String × Decoder α)} {title : String}
    (hcase : Schema.named cases tag = .ok ((Schema.record title as).map g))
    (he : e (g b) = .object (member tagKey (.text tag) ++ written)) :
    c.ReadsBack (Schema.tagged family cases) e (g b) := by
  refine h.tagged htag hcase (fun holding members hread => ?_) he
  rw [Decoder.map, record_object hread]
  rfl

/-- What is read under a tag is one of the cases. -/
theorem exists_of_tagged? {β : Type} {cases : List (List String × β)} {holding : Holding} {v : Json} {b : β}
    (h : tagged? cases holding v = .ok b) : ∃ x ∈ cases, x.2 = b := by
  unfold tagged? at h
  split at h
  · obtain ⟨x, hx, _, hb⟩ := exists_of_named h
    exact ⟨x, hx, hb⟩
  · cases h
  · split at h
    · cases h
    · split at h
      · rename_i words found hitem
        cases h
        exact ⟨_, List.mem_of_getElem? hitem, rfl⟩
      · cases h
  · cases h

/-- A tagged value was read by the reader of one of the tags. -/
theorem Gives.tagged {cases : List (List String × Decoder α)} (h : c.Gives (tagged family cases) a) :
    ∃ x ∈ cases, c.Gives x.2 a := by
  obtain ⟨holding, v, hv, hread⟩ := h
  unfold Schema.tagged at hread
  split at hread
  · split at hread
    · cases hread
    · obtain ⟨body, hbody, hread⟩ := bind_eq_ok hread
      obtain ⟨x, hx, rfl⟩ := exists_of_tagged? hbody
      exact ⟨x, hx, .detached, _, c.source_without tagKey hv, hread⟩
  · cases hread
  · obtain ⟨body, hbody, hread⟩ := bind_eq_ok hread
    obtain ⟨x, hx, rfl⟩ := exists_of_tagged? hbody
    exact ⟨x, hx, .detached, _, c.source_tail hv, hread⟩
  · cases hread

end Alternatives

/-! ## Nested values -/

section Nested

variable {α : Type} {level : Decoder α → Decoder α} {e : α → Json} {a : α}

/-- What is read at any depth is read up to some depth. -/
theorem Gives.nested (h : c.Gives (nested level) a) : ∃ n, c.Gives (nestedUpTo level n) a := by
  obtain ⟨holding, v, hv, hread⟩ := h
  exact ⟨v.depth + 1, holding, v, hv, hread⟩

/-- A value that is nested less deeply than its reader goes is read back. -/
theorem readsBack_nested (h : ∀ n, (c.carry (e a)).depth < n → c.ReadsBack (nestedUpTo level n) e a) :
    c.ReadsBack (nested level) e a where
  read holding := (h _ (Nat.lt_succ_self _)).read holding
  ne_null := (h _ (Nat.lt_succ_self _)).ne_null

/-- An item is no deeper than the deepest item of its list. -/
theorem depth_le_depthList {v : Json} {items : List Json} (h : v ∈ items) :
    v.depth ≤ Json.depthList items := by
  induction items with
  | nil => cases h
  | cons w rest ih =>
    rw [Json.depthList]
    obtain rfl | h := List.mem_cons.1 h
    · exact Nat.le_max_left _ _
    · exact Nat.le_trans (ih h) (Nat.le_max_right _ _)

/-- A member is no deeper than the deepest member of its object. -/
theorem depth_le_depthMembers {m : String × Json} {members : List (String × Json)} (h : m ∈ members) :
    m.2.depth ≤ Json.depthMembers members := by
  induction members with
  | nil => cases h
  | cons n rest ih =>
    rw [Json.depthMembers]
    obtain rfl | h := List.mem_cons.1 h
    · exact Nat.le_max_left _ _
    · exact Nat.le_trans (ih h) (Nat.le_max_right _ _)

/-- A member that may be missing has no other key than its own. -/
theorem keys_memberIf {β : Type} (key : String) (e : β → Json) (o : Option β) :
    ((memberIf key e o).map Prod.fst).Sublist [key] := by
  cases o with
  | none => exact List.nil_sublist _
  | some b => exact List.Sublist.refl _

/-- A member for a list that may be empty has no other key than its own. -/
theorem keys_memberList {β : Type} (key : String) (e : β → Json) (bs : List β) :
    ((memberList key e bs).map Prod.fst).Sublist [key] := by
  cases bs with
  | nil => exact List.nil_sublist _
  | cons b rest => exact List.Sublist.refl _

/-- An item is nested less deeply than its list. -/
theorem depth_item (c : Channel) {v : Json} {items : List Json} (h : v ∈ items) :
    (c.carry v).depth < (c.carry (.list items)).depth := by
  rw [c.carry_list, Json.depth]
  exact Nat.lt_succ_of_le (depth_le_depthList (List.mem_map_of_mem h))

/-- A member is nested less deeply than its object. -/
theorem depth_member (c : Channel) {v : Json} {key : String} {members : List (String × Json)}
    (hnodup : (members.map Prod.fst).Nodup) (h : (key, v) ∈ members) :
    (c.carry v).depth < (c.carry (.object members)).depth := by
  obtain ⟨carried, hcarry, hlookup⟩ := c.carry_object hnodup
  have hfound : carried.lookup key = some (c.carry v) := by
    rw [hlookup, lookup_of_mem hnodup h, Option.map_some]
  rw [hcarry, Json.depth]
  exact Nat.lt_succ_of_le (depth_le_depthMembers (mem_of_lookup hfound))

end Nested

end Channel

end Workbook.Schema
