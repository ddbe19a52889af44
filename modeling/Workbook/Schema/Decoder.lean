import Workbook.Schema.Fault

/-!
# Decoders

Reading a JSON tree as a value of a type, and the ways to build such readers: scalars, lists, maps,
records, words, tagged values and values with several readings.

A record is written as an object or as a list of its fields in their order. Of several bad members the
one whose key comes first is reported; an absent member is reported only when no member is bad, and of
several the one that is declared first.
-/

namespace Workbook.Schema

/-- How the value at hand is held. It decides three fine points: whether a tag may be given by its number,
how a list that is too long is reported, and whether a word may carry an empty object. -/
inductive Holding where
  /-- As it stands in the document. -/
  | plain
  /-- As one of several readings that are tried. -/
  | shared
  /-- As what is left of a tagged value when its tag has been taken out. -/
  | detached
deriving DecidableEq, Repr

/-- A reader of trees. -/
abbrev Decoder (α : Type) := Holding → Json → Except Fault α

/-- A type that is written as a tree and read back. -/
class Codec (α : Type) where
  /-- Read a tree. -/
  decoder : Decoder α
  /-- Write a tree. -/
  encode : α → Json

export Codec (decoder encode)

/-- Decode a tree of a document. -/
def decode (α : Type) [Codec α] (tree : Json) : Except Fault α := decoder .plain tree

/-- A decoder followed by a function. -/
def Decoder.map {α β : Type} (f : α → β) (d : Decoder α) : Decoder β := fun h v => (d h v).map f

/-! ## Scalars -/

/-- A text. -/
def text : Decoder String
  | _, .text s => .ok s
  | _, v => .error (.wrongType v "a string")

/-- A truth value. -/
def boolean : Decoder Bool
  | _, .boolean b => .ok b
  | _, v => .error (.wrongType v "a boolean")

/-- A whole number below a bound. -/
def below (bound : Nat) (name : String) : Decoder Nat
  | _, .integer n =>
    if 0 ≤ n && n < bound then .ok n.toNat else .error (.wrongValue (.integer n) name)
  | _, v => .error (.wrongType v name)

/-- A count of 32 bits. -/
def count : Decoder UInt32 := (below UInt32.size "u32").map UInt32.ofNat

/-- A byte. -/
def byte : Decoder UInt8 := (below UInt8.size "u8").map UInt8.ofNat

/-- A place in a list or a text. -/
def size : Decoder Nat := below UInt64.size "usize"

/-- The binary64 number nearest to a whole number of a machine word. -/
def realOfInteger (n : Int) : Float :=
  if n < 0 then -(UInt64.ofNat n.natAbs).toFloat else (UInt64.ofNat n.natAbs).toFloat

/-- A number. Whole numbers are rounded. -/
def real : Decoder Float
  | _, .real x => .ok x
  | _, .integer n => .ok (realOfInteger n)
  | _, v => .error (.wrongType v "f64")

/-- Any tree. -/
def anything : Decoder Json := fun _ v => .ok v

/-! ## Collections -/

/-- A list of values. -/
def list {α : Type} (item : Decoder α) : Decoder (List α)
  | h, .list items => items.mapM (item h)
  | _, v => .error (.wrongType v "a sequence")

/-- An object whose keys are names. -/
def dict {α : Type} (value : Decoder α) : Decoder (List (String × α))
  | h, .object members => members.mapM fun (key, v) => (value h v).map (key, ·)
  | _, v => .error (.wrongType v "a map")

/-- A value that may be null. -/
def nullable {α : Type} (value : Decoder α) : Decoder (Option α)
  | _, .null => .ok none
  | h, v => (value h v).map some

/-- How a list that is longer than its `count` readable items is reported. -/
def tooLong (h : Holding) (count length : Nat) : Fault :=
  .wrongLength length <| match h with
    | .plain => "fewer elements in array"
    | _ => toString count ++ (if count = 1 then " element" else " elements") ++ " in sequence"

/-- A list of a fixed length. -/
def vector {α : Type} (length : Nat) (item : Decoder α) : Decoder (List α)
  | h, .list items => do
    let read ← (items.take length).mapM (item h)
    if items.length < length then
      .error (.wrongLength items.length ("an array of length " ++ toString length))
    else if length < items.length then .error (tooLong h length items.length)
    else return read
  | _, v => .error (.wrongType v ("an array of length " ++ toString length))

/-! ## Records -/

/-- Why the members of an object are no record. -/
inductive MemberFault where
  /-- The member with this key is bad. -/
  | bad (key : String) (fault : Fault)
  /-- A member that must be there is absent. -/
  | absent (key : String)

/-- Of two faults the one that is reported; the first is that of the field declared first. -/
def MemberFault.first : MemberFault → MemberFault → MemberFault
  | .bad k f, .bad l g => if l < k then .bad l g else .bad k f
  | .bad k f, .absent _ => .bad k f
  | .absent _, .bad l g => .bad l g
  | .absent k, .absent _ => .absent k

/-- A member fault as a fault of the record. -/
def MemberFault.fault : MemberFault → Fault
  | .bad _ f => f
  | .absent key => .missing key

/-- Why the items of a list are no record. -/
inductive ItemFault where
  | bad (fault : Fault)
  /-- The list ends before the item with this number, which must be there. -/
  | short (place : Nat)

/-- The fields of a record in their order, with the way to read them from an object and from a list. -/
structure Fields (α : Type) where
  /-- The number of fields. -/
  width : Nat
  /-- Read from the members of an object. -/
  named : Holding → List (String × Json) → Except MemberFault α
  /-- Read from the items of a list, the first field at a given place. -/
  placed : Holding → Nat → List Json → Except ItemFault α

namespace Fields

variable {α β : Type}

/-- No field. -/
def pure (a : α) : Fields α := ⟨0, fun _ _ => .ok a, fun _ _ _ => .ok a⟩

/-- The fields of two groups, one after the other. -/
def andThen (fs : Fields (α → β)) (as : Fields α) : Fields β where
  width := fs.width + as.width
  named h members :=
    match fs.named h members, as.named h members with
    | .ok f, .ok a => .ok (f a)
    | .error e, .ok _ => .error e
    | .ok _, .error e => .error e
    | .error e, .error e' => .error (e.first e')
  placed h place items :=
    match fs.placed h place items with
    | .error e => .error e
    | .ok f => (as.placed h (place + fs.width) items).map f

/-- One field: its key, its reader, and what its absence from an object and from a list means. -/
def single (key : String) (value : Decoder α) (unnamed unplaced : Option α) : Fields α where
  width := 1
  named h members :=
    match members.lookup key with
    | some v => (value h v).mapError (.bad key)
    | none => match unnamed with
      | some a => .ok a
      | none => .error (.absent key)
  placed h place items :=
    match items[place]? with
    | some v => (value h v).mapError .bad
    | none => match unplaced with
      | some a => .ok a
      | none => .error (.short place)

/-- A field that must be there. -/
def required (key : String) (value : Decoder α) : Fields α := single key value none none

/-- A field with a value for its absence. -/
def defaulted (key : String) (value : Decoder α) (absent : α) : Fields α :=
  single key value (some absent) (some absent)

/-- A field that may be null or absent. -/
def optional (key : String) (value : Decoder α) : Fields (Option α) :=
  defaulted key (nullable value) none

/-- A field that may be null, and absent from an object but not from a list. -/
def listedOptional (key : String) (value : Decoder α) : Fields (Option α) :=
  single key (nullable value) (some none) none

end Fields

instance : Functor Fields where
  map f as := (Fields.pure f).andThen as

instance : Seq Fields where
  seq fs as := fs.andThen (as ())

/-- The text that messages show for a record of some width. -/
def widthText (title : String) (width : Nat) : String :=
  title ++ " with " ++ toString width ++ (if width = 1 then " element" else " elements")

/-- A record under the title that messages show, from an object or a list. -/
def record {α : Type} (title : String) (fields : Fields α) : Decoder α
  | h, .object members => (fields.named h members).mapError MemberFault.fault
  | h, .list items =>
    match fields.placed h 0 items with
    | .error (.bad f) => .error f
    | .error (.short place) => .error (.wrongLength place (widthText title fields.width))
    | .ok a =>
      if items.length ≤ fields.width then .ok a
      else .error (tooLong h fields.width items.length)
  | _, v => .error (.wrongType v title)

/-- A record that is written as an object only. -/
def namedRecord {α : Type} (title : String) (fields : Fields α) : Decoder α
  | h, .object members => (fields.named h members).mapError MemberFault.fault
  | _, v => .error (.wrongType v title)

/-! ## Alternatives -/

/-- What a word may carry along: nothing, or a null, or when detached an empty object. -/
def idle : Decoder Unit
  | _, .null => .ok ()
  | .detached, .object [] => .ok ()
  | _, v => .error (.wrongType v "unit")

/-- The alternative that a word names. Each alternative has its words in the order of messages. -/
def named {α : Type} (cases : List (List String × α)) (word : String) : Except Fault α :=
  match cases.find? (·.1.contains word) with
  | some (_, a) => .ok a
  | none => .error (.unknownVariant word (cases.flatMap (·.1)))

/-- A word that names an alternative, alone or as the key of an object with one idle value. -/
def word {α : Type} (cases : List (List String × α)) : Decoder α
  | _, .text s => named cases s
  | h, .object [(key, v)] => do
    let a ← named cases key
    let _ ← idle h v
    return a
  | _, .object members => .error (.wrongValue (.object members) "map with a single key")
  | _, v => .error (.wrongType v "string or map")

/-- The alternative that a tag chooses, by its word or, unless it stands in the document itself, by its
number. -/
def tagged? {α : Type} (cases : List (List String × α)) : Decoder α
  | _, .text s => named cases s
  | .plain, v => .error (.wrongType v "variant identifier")
  | _, .integer n =>
    if n < 0 then .error (.wrongType (.integer n) "variant identifier")
    else match cases[n.toNat]? with
      | some (_, a) => .ok a
      | none =>
        .error (.wrongValue (.integer n) ("variant index 0 <= i < " ++ toString cases.length))
  | _, v => .error (.wrongType v "variant identifier")

/-- The key of a tag. -/
def tagKey : String := "type"

/-- A value whose reader is chosen by its tag, which is the member `type` of an object or the first item
of a list. The tag is looked at before all else. -/
def tagged {α : Type} (family : String) (cases : List (List String × Decoder α)) : Decoder α
  | h, .object members =>
    match members.lookup tagKey with
    | none => .error (.missing tagKey)
    | some tag => do
      let body ← tagged? cases h tag
      body .detached (.object (members.filter (·.1 ≠ tagKey)))
  | _, .list [] => .error (.missing tagKey)
  | h, .list (tag :: items) => do
    let body ← tagged? cases h tag
    body .detached (.list items)
  | _, v => .error (.wrongType v ("internally tagged enum " ++ family))

/-- The first reading that succeeds. -/
def firstOf {α : Type} (h : Holding) (v : Json) : List (Decoder α) → Option α
  | [] => none
  | d :: ds => match d h v with
    | .ok a => some a
    | .error _ => firstOf h v ds

/-- A value with several readings, of which the first that succeeds counts. -/
def readings {α : Type} (family : String) (ds : List (Decoder α)) : Decoder α := fun _ v =>
  match firstOf .shared v ds with
  | some a => .ok a
  | none => .error (.noReading family)

/-! ## Nested values -/

/-- A decoder that calls itself up to a number of levels deep. -/
def nestedUpTo {α : Type} (level : Decoder α → Decoder α) : Nat → Decoder α
  | 0 => fun _ _ => .error .nestedTooDeep
  | n + 1 => level (nestedUpTo level n)

/-- A decoder that calls itself on parts of its value. The depth of the value bounds the calls. -/
def nested {α : Type} (level : Decoder α → Decoder α) : Decoder α := fun h v =>
  nestedUpTo level (v.depth + 1) h v

/-! ## Writing -/

/-- A member that is always written. -/
def member (key : String) (v : Json) : List (String × Json) := [(key, v)]

/-- A member that is written when there is a value. -/
def memberIf {α : Type} (key : String) (encode : α → Json) : Option α → List (String × Json)
  | none => []
  | some a => [(key, encode a)]

/-- A list member that is written unless the list is empty. -/
def memberList {α : Type} (key : String) (encode : α → Json) : List α → List (String × Json)
  | [] => []
  | items => [(key, .list (items.map encode))]

/-- A map member that is written unless the map is empty. -/
def memberDict {α : Type} (key : String) (encode : α → Json) :
    List (String × α) → List (String × Json)
  | [] => []
  | entries => [(key, .object (entries.map fun (name, a) => (name, encode a)))]

/-- A whole number. -/
def ofCount (n : UInt32) : Json := .ofNat n.toNat

/-- The first word of each alternative, by which it is written. -/
def wordOf {α : Type} [BEq α] (cases : List (List String × α)) (a : α) : String :=
  match cases.find? (·.2 == a) with
  | some (w :: _, _) => w
  | _ => ""

end Workbook.Schema
