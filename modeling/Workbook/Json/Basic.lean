/-!
# JSON trees

The values of a JSON document. Whole numbers that a machine word holds are kept exactly, all other
numbers as binary64. The members of an object that was read stand in increasing order of their keys,
each key once; a tree that is to be written keeps the order in which it was built.
-/

namespace Workbook

/-- A JSON value. -/
inductive Json where
  | null
  | boolean (b : Bool)
  /-- A whole number between `-2 ^ 63` and `2 ^ 64 - 1`. -/
  | integer (n : Int)
  | real (x : Float)
  | text (s : String)
  | list (items : List Json)
  | object (members : List (String × Json))
deriving Inhabited

namespace Json

mutual
/-- The levels of lists and objects; a scalar has none. -/
def depth : Json → Nat
  | .list items => depthList items + 1
  | .object members => depthMembers members + 1
  | _ => 0

/-- The greatest depth among items. -/
def depthList : List Json → Nat
  | [] => 0
  | item :: items => max (depth item) (depthList items)

/-- The greatest depth among members. -/
def depthMembers : List (String × Json) → Nat
  | [] => 0
  | (_, value) :: members => max (depth value) (depthMembers members)
end

/-- The members with one more. A key that is there already gets the new value, a new key its place in
the order of keys. -/
def insertMember (key : String) (value : Json) : List (String × Json) → List (String × Json)
  | [] => [(key, value)]
  | (k, v) :: rest =>
    if key < k then (key, value) :: (k, v) :: rest
    else if key = k then (key, value) :: rest
    else (k, v) :: insertMember key value rest

/-- The value of an object's member. -/
def get? (key : String) : Json → Option Json
  | .object members => members.lookup key
  | _ => none

/-- A whole number of any size. -/
def ofNat (n : Nat) : Json := .integer n

end Json

end Workbook
