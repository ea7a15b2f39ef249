import Recount.Double.Shortest

/-!
# JSON values

A JSON value is a tree whose objects hold their members in the order of their keys, one member
for each key. Integers that fit 64 bits are kept apart from doubles.
-/

namespace Recount

/-- A JSON number. -/
inductive Json.Number where
  /-- An integer between `-2 ^ 63` and `2 ^ 64 - 1`. -/
  | int (value : Int)
  /-- Any other number, rounded to a double. -/
  | double (value : Double)
deriving DecidableEq, Repr

/-- A JSON value. -/
inductive Json where
  | null
  | bool (value : Bool)
  | num (value : Json.Number)
  | str (value : String)
  | arr (items : List Json)
  | obj (members : List (String × Json))
deriving Inhabited, Repr

namespace Json

/-- The smallest integer that is not rounded. -/
def minInt : Int := -(2 ^ 63)

/-- The largest integer that is not rounded. -/
def maxInt : Int := 2 ^ 64 - 1

/-- An integer as JSON. -/
def int (n : Int) : Json := .num (.int n)

/-- A natural number as JSON. -/
def nat (n : Nat) : Json := .int n

/-- Enters a member at the place of its key, in place of a member with the same key. -/
def insertMember (key : String) (value : Json) : List (String × Json) → List (String × Json)
  | [] => [(key, value)]
  | (k, v) :: rest =>
    if key < k then (key, value) :: (k, v) :: rest
    else if key = k then (key, value) :: rest
    else (k, v) :: insertMember key value rest

/-- The object with the given members; of members with one key the last one counts. -/
def ofMembers (members : List (String × Json)) : Json :=
  .obj (members.foldl (fun sorted (key, value) => insertMember key value sorted) [])

/-- The member of a list with the given key. -/
def member? (members : List (String × Json)) (key : String) : Option Json :=
  (members.find? (·.1 == key)).map (·.2)

/-- The member of an object with the given key. -/
def get? (value : Json) (key : String) : Option Json :=
  match value with
  | .obj members => member? members key
  | _ => none

/-- The member with the given key, or null. -/
def getOrNull (value : Json) (key : String) : Json := (value.get? key).getD .null

/-- An optional value, absent as null. -/
def ofOption (encode : α → Json) : Option α → Json
  | some a => encode a
  | none => .null

/-- A list of values as an array. -/
def ofList (encode : α → Json) (values : List α) : Json := .arr (values.map encode)

/-- An optional text. -/
def ofText? : Option String → Json := ofOption .str

/-- The text of a value that is a text. -/
def str? : Json → Option String
  | .str s => some s
  | _ => none

/-- The members of a value that is an object. -/
def members : Json → List (String × Json)
  | .obj members => members
  | _ => []

/-- The elements of a value that is an array. -/
def elements : Json → List Json
  | .arr items => items
  | _ => []

/-- A value is null. -/
def isNull : Json → Bool
  | .null => true
  | _ => false

end Json
end Recount
