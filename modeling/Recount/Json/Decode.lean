import Recount.Json.Reader
import Recount.Decimal.Numeral

/-!
# Decoding JSON

Decoders take a draft apart in the order in which it is written, so that of two faults the first
one in the text is reported: either the text stops being JSON, or what it says does not fit. A
record is decoded from an object, whose unknown members are passed over, or from an array of its
fields in order.
-/

namespace Recount
namespace Json

/-- Why a text is not taken. -/
inductive Fault where
  /-- The text is not JSON. -/
  | malformed
  /-- The text is JSON, but not of the expected shape. -/
  | unfit
deriving DecidableEq, Repr

/-- A reader of drafts. -/
abbrev Decoder (α : Type) := Draft → Except Fault α

namespace Decode

/-- The failure of a draft that is not of the expected kind. -/
def mismatch : Draft → Except Fault α
  | .broken => .error .malformed
  | .valueless => .error .malformed
  | _ => .error .unfit

/-- A text. -/
def text : Decoder String
  | .str s => .ok s
  | draft => mismatch draft

/-- A truth value. -/
def bool : Decoder Bool
  | .bool b => .ok b
  | draft => mismatch draft

/-- An integer between two bounds. -/
def intBetween (low high : Int) : Decoder Int
  | .num (.int n) => if low ≤ n && n ≤ high then .ok n else .error .unfit
  | draft => mismatch draft

/-- An integer of 32 bits with sign. -/
def int32 : Decoder Int := intBetween (-(2 ^ 31)) (2 ^ 31 - 1)

/-- An integer of 64 bits with sign. -/
def int64 : Decoder Int := intBetween (-(2 ^ 63)) (2 ^ 63 - 1)

/-- A natural number of so many bits. -/
def natOfBits (bits : Nat) (draft : Draft) : Except Fault Nat :=
  (intBetween 0 (2 ^ bits - 1) draft).map Int.toNat

/-- A number as a double. -/
def double : Decoder Double
  | .num (.int n) => .ok (if n < 0 then (Double.ofNat n.natAbs).neg else Double.ofNat n.natAbs)
  | .num (.double x) => .ok x
  | draft => mismatch draft

/-- A text that a partial reader takes. -/
def textAs (read : String → Option α) : Decoder α
  | .str s => (read s).elim (.error .unfit) .ok
  | draft => mismatch draft

/-- A quantity: a number, through its shortest plain numeral, or a text. -/
def decimal : Decoder Decimal
  | .str s => (Decimal.ofText? s).elim (.error .unfit) .ok
  | .num (.int n) => (Decimal.ofNumeral? (toString n)).elim (.error .unfit) .ok
  | .num (.double x) => (Decimal.ofNumeral? x.plain).elim (.error .unfit) .ok
  | draft => mismatch draft

/-- Any value. -/
def value : Decoder Json := fun draft =>
  if draft.isWhole then .ok draft.toJson else .error .malformed

/-- One of a list of names, or an object whose only member has such a name and the value null. No
other text is a beginning of that, so it is malformed. -/
def choice (read : String → Option α) : Decoder α
  | .str s => (read s).elim (.error .unfit) .ok
  | .obj ((name, value) :: rest) ending =>
    match read name, value with
    | none, _ => .error .unfit
    | some a, .null => if rest.isEmpty && ending = .closed then .ok a else .error .malformed
    | some _, value => mismatch value
  | _ => .error .malformed

/-- Null stands for nothing. -/
def optional (decode : Decoder α) : Decoder (Option α)
  | .null => .ok none
  | draft => (decode draft).map some

/-- Decodes the items of an array in order. -/
def items (decode : Decoder α) (closed : Bool) : List Draft → Except Fault (List α)
  | [] => if closed then .ok [] else .error .malformed
  | item :: rest => do
    let first ← decode item
    let others ← items decode closed rest
    .ok (first :: others)

/-- An array. -/
def list (decode : Decoder α) : Decoder (List α)
  | .arr drafts closed => items decode closed drafts
  | draft => mismatch draft

/-- What is done about a field that is not given: in an object, and in an array that is too
short. -/
structure Absent (α : Type) where
  inObject : Option α
  inArray : Option α

/-- A field of a record: its name and a check of its draft that keeps nothing. -/
structure FieldCheck where
  name : String
  check : Draft → Except Fault Unit

/-- The drafts of a record's fields by name. `isArray` tells that the fields were given in order
and without names. -/
structure Fields where
  drafts : List (String × Draft)
  isArray : Bool

/-- The decoder of a record: the checks of its fields, run in the order of the text, and the
construction of the record from drafts that passed them. -/
structure Record (α : Type) where
  checks : List FieldCheck
  build : Fields → Except Fault α

instance : Functor Record where
  map f r := { r with build := fun fields => (r.build fields).map f }

instance : Pure Record where
  pure a := ⟨[], fun _ => .ok a⟩

instance : Seq Record where
  seq f a := ⟨f.checks ++ (a ()).checks, fun fields => do
    let g ← f.build fields
    let x ← (a ()).build fields
    .ok (g x)⟩

/-- A field with a rule for its absence. -/
def fieldOr (absent : Absent α) (name : String) (decode : Decoder α) : Record α where
  checks := [⟨name, fun draft => (decode draft).map fun _ => ()⟩]
  build fields :=
    match fields.drafts.find? (·.1 == name) with
    | some (_, draft) => decode draft
    | none =>
      ((if fields.isArray then absent.inArray else absent.inObject).elim (.error .unfit) .ok)

/-- A field that must be given. -/
def field (name : String) (decode : Decoder α) : Record α := fieldOr ⟨none, none⟩ name decode

/-- A field that may be null or, in an object, missing. -/
def optField (name : String) (decode : Decoder α) : Record (Option α) :=
  fieldOr ⟨some none, none⟩ name (optional decode)

/-- A field that has a default value when it is missing. -/
def fieldWithDefault (default : α) (name : String) (decode : Decoder α) : Record α :=
  fieldOr ⟨some default, some default⟩ name decode

/-- Checks the members of an object in order. A field may be given once; of a member that is no
field only the form matters. -/
def checkMembers (checks : List FieldCheck) (ending : Draft.End) (seen : List String) :
    List (String × Draft) → Except Fault Unit
  | [] => if ending = .closed then .ok () else .error .malformed
  | (name, draft) :: rest =>
    match checks.find? (·.name == name) with
    | some field =>
      if seen.contains name then .error .unfit
      else do
        field.check draft
        checkMembers checks ending (name :: seen) rest
    | none =>
      if draft.isFormed then checkMembers checks ending seen rest else .error .malformed

/-- Pairs the items of an array with the fields of a record; items left over are a fault of the
text. -/
def nameItems (closed : Bool) : List FieldCheck → List Draft → Except Fault (List (String × Draft))
  | _, [] => if closed then .ok [] else .error .malformed
  | [], _ :: _ => .error .malformed
  | field :: fields, item :: items => do
    field.check item
    let rest ← nameItems closed fields items
    .ok ((field.name, item) :: rest)

/-- Decodes a record. -/
def record (r : Record α) : Decoder α
  | .obj members ending => do
    checkMembers r.checks ending [] members
    r.build ⟨members, false⟩
  | .arr items closed => do
    let drafts ← nameItems closed r.checks items
    r.build ⟨drafts, true⟩
  | draft => mismatch draft

/-- Decodes a value that was read before. -/
def ofJson? (decode : Decoder α) (value : Json) : Option α := (decode value.toDraft).toOption

/-- Decodes the value at the start of a text; what follows the value is not looked at. -/
def ofText (decode : Decoder α) (s : String) : Except Fault α := decode (readDraft s).1

/-- Decodes a text that is one value. -/
def ofWholeText (decode : Decoder α) (s : String) : Except Fault α := do
  let (draft, rest) := readDraft s
  let result ← decode draft
  if (skipSpace rest).isEmpty then .ok result else .error .malformed

end Decode
end Json

/-- A quantity as JSON keeps its scale. -/
def Decimal.toJson (d : Decimal) : Json := .str d.toNumeral

end Recount
