import Recount.Error
import Recount.Sql.Catalog

/-!
# Columns

A value of this library is kept in columns of a database. A column type tells how a value becomes
a parameter of a statement and how it is read from a cell of a result; columns put together tell
the same of a whole record. The value of a cell is given as JSON.
-/

namespace Recount.Database

/-- A value that a statement carries. -/
inductive Parameter where
  | null
  | bool (value : Bool)
  | int (value : Int)
  | text (value : String)
  | texts (values : List String)
  | id (value : Id)
  | time (value : Time)
  | quantity (value : Decimal)
  | json (value : Json)

/-- A quantity as databases keep it: its scale is kept, unless it is zero. -/
def storedQuantity (d : Decimal) : Decimal := if d.isZero then .zero else d

/-- A point in time as databases keep it: in microseconds. -/
def storedTime (t : Time) : Time := { t with nanos := t.nanos - t.nanos % 1000 }

/-- The value of the cell that a parameter fills. -/
def Parameter.toCell : Parameter → Json
  | null => .null
  | bool value => .bool value
  | int value => .int value
  | text value => .str value
  | texts values => Json.ofList .str values
  | id value => value.toJson
  | time value => (storedTime value).toJson
  | quantity value => (storedQuantity value).toJson
  | json value => value

/-- Why a cell holds no value of its column. -/
inductive CellFault where
  | unfit (reason : String)
  | unknown (name : UnknownName)
deriving DecidableEq

/-- The error of a cell in a column. -/
def CellFault.toError (column : String) : CellFault → Error
  | unfit reason => .database (.column column reason)
  | unknown name => .name name

/-- A type of columns. -/
structure ColumnType (α : Type) where
  write : α → Parameter
  read : Json → Except CellFault α

namespace ColumnType

/-- The fault of a cell without a value in a column where each has one. -/
def noValue : CellFault := .unfit "unexpected null; try decoding as an \x60Option\x60"

/-- The type of columns whose cells hold JSON of some shape. -/
def ofDecoder (write : α → Parameter) (decode : Json.Decoder α) (reason : String) :
    ColumnType α where
  write := write
  read
    | .null => .error noValue
    | cell => (Json.Decode.ofJson? decode cell).elim (.error (.unfit reason)) .ok

/-- Identifiers. -/
def id : ColumnType Id := ofDecoder .id Id.decode "invalid identifier"

/-- Texts. -/
def text : ColumnType String := ofDecoder .text Json.Decode.text "invalid text"

/-- Truth values. -/
def bool : ColumnType Bool := ofDecoder .bool Json.Decode.bool "invalid truth value"

/-- Integers of 32 bits. -/
def int32 : ColumnType Int := ofDecoder .int Json.Decode.int32 "invalid integer"

/-- Integers of 64 bits. -/
def int64 : ColumnType Int := ofDecoder .int Json.Decode.int64 "invalid integer"

/-- Points in time. -/
def time : ColumnType Time :=
  ofDecoder .time (fun draft => storedTime <$> Time.decode draft) "invalid timestamp"

/-- Quantities. -/
def quantity : ColumnType Decimal :=
  ofDecoder .quantity (fun draft => storedQuantity <$> Json.Decode.decimal draft)
    "Decimal does not support NaN values"

/-- JSON documents of some shape. -/
def document (encode : α → Json) (decode : Json.Decoder α) : ColumnType α :=
  ofDecoder (fun a => .json (encode a)) decode "invalid document"

/-- Names of alternatives. -/
def named (naming : Naming α) (parse : String → Except UnknownName α) : ColumnType α where
  write a := .text (naming.name a)
  read cell := do (parse (← text.read cell)).mapError .unknown

/-- Columns whose cells may be without a value. -/
def optional (type : ColumnType α) : ColumnType (Option α) where
  write a := a.elim .null type.write
  read
    | .null => .ok none
    | cell => some <$> type.read cell

end ColumnType

/-- The columns in which an `α` is kept as a part of a `ρ`: their names, the values that fill
them, and how they are read. -/
structure Columns (ρ α : Type) where
  names : List String
  parameters : ρ → List Parameter
  read : Row → Except Error α

namespace Columns

instance : Functor (Columns ρ) where
  map f c := { c with read := fun row => (c.read row).map f }

instance : Seq (Columns ρ) where
  seq f a :=
    { names := f.names ++ (a ()).names
      parameters := fun record => f.parameters record ++ (a ()).parameters record
      read := fun row => do
        let g ← f.read row
        let x ← (a ()).read row
        .ok (g x) }

/-- The cell of a row in a column. -/
def cell (row : Row) (name : String) : Json := (Json.member? row name).getD .null

/-- One column. -/
def column (name : String) (type : ColumnType α) (get : ρ → α) : Columns ρ α where
  names := [name]
  parameters record := [type.write (get record)]
  read row := (type.read (cell row name)).mapError (·.toError name)

/-- The columns as they are listed in statements. -/
def list (c : Columns ρ α) : String := Text.join ", " c.names

/-- The row that a record fills. -/
def row (c : Columns ρ α) (record : ρ) : Row :=
  c.names.zip ((c.parameters record).map Parameter.toCell)

end Columns
end Recount.Database
