import Recount.Json.Printer
import Recount.Load.Field
import Recount.Load.Record
import Recount.Mapping.Parts
import Recount.Sql.Catalog

/-!
# Reading rows

A row becomes an item record in two steps. The field mappings put values under the names of their
targets, converted to the mapped types; then each field of the record takes the first value that
is found under one of its spellings.
-/

namespace Recount

/-- The values of a row by the keys of their columns; the first entry of a key counts. -/
abbrev KeyedValues := List (String × Json)

namespace KeyedValues

/-- The value under a key. -/
def get? (values : KeyedValues) (key : String) : Option Json :=
  (values.find? (·.1 == key)).map (·.2)

/-- Puts a value under a key, before any that was there. -/
def set (values : KeyedValues) (key : String) (value : Json) : KeyedValues := (key, value) :: values

/-- The values of a row; of columns with one key the last one counts. -/
def ofRow (row : Row) : KeyedValues :=
  row.foldl (fun values (column, value) => values.set (columnKey column) value) []

end KeyedValues

/-- Why a row cannot be read: a value that does not fit the type of its field. -/
inductive RowDefect where
  | decimal (field text : String)
  | integer (field text : String)
  | boolean (field text : String)
  | number (field : ItemField) (text : String)
deriving DecidableEq, Repr

/-- The wording of a row's defect. -/
def RowDefect.message : RowDefect → String
  | decimal field text => "Invalid decimal for " ++ field ++ ": " ++ text
  | integer field text => "Invalid integer for " ++ field ++ ": " ++ text
  | boolean field text => "Invalid boolean for " ++ field ++ ": " ++ text
  | number field text => "Invalid number for " ++ field.title ++ ": " ++ text

namespace Transform

/-- The text of a value, if there is any. -/
def textOf? (value : Json) : Option String :=
  let text := match value with
    | .null => ""
    | .str s => Text.trim s
    | value => value.print
  if text.isEmpty then none else some text

/-- A quantity; commas between its digits are passed over. -/
def quantity? (text : String) : Option Decimal :=
  Decimal.ofText? (String.ofList (text.toList.filter (· != ',')))

/-- Changes the text of a value. -/
def change (transform : Option FieldTransform) (value : Json) : Json :=
  match value, transform with
  | .str s, some .trim => .str (Text.trim s)
  | .str s, some .uppercase => .str (Text.upper (Text.trim s))
  | .str s, some .lowercase => .str (Text.lower (Text.trim s))
  | value, _ => value

/-- Converts a value to the type of the field named `field`. -/
def coerce (type : FieldType) (field : String) (value : Json) : Except RowDefect Json :=
  match textOf? value with
  | none => .ok .null
  | some text =>
    match type with
    | .string => .ok (.str text)
    | .decimal =>
      match quantity? text with
      | some d => .ok (.str d.normalize.toNumeral)
      | none => .error (.decimal field text)
    | .integer =>
      match (quantity? text).bind Decimal.toWhole? with
      | some d => .ok (.str d.toNumeral)
      | none => .error (.integer field text)
    | .boolean =>
      let word := Text.asciiLower text
      if ["true", "1", "y", "yes"].contains word then .ok (.bool true)
      else if ["false", "0", "n", "no"].contains word then .ok (.bool false)
      else .error (.boolean field text)

/-- The value that a field mapping takes: under its target, its bare source or its source. -/
def rawValue? (values : KeyedValues) (m : FieldMapping) : Option Json :=
  [m.target, bareColumn m.source, m.source].findSome? fun name => values.get? (columnKey name)

/-- Applies a field mapping. -/
def applyMapping (values : KeyedValues) (m : FieldMapping) : Except RowDefect KeyedValues :=
  match rawValue? values m with
  | some raw =>
    (coerce m.type m.target (change m.transform raw)).map (values.set (columnKey m.target))
  | none => .ok values

/-- The text of a field: the first that is found under its spellings. -/
def text? (values : KeyedValues) (f : ItemField) : Option String :=
  f.spellings.findSome? fun key => (values.get? key).bind textOf?

/-- The quantity of a field. -/
def number? (values : KeyedValues) (f : ItemField) : Except RowDefect (Option Decimal) :=
  match text? values f with
  | none => .ok none
  | some text =>
    match quantity? text with
    | some d => .ok (some d)
    | none => .error (.number f text)

/-- The record of a row, or none if the row has no item code. -/
def ofRow (fields : List FieldMapping) (row : Row) : Except RowDefect (Option ItemRecord) := do
  let values ← fields.foldlM applyMapping (.ofRow row)
  match text? values .code with
  | none => .ok none
  | some code =>
    let systemQty ← number? values .systemQty
    let packQty ← number? values .packQty
    let cost ← number? values .cost
    let price ← number? values .price
    .ok (some
      { code, name := text? values .name, systemQty, uom := text? values .uom, packQty, cost, price
        barcodes := text? values .barcodes, category := text? values .category
        brand := text? values .brand })

end Transform
end Recount
