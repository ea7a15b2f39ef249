import Recount.File.Table
import Recount.Load.Transform

/-!
# Items in files

The rows of a file as item records. A file must have columns for the code and the name of an item,
and a row that lacks either of them is reported.
-/

namespace Recount.File

/-- The items of a file, and the rows that could not be used. -/
structure Items where
  kind : Kind
  hash : String
  rowsRead : Nat
  records : List ItemRecord
  rowErrors : List RowError
  warnings : List String

/-- A header supplies a field under one of the field's spellings. -/
def suppliesDirectly (f : ItemField) (header : String) : Bool :=
  ItemField.ofColumn? header == some f

/-- A header supplies a field through a field mapping onto it. -/
def suppliesMapped (f : ItemField) (m : FieldMapping) (header : String) : Bool :=
  let key := columnKey header
  (columnKey (bareColumn m.source) == key || columnKey m.target == key) &&
    ItemField.ofColumn? m.target == some f

/-- Some header supplies a field. -/
def supplies (headers : List String) (fields : List FieldMapping) (f : ItemField) : Bool :=
  headers.any fun header => suppliesDirectly f header || fields.any (suppliesMapped f · header)

/-- The fields that every item of a file must have. -/
def requiredFields : List ItemField := [.code, .name]

/-- The record of a row, or what is wrong with the row. -/
def itemOfRow (fields : List FieldMapping) (row : Row) : Except String ItemRecord :=
  match Transform.ofRow fields row with
  | .ok (some record) =>
    if record.name.isSome then .ok record
    else .error ("Item " ++ record.code ++ " has no item name")
  | .ok none => .error "Missing item code"
  | .error defect => .error defect.message

/-- Reads the items of a file. -/
def readItems (content : Content) (filename : String) (fields : List FieldMapping) :
    Except Defect Items := do
  let table ← read content filename
  let missing := requiredFields.filter fun f => !supplies table.headers fields f
  if !missing.isEmpty then .error (.missingColumns (missing.map ItemField.title))
  else
    let results := table.rows.map fun (number, row) => (number, itemOfRow fields row)
    .ok
      { kind := table.kind
        hash := content.hash
        rowsRead := table.rows.length
        records := results.filterMap fun (_, result) => result.toOption
        rowErrors := results.filterMap fun (number, result) =>
          match result with
          | .ok _ => none
          | .error message => some ⟨number, message⟩
        warnings := table.warnings }

end Recount.File
