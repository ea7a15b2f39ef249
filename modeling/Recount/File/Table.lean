import Recount.Digest.Sha256
import Recount.Digest.Text
import Recount.File.Csv
import Recount.File.Defect
import Recount.File.Sheet
import Recount.Json.Reader
import Recount.Sql.Catalog

/-!
# Tables in files

A file of one of three kinds is read into a table: headers, and rows that are numbered as in the
file. The kind is told by the ending of the file's name, or else by how the content begins.
-/

namespace Recount.File

/-- A kind of file. -/
inductive Kind where
  | csv
  | excel
  | json
deriving DecidableEq, Repr

/-- The name of a kind. -/
def Kind.name : Kind → String
  | csv => "csv"
  | excel => "excel"
  | json => "json"

/-- The usual ending of the names of files of a kind. -/
def Kind.ending : Kind → String
  | csv => "csv"
  | excel => "xlsx"
  | json => "json"

/-- The content of a file: its bytes, and the sheets that they hold if they are a workbook. -/
structure Content where
  bytes : ByteArray
  workbook : Option (List Sheet)

/-- Bytes that are no workbook. -/
def Content.ofBytes (bytes : ByteArray) : Content := ⟨bytes, none⟩

/-- The digest by which a file is recognised. -/
def Content.hash (c : Content) : String := Bytes.toHex (Sha256.digest c.bytes)

/-- A table that was read from a file. -/
structure Table where
  kind : Kind
  headers : List String
  rows : List (Nat × Row)
  /-- What had to be passed over. -/
  warnings : List String

/-- The kind that the ending of a name tells. -/
def kindOfName? (filename : String) : Option Kind :=
  let name := Text.lower filename
  let ends ending := Text.endsWith name ending
  if ends ".csv" || ends ".txt" then some .csv
  else if ends ".xlsx" || ends ".xls" then some .excel
  else if ends ".json" then some .json
  else none

/-- The bytes at the beginning of a workbook, old or new. -/
def workbookStarts : List (List UInt8) :=
  [[0x50, 0x4B], [0xD0, 0xCF, 0x11, 0xE0, 0xA1, 0xB1, 0x1A, 0xE1]]

/-- The kind that content tells by its beginning. -/
def kindOfContent? (bytes : ByteArray) : Option Kind :=
  if workbookStarts.any fun start => (bytes.extract 0 start.length).data.toList == start then
    some .excel
  else match Utf8.decode bytes with
    | .error _ => none
    | .ok text =>
      match text.toList.dropWhile Text.isBlank with
      | [] => none
      | '[' :: _ => some .json
      | '\x7b' :: _ => some .json
      | _ => some .csv

/-- The row of some cells under headers; a cell under an empty header is left out. -/
def rowOf (headers cells : List String) : Row :=
  let named := (headers.zip cells).filter fun (header, _) => !header.isEmpty
  match Json.ofMembers (named.map fun (header, cell) => (header, .str cell)) with
  | .obj members => members
  | _ => []

/-- Records are numbered from two on; the headers are number one. -/
def numbered (records : List α) : List (Nat × α) :=
  records.zipIdx.map fun (record, index) => (index + 2, record)

/-- The rows of some records; a record of empty cells is left out. -/
def rowsOf (headers : List String) (records : List (List String)) : List (Nat × Row) :=
  (numbered records).filterMap fun (number, cells) =>
    if cells.all String.isEmpty then none else some (number, rowOf headers cells)

/-- The warnings about records that are longer or shorter than the headers. -/
def widthWarnings (width : Nat) (records : List (List String)) : List String :=
  (numbered records).filterMap fun (number, cells) =>
    if cells.all String.isEmpty || cells.length = width then none
    else some ("Row " ++ toString number ++ " has " ++ toString cells.length ++
      " columns, expected " ++ toString width)

/-- Reads separated values. -/
def ofCsv (bytes : ByteArray) : Except Defect Table :=
  match Utf8.decode bytes with
  | .error fault => .error (.notText fault)
  | .ok text =>
    let cs := text.toList.dropWhile (· == '\ufeff')
    let records := (Csv.read (Csv.separatorOf cs) cs).map (·.map Text.trim)
    let headers := records.head?.getD []
    let records := records.drop 1
    .ok ⟨.csv, headers, rowsOf headers records, widthWarnings headers.length records⟩

/-- Reads the first sheet of a workbook. -/
def ofWorkbook : Option (List Sheet) → Except Defect Table
  | none => .error .notAWorkbook
  | some [] => .error .noSheets
  | some (sheet :: _) =>
    match sheet.texts with
    | [] => .error .emptySheet
    | headers :: records => .ok ⟨.excel, headers, rowsOf headers records, []⟩

/-- Adds the names that are not in a list yet to its end. -/
def addNames (names : List String) (row : Row) : List String :=
  row.foldl (fun names (name, _) => if names.contains name then names else names ++ [name]) names

/-- The table of numbered values that should be objects. -/
def ofItems (items : List (Nat × Json)) : Table where
  kind := .json
  headers := items.foldl (fun names item =>
    match item with
    | (_, .obj row) => addNames names row
    | _ => names) []
  rows := items.filterMap fun item =>
    match item with
    | (number, .obj row) => some (number, row)
    | _ => none
  warnings := items.filterMap fun item =>
    match item with
    | (_, .obj _) => none
    | (number, _) => some ("Item " ++ toString number ++ " is not a JSON object")

/-- Reads JSON: an array of objects, or one object. -/
def ofJson (bytes : ByteArray) : Except Defect Table :=
  match (String.fromUTF8? bytes).bind Json.parse? with
  | none => .error .notJson
  | some (.arr items) => .ok (ofItems (items.zipIdx.map fun (item, index) => (index + 1, item)))
  | some (.obj row) => .ok (ofItems [(1, .obj row)])
  | some _ => .error .notObjects

/-- Reads content of a known kind. -/
def ofKind (content : Content) : Kind → Except Defect Table
  | .csv => ofCsv content.bytes
  | .excel => ofWorkbook content.workbook
  | .json => ofJson content.bytes

/-- Reads a file. It must have a header that is not blank, and a row. -/
def read (content : Content) (filename : String) : Except Defect Table := do
  let some kind := (kindOfName? filename).or (kindOfContent? content.bytes)
    | .error .unsupported
  let table ← ofKind content kind
  if table.headers.all Text.isBlankText then .error .noHeaders
  else if table.rows.isEmpty then .error .noRows
  else .ok table

end Recount.File
