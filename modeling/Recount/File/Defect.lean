import Recount.File.Utf8
import Recount.Text.Trim

/-!
# Defects of files

Why a file of items is refused as a whole.
-/

namespace Recount.File

/-- A reason to refuse a file. -/
inductive Defect where
  | unsupported
  | notText (fault : Utf8.Fault)
  | notAWorkbook
  | noSheets
  | emptySheet
  | notJson
  | notObjects
  | noHeaders
  | noRows
  | missingColumns (titles : List String)
deriving DecidableEq, Repr

/-- The wording of a defect. -/
def Defect.message : Defect → String
  | unsupported =>
    "Unsupported file format. Please upload CSV, Excel (XLSX/XLS), or JSON files."
  | notText fault => "Invalid UTF-8 encoding: " ++ fault.message
  | notAWorkbook => "Failed to open Excel file"
  | noSheets => "Excel file contains no sheets."
  | emptySheet => "Excel sheet is empty."
  | notJson => "Invalid JSON"
  | notObjects => "JSON must be an array of objects or a single object."
  | noHeaders => "File has no headers. Please ensure the first row contains column names."
  | noRows => "File contains no data rows."
  | missingColumns titles => "Missing required columns: " ++ Text.join ", " titles

end Recount.File
