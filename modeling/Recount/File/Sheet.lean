import Recount.Double.Shortest
import Recount.Name
import Recount.Text.Trim

/-!
# Sheets

The cells of a workbook's sheets and their texts. A sheet is used from the first row and the first
column that have a cell; inside of what is used, a missing cell is an empty one.
-/

namespace Recount

/-- An error that a cell shows. -/
inductive CellError where
  | notAvailable
  | divisionByZero
  | reference
  | name
  | value
  | null
  | number
deriving DecidableEq, Repr

/-- The codes that workbooks show for errors. -/
def CellError.codes : Naming CellError where
  all := [notAvailable, divisionByZero, reference, name, value, null, number]
  name
    | notAvailable => "#N/A"
    | divisionByZero => "#DIV/0!"
    | reference => "#REF!"
    | name => "#NAME?"
    | value => "#VALUE!"
    | null => "#NULL!"
    | number => "#NUM!"

/-- The word for an error. -/
def CellError.word : CellError → String
  | notAvailable => "NA"
  | divisionByZero => "Div0"
  | reference => "Ref"
  | name => "Name"
  | value => "Value"
  | null => "Null"
  | number => "Num"

/-- A cell. -/
inductive Cell where
  | text (s : String)
  | number (x : Double)
  | bool (b : Bool)
  /-- A date as text. -/
  | date (s : String)
  /-- A date as a number of days. -/
  | serial (x : Double)
  | error (e : CellError)
deriving DecidableEq, Repr

/-- A sheet: its rows from the first one on, each from the first column on. -/
abbrev Sheet := List (List (Option Cell))

/-- Removes zeros after a point, and then the point. -/
def stripPlaces (s : String) : String :=
  if s.toList.contains '.' then Text.trimEndOf '.' (Text.trimEndOf '0' s) else s

/-- The text of a cell. -/
def Cell.toText : Cell → String
  | text s => Text.trim s
  | number x => stripPlaces x.plain
  | bool b => if b then "true" else "false"
  | date s => s
  | serial x => x.plain
  | error e => "ERROR: " ++ e.word

namespace Sheet

/-- The rows without those before the first one that has a cell and after the last one. -/
def usedRows (sheet : Sheet) : Sheet :=
  let hasCell (row : List (Option Cell)) : Bool := row.any Option.isSome
  ((sheet.dropWhile (!hasCell ·)).reverse.dropWhile (!hasCell ·)).reverse

/-- The number of columns before the first one that has a cell. -/
def firstColumn (rows : Sheet) : Nat :=
  (rows.filterMap fun row => row.findIdx? Option.isSome).foldl min (rows.flatten.length)

/-- The number of columns up to the last one that has a cell. -/
def lastColumn (rows : Sheet) : Nat :=
  (rows.map fun row => row.length - (row.reverse.takeWhile Option.isNone).length).foldl max 0

/-- The texts of the used cells, all rows of one length. -/
def texts (sheet : Sheet) : List (List String) :=
  let rows := sheet.usedRows
  let first := firstColumn rows
  let last := lastColumn rows
  rows.map fun row => (List.range (last - first)).map fun i =>
    (((row[first + i]?).getD none).map Cell.toText).getD ""

end Sheet
end Recount
