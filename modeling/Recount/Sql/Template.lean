import Recount.Mapping.Parts
import Recount.Sql.Dialect
import Recount.Sql.Identifier

/-!
# Query templates

Fixed queries for tables that are laid out in the expected way. A template has places for the
row limit, the table and a condition; nothing else varies.
-/

namespace Recount.Sql

/-- A piece of a template. -/
inductive TemplatePiece where
  | text (sql : String)
  | top
  | table
  | condition
  | limit

/-- A fixed query, named by its key. -/
structure Template where
  key : String
  pieces : List TemplatePiece

/-- What is filled into a template. -/
structure TemplateParams where
  table : String
  condition : Option String
  limit : Option Nat

/-- A data set that is read from one table through its template. -/
structure TemplateQuery where
  dataset : Dataset
  table : String
  condition : Option String

namespace Template

/-- The query for some columns of a table. -/
def ofColumns (key columns : String) : Template :=
  ⟨key, [.text "SELECT ", .top, .text (columns ++ " FROM "), .table, .condition, .limit]⟩

/-- The key of the template that reads whole rows. -/
def wholeRowsKey : String := "LEGACY_ITEMS"

/-- The template of a data set. -/
def ofDataset : Dataset → Template
  | .items => ofColumns "ITEMS" "item_code, item_name, uom, pack_qty, barcode, category, brand"
  | .stock => ofColumns "STOCK" "item_code, location_code, quantity"
  | .cost => ofColumns "COST" "item_code, cost"
  | .price => ofColumns "PRICE" "item_code, price"
  | .destination => ofColumns "DESTINATION" "location_code, location_name"

/-- All templates. -/
def all : List Template := Dataset.naming.all.map ofDataset ++ [ofColumns wholeRowsKey "*"]

/-- The template with a key, in any case. -/
def find? (key : String) : Option Template :=
  all.find? fun t => Text.eqIgnoringAsciiCase t.key key

/-- The mark of the row limit. -/
def limitMark : List Char := "\x7blimit\x7d".toList

/-- Replaces each occurrence of a pattern, from the left; `skip` characters still belong to the
occurrence that was replaced last. -/
def replaceFrom (pattern replacement : List Char) : Nat → List Char → List Char
  | _, [] => []
  | skip + 1, _ :: cs => replaceFrom pattern replacement skip cs
  | 0, c :: cs =>
    if (Text.afterStart? pattern (c :: cs)).isSome then
      replacement ++ replaceFrom pattern replacement (pattern.length - 1) cs
    else c :: replaceFrom pattern replacement 0 cs

/-- The text of a piece. A mark of the row limit in a condition is replaced as well. -/
def pieceText (d : Dialect) (p : TemplateParams) (condition : String) : TemplatePiece → String
  | .text sql => sql
  | .top => d.topClause p.limit
  | .table => p.table
  | .condition => String.ofList
      (replaceFrom limitMark (d.limitClause p.limit).toList 0 condition.toList)
  | .limit => d.limitClause p.limit

/-- The query of a template whose parts have been checked. -/
def text (t : Template) (d : Dialect) (p : TemplateParams) (condition : String) : String :=
  String.join (t.pieces.map (pieceText d p condition))

/-- The row limit of a template, where there is one, lies between one and the maximum. -/
def checkLimit : Option Nat → Except Defect Unit
  | some limit => if limit = 0 || maxRows < limit then .error .limitOutOfRange else .ok ()
  | none => .ok ()

/-- The checked condition with its keyword; blanks alone are no condition. -/
def whereClause (condition : Option String) : Except Defect String :=
  let fragment := Text.trim (condition.getD "")
  if fragment.isEmpty then .ok ""
  else (checkFragment fragment).map fun _ => " WHERE " ++ fragment

/-- The query of the template with the given key. -/
def render (key : String) (d : Dialect) (p : TemplateParams) : Except Defect String := do
  let some template := find? key | .error (.unknownTemplate key)
  checkTableName p.table
  checkLimit p.limit
  let condition ← whereClause p.condition
  .ok (template.text d p condition)

end Template
end Recount.Sql
