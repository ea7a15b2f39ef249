import Recount.Text.Letter
import Recount.Text.Trim

/-!
# Fields of an item

The fields that are read from a row, and the names under which columns are known to hold them.
Names are compared by their keys, in which case and the usual separators make no difference.
-/

namespace Recount

/-- A field of an item that a row can supply. -/
inductive ItemField where
  | code
  | name
  | systemQty
  | uom
  | packQty
  | cost
  | price
  | barcodes
  | category
  | brand
deriving DecidableEq, Repr

/-- The form in which the names of columns are compared. -/
def columnKey (name : String) : String :=
  String.ofList ((name.toList.filter fun c => c != '_' && c != '-' && c != ' ').flatMap
    Text.lowerChar)

/-- The part of a column reference after its last point. -/
def bareColumn (reference : String) : String :=
  String.ofList (((Text.splitChars '.' reference.toList).getLast?).getD [])

namespace ItemField

/-- All fields, in the order in which a name is looked for among them. -/
def all : List ItemField :=
  [code, name, systemQty, uom, packQty, cost, price, barcodes, category, brand]

/-- The name of a field. -/
def title : ItemField → String
  | code => "itemCode"
  | name => "itemName"
  | systemQty => "systemQty"
  | uom => "uom"
  | packQty => "packQty"
  | cost => "cost"
  | price => "price"
  | barcodes => "barcodes"
  | category => "category"
  | brand => "brand"

/-- The keys of the columns that hold a field, in the order of preference. -/
def spellings : ItemField → List String
  | code => ["itemcode", "code", "sku", "itemno", "itemnumber", "productcode", "article"]
  | name => ["itemname", "name", "description", "itemdescription", "productname", "dscription"]
  | systemQty => ["systemqty", "quantity", "qty", "onhand", "stock", "stockqty", "available"]
  | uom => ["uom", "unit", "unitofmeasure", "invntryuom", "salunitmsr"]
  | packQty => ["packqty", "packsize", "numinsale", "casesize"]
  | cost => ["cost", "unitcost", "avgprice", "avgcost", "lastpurprc"]
  | price => ["price", "unitprice", "saleprice", "listprice"]
  | barcodes => ["barcodes", "barcode", "codebars", "ean", "upc"]
  | category => ["category", "itemgroup", "group", "itmsgrpnam", "family"]
  | brand => ["brand", "manufacturer", "firmname", "make"]

/-- The field that a column with this name holds. -/
def ofColumn? (column : String) : Option ItemField :=
  let key := columnKey column
  all.find? fun f => f.spellings.contains key

end ItemField
end Recount
