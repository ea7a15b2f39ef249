import Recount.Decimal.Arithmetic
import Recount.Json.Decode

/-!
# Item records

What one row says about an item, and the merging of the records of one item: quantities are
added, and of every other field the first value is kept.
-/

namespace Recount

/-- The fields of an item that a row supplies. Texts that are given are not empty. -/
structure ItemRecord where
  code : String
  name : Option String
  systemQty : Option Decimal
  uom : Option String
  packQty : Option Decimal
  cost : Option Decimal
  price : Option Decimal
  barcodes : Option String
  category : Option String
  brand : Option String
deriving DecidableEq

/-- A row that could not be used, by its number in the source. -/
structure RowError where
  row : Nat
  message : String
deriving DecidableEq, Repr

namespace ItemRecord

/-- The sum of the quantities that are given. -/
def addQty : Option Decimal → Option Decimal → Except Overflow (Option Decimal)
  | some a, some b => (a.add b).map some
  | some a, none => .ok (some a)
  | none, b => .ok b

/-- Two records of one item as one. -/
def merge (a b : ItemRecord) : Except Overflow ItemRecord :=
  (addQty a.systemQty b.systemQty).map fun systemQty =>
    { code := a.code
      name := a.name.or b.name
      systemQty
      uom := a.uom.or b.uom
      packQty := a.packQty.or b.packQty
      cost := a.cost.or b.cost
      price := a.price.or b.price
      barcodes := a.barcodes.or b.barcodes
      category := a.category.or b.category
      brand := a.brand.or b.brand }

/-- Merges a record into the one with its code, or appends it. -/
def absorb (record : ItemRecord) : List ItemRecord → Except Overflow (List ItemRecord)
  | [] => .ok [record]
  | r :: rest =>
    if r.code = record.code then (r.merge record).map (· :: rest)
    else (absorb record rest).map (r :: ·)

/-- One record for every code, in the order in which the codes occur first. -/
def dedupe (records : List ItemRecord) : Except Overflow (List ItemRecord) :=
  records.foldlM (fun merged record => absorb record merged) []

/-- The name of an item, or its code if it has none. -/
def displayName (r : ItemRecord) : String := r.name.getD r.code

open Json Json.Decode

/-- Decodes a record. -/
def decode : Decoder ItemRecord :=
  record (ItemRecord.mk <$> field "item_code" text <*> optField "item_name" text
    <*> optField "system_qty" decimal <*> optField "uom" text <*> optField "pack_qty" decimal
    <*> optField "cost" decimal <*> optField "price" decimal <*> optField "barcodes" text
    <*> optField "category" text <*> optField "brand" text)

/-- A record as JSON. -/
def toJson (r : ItemRecord) : Json :=
  ofMembers [("item_code", .str r.code), ("item_name", ofText? r.name),
    ("system_qty", ofOption Decimal.toJson r.systemQty), ("uom", ofText? r.uom),
    ("pack_qty", ofOption Decimal.toJson r.packQty), ("cost", ofOption Decimal.toJson r.cost),
    ("price", ofOption Decimal.toJson r.price), ("barcodes", ofText? r.barcodes),
    ("category", ofText? r.category), ("brand", ofText? r.brand)]

end ItemRecord

/-- A row error as JSON. -/
def RowError.toJson (e : RowError) : Json :=
  Json.ofMembers [("row", .nat e.row), ("message", .str e.message)]

end Recount
