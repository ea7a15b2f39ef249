import Recount.Count.Status
import Recount.Id
import Recount.Time

/-!
# Items of a count

An item is one article at one location in one version of a count, with the quantity that the
system knows and the quantity that was counted.
-/

namespace Recount

/-- An item of a count. -/
structure Item where
  id : Id
  count : Id
  location : Id
  code : String
  name : String
  uom : Option String
  packQty : Option Decimal
  systemQty : Decimal
  countedQty : Option Decimal
  /-- What was counted in the version before. -/
  previousQty : Option Decimal
  version : Int
  status : ItemStatus
  hasVariance : Bool
  difference : Option Decimal
  variancePercent : Option Decimal
  cost : Option Decimal
  price : Option Decimal
  barcodes : Option String
  category : Option String
  brand : Option String
  countedBy : Option Id
  countedAt : Option Time
  createdAt : Time
  updatedAt : Time
deriving DecidableEq, Inhabited

namespace Item

/-- What tells the items of a store apart. -/
structure Key where
  count : Id
  location : Id
  code : String
  version : Int
deriving DecidableEq

/-- The key of an item. -/
def key (i : Item) : Key := ⟨i.count, i.location, i.code, i.version⟩

open Json Json.Decode

/-- Decodes an item. -/
def decode : Decoder Item :=
  record (Item.mk <$> field "id" Id.decode <*> field "count_id" Id.decode
    <*> field "location_id" Id.decode <*> field "item_code" text <*> field "item_name" text
    <*> optField "uom" text <*> optField "pack_qty" decimal <*> field "system_qty" decimal
    <*> optField "counted_qty" decimal <*> optField "previous_counted_qty" decimal
    <*> field "version" int32 <*> field "status" ItemStatus.naming.decode
    <*> field "has_variance" bool <*> optField "difference" decimal
    <*> optField "variance_percent" decimal <*> optField "cost" decimal
    <*> optField "price" decimal <*> optField "barcodes" text <*> optField "category" text
    <*> optField "brand" text <*> optField "counted_by" Id.decode
    <*> optField "counted_at" Time.decode <*> field "created_at" Time.decode
    <*> field "updated_at" Time.decode)

/-- An item as JSON. -/
def toJson (i : Item) : Json :=
  let qty := ofOption Decimal.toJson
  ofMembers [("id", i.id.toJson), ("count_id", i.count.toJson), ("location_id", i.location.toJson),
    ("item_code", .str i.code), ("item_name", .str i.name), ("uom", ofText? i.uom),
    ("pack_qty", qty i.packQty), ("system_qty", i.systemQty.toJson),
    ("counted_qty", qty i.countedQty), ("previous_counted_qty", qty i.previousQty),
    ("version", .int i.version), ("status", ItemStatus.naming.toJson i.status),
    ("has_variance", .bool i.hasVariance), ("difference", qty i.difference),
    ("variance_percent", qty i.variancePercent), ("cost", qty i.cost), ("price", qty i.price),
    ("barcodes", ofText? i.barcodes), ("category", ofText? i.category), ("brand", ofText? i.brand),
    ("counted_by", ofOption Id.toJson i.countedBy), ("counted_at", ofOption Time.toJson i.countedAt),
    ("created_at", i.createdAt.toJson), ("updated_at", i.updatedAt.toJson)]

end Item
end Recount
