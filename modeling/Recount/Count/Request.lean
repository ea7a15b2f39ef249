import Recount.Count.Item
import Recount.Error

/-!
# Requests about counts

What is asked for when a count is created, filled, counted and reviewed, and the rules that the
fields of a request obey.
-/

namespace Recount

/-- A text has a length between two bounds. -/
def lengthWithin (least most : Nat) (s : String) : Bool := least ≤ s.length && s.length ≤ most

/-- The fault of a field, unless a rule holds. -/
def faultUnless (holds : Bool) (fault : FieldFault) : List FieldFault :=
  if holds then [] else [fault]

/-- Asks for a new count. -/
structure CreateCount where
  warehouse : Id
  name : Option String
  notes : Option String

/-- Asks for a quantity to be recorded. -/
structure RecordQuantity where
  counted : Decimal

/-- Asks for an item to be added. -/
structure AddItem where
  location : Id
  code : String
  name : String
  uom : Option String
  packQty : Option Decimal
  systemQty : Decimal
  counted : Option Decimal

/-- A quantity of an item. -/
structure CountEntry where
  item : Id
  counted : Decimal

/-- Asks for quantities of many items to be recorded. -/
structure SubmitEntries where
  entries : List CountEntry

/-- Asks for a report to be approved or rejected. -/
structure ResolveReport where
  approve : Bool
  reason : String

/-- The faults of a request. -/
def CreateCount.faults (r : CreateCount) : List FieldFault :=
  faultUnless (r.name.all (lengthWithin 0 200)) (.ofCode "name" "length") ++
  faultUnless (r.notes.all (lengthWithin 0 2000)) (.ofCode "notes" "length")

/-- The faults of a request. -/
def RecordQuantity.faults (r : RecordQuantity) : List FieldFault :=
  faultUnless (!r.counted.isNegative) (.ofCode "counted_qty" "non_negative_quantity")

/-- The faults of a request. -/
def AddItem.faults (r : AddItem) : List FieldFault :=
  faultUnless (lengthWithin 1 100 r.code) ⟨"item_code", "Item code required"⟩ ++
  faultUnless (lengthWithin 1 300 r.name) ⟨"item_name", "Item name required"⟩

/-- The faults of a request. -/
def SubmitEntries.faults (r : SubmitEntries) : List FieldFault :=
  faultUnless (!r.entries.isEmpty) ⟨"entries", "At least one entry required"⟩

/-- The faults of a request. -/
def ResolveReport.faults (r : ResolveReport) : List FieldFault :=
  faultUnless (lengthWithin 1 1000 r.reason) ⟨"reason", "Reason required"⟩

section Codec

open Json Json.Decode

/-- Decodes a request. -/
def CreateCount.decode : Decoder CreateCount :=
  record (CreateCount.mk <$> field "warehouse_id" Id.decode <*> optField "name" text
    <*> optField "notes" text)

/-- Decodes a request. -/
def RecordQuantity.decode : Decoder RecordQuantity := record (RecordQuantity.mk <$> field "counted_qty" decimal)

/-- Decodes a request. -/
def AddItem.decode : Decoder AddItem :=
  record (AddItem.mk <$> field "location_id" Id.decode <*> field "item_code" text
    <*> field "item_name" text <*> optField "uom" text <*> optField "pack_qty" decimal
    <*> fieldWithDefault .zero "system_qty" decimal <*> optField "counted_qty" decimal)

/-- Decodes an entry. -/
def CountEntry.decode : Decoder CountEntry :=
  record (CountEntry.mk <$> field "item_id" Id.decode <*> field "counted_qty" decimal)

/-- Decodes a request. -/
def SubmitEntries.decode : Decoder SubmitEntries :=
  record (SubmitEntries.mk <$> field "entries" (list CountEntry.decode))

/-- Decodes a request. -/
def ResolveReport.decode : Decoder ResolveReport :=
  record (ResolveReport.mk <$> field "approve" bool <*> field "reason" text)

end Codec
end Recount
