import Recount.Action
import Recount.Loading.Summary

/-!
# Storing records

Records become items of the current version of a count. An item that is there already gets what
the system knows of it anew, and an item that cannot be stored does not keep the others from it.
-/

namespace Recount.Loading

/-- The item that a record makes. -/
def itemOfRecord (count : Count) (location : Id) (r : ItemRecord) (id : Id) (time : Time) :
    Item where
  id := id
  count := count.id
  location := location
  code := r.code
  name := r.displayName
  uom := r.uom
  packQty := r.packQty
  systemQty := r.systemQty.getD .zero
  countedQty := none
  previousQty := none
  version := count.currentVersion
  status := .pending
  hasVariance := false
  difference := none
  variancePercent := none
  cost := r.cost
  price := r.price
  barcodes := r.barcodes
  category := r.category
  brand := r.brand
  countedBy := none
  countedAt := none
  createdAt := time
  updatedAt := time

/-- The summary with the result for one more item. -/
def Summary.add (s : Summary) (code : String) : Except Error (Item × UpsertOutcome) → Summary
  | .ok (_, .inserted) => { s with inserted := s.inserted + 1 }
  | .ok (_, .updated) => { s with updated := s.updated + 1 }
  | .error e => { s with failed := s.failed + 1, errors := s.errors ++ [⟨code, e.message⟩] }

/-- Stores records one after the other. -/
def storeAll (count : Count) (location : Id) (s : Summary) : List ItemRecord → Action Summary
  | [] => return s
  | r :: records => do
    let time ← Action.now
    let item := itemOfRecord count location r (← Action.freshId) time
    let result ← Action.attempt (Action.counts (.upsertItem item))
    storeAll count location (s.add item.code result) records

/-- Stores records, those of one item as one. -/
def storeRecords (count : Count) (location : Id) (s : Summary) (records : List ItemRecord) :
    Action Summary := do
  let merged ← Action.arithmetic (ItemRecord.dedupe records)
  storeAll count location { s with items := merged.length } merged

end Recount.Loading
