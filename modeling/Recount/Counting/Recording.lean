import Recount.Counting.Lifecycle

/-!
# Recording what is counted

Items are added by hand and quantities are recorded, one by one or in batches whose entries fail
independently of each other.
-/

namespace Recount.Counting

/-- The items of a version of a count, by default the current one. -/
def listItems (tenant count : Id) (version : Option Int) : Action (List Item) := do
  let seen ← getCount tenant count
  Action.counts (.listItems count (some (version.getD seen.currentVersion)))

/-- Records a quantity of an item. -/
def recordQuantity (i : Item) (counted : Decimal) (actor : Id) : Action Item := do
  if counted.isNegative then Action.fail (.invalid .negativeQuantity)
  else
    let counted ← Action.arithmetic (i.withCounted counted)
    let time ← Action.now
    let recorded := { counted with
      status := .counted, countedBy := some actor, countedAt := some time }
    let report ← Action.arithmetic (recorded.report? (← Action.freshId) (← Action.now))
    Action.counts (.recordItem recorded (.ofReport? report))

/-- The item that a request adds to a version of a count. -/
def newItem (count : Id) (version : Int) (r : AddItem) (id : Id) (time : Time) : Item where
  id := id
  count := count
  location := r.location
  code := Text.trim r.code
  name := Text.trim r.name
  uom := r.uom
  packQty := r.packQty
  systemQty := r.systemQty
  countedQty := none
  previousQty := none
  version := version
  status := .pending
  hasVariance := false
  difference := none
  variancePercent := none
  cost := none
  price := none
  barcodes := none
  category := none
  brand := none
  countedBy := none
  countedAt := none
  createdAt := time
  updatedAt := time

/-- Adds an item to the current version of a count, with its quantity if one is given. -/
def addItem (tenant count : Id) (r : AddItem) (actor : Id) : Action Item := do
  Action.checkFields r.faults
  let seen ← editableCount tenant count
  let time ← Action.now
  let id ← Action.freshId
  let item ← Action.counts (.insertItem (newItem count seen.currentVersion r id time))
  match r.counted with
  | some counted => recordQuantity item counted actor
  | none => return item

/-- Records a quantity of an item, which must belong to the current version of the count. -/
def recordInVersion (seen : Count) (item : Id) (counted : Decimal) (actor : Id) : Action Item := do
  let stored ← Action.require (.item item) (← Action.counts (.getItem seen.id item))
  if stored.version ≠ seen.currentVersion then
    Action.fail (.invalid (.itemOfOtherVersion stored.version seen.currentVersion))
  else recordQuantity stored counted actor

/-- Records a quantity of an item. -/
def updateItem (tenant count item : Id) (r : RecordQuantity) (actor : Id) : Action Item := do
  Action.checkFields r.faults
  let seen ← editableCount tenant count
  recordInVersion seen item r.counted actor

/-- An entry of a batch that was refused. -/
structure EntryError where
  item : Id
  message : String

/-- What became of a batch. -/
structure SubmitSummary where
  version : Int
  updated : Nat
  failed : Nat
  errors : List EntryError

/-- The summary with one more entry. -/
def SubmitSummary.add (s : SubmitSummary) (item : Id) : Except Error Item → SubmitSummary
  | .ok _ => { s with updated := s.updated + 1 }
  | .error e => { s with failed := s.failed + 1, errors := s.errors ++ [⟨item, e.message⟩] }

/-- Records the entries of a batch one after the other. -/
def submitEntries (seen : Count) (actor : Id) (s : SubmitSummary) :
    List CountEntry → Action SubmitSummary
  | [] => return s
  | entry :: entries => do
    let result ← Action.attempt (recordInVersion seen entry.item entry.counted actor)
    submitEntries seen actor (s.add entry.item result) entries

/-- Records a batch of quantities in a version, which must be the current one. -/
def submit (tenant count : Id) (version : Int) (r : SubmitEntries) (actor : Id) :
    Action SubmitSummary := do
  Action.checkFields r.faults
  let seen ← editableCount tenant count
  if version ≠ seen.currentVersion then
    Action.fail (.invalid (.notCurrentVersion version seen.currentVersion))
  else submitEntries seen actor ⟨version, 0, 0, []⟩ r.entries

open Json

/-- The summary of a batch as JSON. -/
def SubmitSummary.toJson (s : SubmitSummary) : Json :=
  let error (e : EntryError) : Json :=
    ofMembers [("item_id", e.item.toJson), ("error", .str e.message)]
  ofMembers [("version", .int s.version), ("updated", .nat s.updated), ("failed", .nat s.failed),
    ("errors", ofList error s.errors)]

end Recount.Counting
