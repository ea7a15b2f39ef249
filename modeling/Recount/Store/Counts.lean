import Recount.Store.Basic

/-!
# Counts in a store

The calls about counts. A call that is refused, or whose arithmetic overflows, gives no new store.
-/

namespace Recount

/-- Items are listed by version, code and location. -/
def Item.precedes (i j : Item) : Bool :=
  i.version < j.version ||
    (i.version = j.version &&
      (i.code < j.code || (i.code = j.code && i.location.le j.location)))

namespace Store

/-- Creates a count with the next number. -/
def createCount (s : Store) (new : NewCount) (id : Id) (now : Time) : Count × Store :=
  let count : Count :=
    { id, tenant := new.tenant, warehouse := new.warehouse, sequence := s.sequence + 1
      name := new.name, notes := new.notes, status := .draft, currentVersion := 1
      totalVersions := 1, createdBy := new.createdBy, createdAt := now, started := .none
      completed := .none, approved := .none, closed := .none, cancelled := .none
      updatedAt := now }
  (count, { s with sequence := s.sequence + 1 }.putCount count)

/-- The counts of a tenant, the latest first. -/
def listCounts (s : Store) (tenant : Id) (status : Option Status) : List Count :=
  (s.counts.filter fun c => c.tenant = tenant && status.all (c.status = ·)).mergeSort
    fun c d => d.sequence ≤ c.sequence

/-- The count of a tenant, which has to be there. -/
def findCount (s : Store) (tenant id : Id) : Except Error Count :=
  (s.count? tenant id).elim (.error (.missing (.count id))) .ok

/-- The count of a version accepts items. -/
def checkWritable (s : Store) (id : Id) (version : Int) : Except Error Unit := do
  let count ← (s.anyCount? id).elim (.error (.missing (.count id))) .ok
  count.checkWritable version

/-- None of the items of a transition is there already. -/
def checkNew (s : Store) (items : List Item) : Except Error Unit :=
  match items.find? fun i => (s.itemByKey? i.key).isSome with
  | some i => .error (.clash (.existingItem i.code i.version))
  | none => .ok ()

/-- The count that a transition changes, if all its checks hold. -/
def checkTransition (s : Store) (tenant id : Id) (t : Transition) : Except Error Count := do
  let count ← s.findCount tenant id
  t.change.check count
  if t.change.target.isOpen && s.isBusy count then .error (.clash .busyWarehouse)
  else
    s.checkNew t.newItems
    .ok count

/-- The items that a transition settles, and their reports. -/
def settled (s : Store) (count : Count) (t : Transition) (supply : Supply) :
    Except Overflow (List Item × List Report) :=
  if t.settles then
    let items := s.itemsOf count.id (some count.currentVersion)
    Item.settleAll t.change.actor (supply.time 0)
      (items.zipIdx.map fun (i, index) => (i, supply.id index))
  else .ok ([], [])

/-- Makes a transition. -/
def change (s : Store) (tenant id : Id) (t : Transition) (supply : Supply) :
    Except Halt (Count × Store) := do
  let count ← Halt.ofCheck (s.checkTransition tenant id t)
  let (items, reports) ← Halt.ofArithmetic (s.settled count t supply)
  let now := supply.time 0
  let changed := t.change.apply count now
  let store := (items ++ t.newItems).foldl
    (fun store i => store.putItem { i with updatedAt := now }) (s.putCount changed)
  .ok (changed, (t.reports ++ reports).foldl putReport store)

/-- Deletes a count with all that belongs to it. -/
def deleteCount (s : Store) (tenant id : Id) (allowed : List Status) :
    Except Halt (Unit × Store) := do
  let count ← Halt.ofCheck (s.findCount tenant id)
  if allowed.contains count.status then
    .ok ((), { s with
      counts := s.counts.filter (·.id ≠ id)
      items := s.items.filter (·.count ≠ id)
      reports := s.reports.filter (·.count ≠ id)
      attempts := s.attempts.filter (·.count ≠ id) })
  else .error (.refused (.wrongState (Status.alternatives allowed) count.status.name))

/-- An item with what the system knows taken from another one. -/
def refresh (old new : Item) (now : Time) : Item :=
  { old with
    name := new.name, uom := new.uom, packQty := new.packQty, systemQty := new.systemQty
    cost := new.cost, price := new.price, barcodes := new.barcodes, category := new.category
    brand := new.brand, updatedAt := now }

/-- Inserts an item, or refreshes the one with its key. What was counted stays, and its variance
is computed anew. -/
def upsertItem (s : Store) (new : Item) (supply : Supply) :
    Except Halt ((Item × UpsertOutcome) × Store) := do
  Halt.ofCheck (s.checkWritable new.count new.version)
  match s.itemByKey? new.key with
  | none => .ok ((new, .inserted), s.putItem new)
  | some old =>
    let refreshed := refresh old new (supply.time 0)
    match refreshed.countedQty with
    | none => .ok ((refreshed, .updated), s.putItem refreshed)
    | some counted =>
      let item ← Halt.ofArithmetic (refreshed.withCounted counted)
      let report ← Halt.ofArithmetic (item.report? (supply.id 0) (supply.time 1))
      .ok ((item, .updated), (s.changeReport item (.ofReport? report)).putItem item)

/-- Inserts an item that is not there yet. -/
def insertItem (s : Store) (new : Item) : Except Halt (Item × Store) := do
  Halt.ofCheck (s.checkWritable new.count new.version)
  if (s.itemByKey? new.key).isSome then
    .error (.refused (.clash (.existingItemAtLocation new.code new.version)))
  else .ok (new, s.putItem new)

/-- The items of a count in their order. -/
def listItems (s : Store) (count : Id) (version : Option Int) : List Item :=
  (s.itemsOf count version).mergeSort Item.precedes

/-- Stores what was counted of an item that is there. -/
def recordItem (s : Store) (new : Item) (report : ReportChange) (now : Time) :
    Except Halt (Item × Store) := do
  let some stored := s.item? new.count new.id | .error (.refused (.missing (.item new.id)))
  Halt.ofCheck (s.checkWritable new.count stored.version)
  let item := { new with updatedAt := now }
  .ok (item, (s.putItem item).changeReport item report)

/-- Where the item of a report is. -/
def location (s : Store) (r : Report) : Id := (s.item? r.count r.item).elim .nil (·.location)

/-- Reports are listed by version, code and location. -/
def reportPrecedes (s : Store) (r q : Report) : Bool :=
  r.version < q.version ||
    (r.version = q.version &&
      (r.code < q.code || (r.code = q.code && (s.location r).le (s.location q))))

/-- The reports of a count in their order. -/
def listReports (s : Store) (count : Id) (version : Option Int) : List Report :=
  (s.reportsOf count version).mergeSort s.reportPrecedes

/-- Stores a report in the place of the one with its identifier. -/
def saveReport (s : Store) (r : Report) (now : Time) : Except Halt (Report × Store) :=
  if s.reports.any (·.id = r.id) then
    let saved := { r with updatedAt := now }
    .ok (saved, { s with reports := putBy Report.id saved s.reports })
  else .error (.refused (.missing (.report r.id)))

/-- Records an attempt to write back. -/
def addAttempt (s : Store) (a : Attempt) : Store := { s with attempts := s.attempts ++ [a] }

/-- The attempts to write back a count, the latest first. -/
def listAttempts (s : Store) (count : Id) : List Attempt :=
  (s.attempts.filter (·.count = count)).mergeSort fun a b => b.startedAt.le a.startedAt

/-- Answers a call about counts. -/
def answerCounts (s : Store) (supply : Supply) : (call : CountCall) → Except Halt (call.Result × Store)
  | .create new => .ok (s.createCount new (supply.id 0) (supply.time 0))
  | .get tenant count => .ok (s.count? tenant count, s)
  | .list tenant status => .ok (s.listCounts tenant status, s)
  | .change tenant count transition => s.change tenant count transition supply
  | .delete tenant count allowed => s.deleteCount tenant count allowed
  | .upsertItem item => s.upsertItem item supply
  | .insertItem item => s.insertItem item
  | .getItem count item => .ok (s.item? count item, s)
  | .listItems count version => .ok (s.listItems count version, s)
  | .recordItem item report => s.recordItem item report (supply.time 0)
  | .listReports count version => .ok (s.listReports count version, s)
  | .getReport count report => .ok (s.report? count report, s)
  | .saveReport report => s.saveReport report (supply.time 0)
  | .addAttempt attempt => .ok ((), s.addAttempt attempt)
  | .listAttempts count => .ok (s.listAttempts count, s)

end Store
end Recount
