import Recount.Count.Transition
import Recount.Database.Call

/-!
# Counts in a database

The calls about counts, as statements. A call that writes more than one row, or writes by what it
has read, does so in one transaction, in which the row of the count is locked first.
-/

namespace Recount.Database

open Client

/-- The parameter of an optional value. -/
def optional (write : α → Parameter) (a : Option α) : Parameter := a.elim .null write

/-- Creates a count with the next number. -/
def createCount (new : NewCount) : Client Count := do
  let id ← freshId
  first countColumns
    ("INSERT INTO inventory_counts (id, tenant_id, warehouse_id, sequence_number, name, notes, " ++
      "status, created_by) VALUES ($1, $2, $3, nextval('inventory_count_sequence'), $4, $5, " ++
      "'DRAFT', $6)" ++ returning countColumns)
    [.id id, .id new.tenant, .id new.warehouse, optional .text new.name, optional .text new.notes,
      .id new.createdBy]

/-- The condition on the count of a tenant. -/
def ofTenant : String := "id = $1 AND tenant_id = $2"

/-- The count of a tenant. -/
def getCount (tenant count : Id) : Client (Option Count) :=
  first? countColumns (selection countColumns "inventory_counts" ofTenant) [.id count, .id tenant]

/-- The counts of a tenant, the latest first. -/
def listCounts (tenant : Id) (status : Option Status) : Client (List Count) :=
  all countColumns
    (selection countColumns "inventory_counts"
      "tenant_id = $1 AND ($2::TEXT IS NULL OR status = $2) ORDER BY sequence_number DESC")
    [.id tenant, optional (fun s => .text s.name) status]

/-- Locks a count for its change. -/
def lockCount (tenant count : Id) : Client Count := do
  Action.require (.count count)
    (← first? countColumns
      (selection countColumns "inventory_counts" (ofTenant ++ " FOR UPDATE"))
      [.id count, .id tenant])

/-- Locks a count against changes while an item of a version is written. -/
def lockWritable (count : Id) (version : Int) : Client Unit := do
  let c ← Action.require (.count count)
    (← first? countColumns (selection countColumns "inventory_counts" "id = $1 FOR SHARE")
      [.id count])
  Action.check (c.checkWritable version)

/-- The columns that a change of stage writes. -/
def stageColumns : List String :=
  ["status", "current_version", "total_versions", "started_by", "started_at", "completed_by",
    "completed_at", "approved_by", "approved_at", "closed_by", "closed_at", "cancelled_by",
    "cancelled_at", "updated_at"]

/-- What fills the columns of a mark. -/
def markParameters (m : Mark) : List Parameter := [optional .id m.actor, optional .time m.time]

/-- Writes the stage of a count. -/
def updateStage (c : Count) : Client Unit := do
  let _ ← orClash .busyWarehouse
    (send ("UPDATE inventory_counts SET " ++ assignments stageColumns ++ " WHERE id = $15")
      ([.text c.status.name, .int c.currentVersion, .int c.totalVersions]
        ++ markParameters c.started ++ markParameters c.completed ++ markParameters c.approved
        ++ markParameters c.closed ++ markParameters c.cancelled ++ [.time c.updatedAt, .id c.id]))

/-- Inserts an item that is not there yet. -/
def insertRow (i : Item) : Client Item := do
  let row ← orClash (.existingItemAtLocation i.code i.version)
    (firstRow (insertion itemColumns "count_items" ++ returning itemColumns)
      (itemColumns.parameters i))
  Action.check (itemColumns.read row)

/-- The columns that hold what was counted of an item. -/
def countedColumns : List String :=
  ["counted_qty", "previous_counted_qty", "status", "has_variance", "difference",
    "variance_percent", "counted_by", "counted_at"]

/-- Writes what was counted of an item. -/
def updateCounted (i : Item) : Client Item := do
  Action.require (.item i.id)
    (← first? itemColumns
      ("UPDATE count_items SET " ++ assignments countedColumns ++
        ", updated_at = NOW() WHERE id = $9 AND count_id = $10" ++ returning itemColumns)
      [optional .quantity i.countedQty, optional .quantity i.previousQty,
        .text (ItemStatus.naming.name i.status), .bool i.hasVariance,
        optional .quantity i.difference, optional .quantity i.variancePercent,
        optional .id i.countedBy, optional .time i.countedAt, .id i.id, .id i.count])

/-- Writes the report of an item and version, in place of the one that is there. -/
def upsertReport (r : Report) : Client Unit := do
  let _ ← first reportColumns
    (insertion reportColumns "variance_reports" ++
      " ON CONFLICT (count_item_id, version) DO UPDATE SET " ++
      refreshments ["system_qty", "counted_qty", "difference", "variance_percent", "status",
        "resolution", "resolved_by", "resolved_at"] ++
      ", updated_at = NOW()" ++ returning reportColumns)
    (reportColumns.parameters r)

/-- Makes the change to the report of an item. -/
def changeReport (i : Item) : ReportChange → Client Unit
  | .put r => upsertReport r
  | .clear => do
    let _ ← send
      ("DELETE FROM variance_reports WHERE count_item_id = $1 AND version = $2 AND " ++
        "status = 'PENDING'")
      [.id i.id, .int i.version]

/-- The items of a version, each with a fresh identifier for its report. -/
def lockItems (count : Id) (version : Int) : Client (List (Item × Id)) := do
  let items ← all itemColumns
    (selection itemColumns "count_items" "count_id = $1 AND version = $2 FOR UPDATE")
    [.id count, .int version]
  items.mapM fun i => do return (i, ← freshId)

/-- Settles the items of the current version, if a transition does so. -/
def settled (c : Count) (t : Transition) (now : Time) : Client (List Item × List Report) := do
  if t.settles then
    Action.arithmetic (Item.settleAll t.change.actor now (← lockItems c.id c.currentVersion))
  else return ([], [])

/-- Makes a transition. -/
def change (tenant count : Id) (t : Transition) : Client Count :=
  transaction do
    let c ← lockCount tenant count
    Action.check (t.change.check c)
    let time ← now
    let (items, reports) ← settled c t time
    let changed := t.change.apply c time
    updateStage changed
    items.forM fun i => do let _ ← updateCounted i
    t.newItems.forM fun i => do let _ ← insertRow i
    (t.reports ++ reports).forM upsertReport
    return changed

/-- Deletes a count with all that belongs to it. -/
def deleteCount (tenant count : Id) (allowed : List Status) : Client Unit := do
  let reply ← send
    "DELETE FROM inventory_counts WHERE id = $1 AND tenant_id = $2 AND status = ANY($3)"
    [.id count, .id tenant, .texts (allowed.map Status.name)]
  if reply.affected = 0 then
    let c ← Action.require (.count count) (← getCount tenant count)
    Action.fail (.wrongState (Status.alternatives allowed) c.status.name)

/-- What was counted of an item that was refreshed, with its variance computed anew. -/
def recount (i : Item) (counted : Decimal) : Client Item := do
  let saved ← updateCounted (← Action.arithmetic (i.withCounted counted))
  let id ← freshId
  let report ← Action.arithmetic (saved.report? id (← now))
  changeReport saved (.ofReport? report)
  return saved

/-- Whether a row was inserted, and the item that it holds. -/
def upsertColumns : Columns (Bool × Item) (Bool × Item) :=
  Prod.mk <$> Columns.column "inserted" ColumnType.bool (·.1)
    <*> { itemColumns with parameters := fun (_, i) => itemColumns.parameters i }

/-- Inserts an item, or refreshes the one with its key. -/
def upsertItem (new : Item) : Client (Item × UpsertOutcome) :=
  transaction do
    lockWritable new.count new.version
    let (isNew, saved) ← first upsertColumns
      (insertion itemColumns "count_items" ++
        " ON CONFLICT (count_id, location_id, item_code, version) DO UPDATE SET " ++
        refreshments ["item_name", "uom", "pack_qty", "system_qty", "cost", "price", "barcodes",
          "category", "brand"] ++
        ", updated_at = NOW()" ++ returning itemColumns ++ ", (xmax = 0) AS inserted")
      (itemColumns.parameters new)
    if isNew then return (saved, .inserted)
    else
      match saved.countedQty with
      | some counted => return (← recount saved counted, .updated)
      | none => return (saved, .updated)

/-- Inserts an item that is not there yet. -/
def insertItem (i : Item) : Client Item :=
  transaction do
    lockWritable i.count i.version
    insertRow i

/-- The item of a count. -/
def getItem (count item : Id) : Client (Option Item) :=
  first? itemColumns (selection itemColumns "count_items" "id = $1 AND count_id = $2")
    [.id item, .id count]

/-- The condition on what belongs to a count, or to one version of it. -/
def ofVersion : String := "count_id = $1 AND ($2::INTEGER IS NULL OR version = $2)"

/-- The items of a count in their order. -/
def listItems (count : Id) (version : Option Int) : Client (List Item) :=
  all itemColumns
    (selection itemColumns "count_items"
      (ofVersion ++ " ORDER BY version, item_code, location_id"))
    [.id count, optional .int version]

/-- Stores what was counted of an item that is there. -/
def recordItem (i : Item) (report : ReportChange) : Client Item :=
  transaction do
    lockWritable i.count i.version
    let saved ← updateCounted i
    changeReport saved report
    return saved

/-- The reports of a count in their order. -/
def listReports (count : Id) (version : Option Int) : Client (List Report) :=
  all reportColumns
    (selection reportColumns "variance_reports" (ofVersion ++ " ORDER BY version, item_code"))
    [.id count, optional .int version]

/-- The report of a count. -/
def getReport (count report : Id) : Client (Option Report) :=
  first? reportColumns
    (selection reportColumns "variance_reports" "id = $1 AND count_id = $2")
    [.id report, .id count]

/-- Stores how a report was resolved. -/
def saveReport (r : Report) : Client Report := do
  Action.require (.report r.id)
    (← first? reportColumns
      ("UPDATE variance_reports SET " ++
        assignments ["status", "resolution", "resolved_by", "resolved_at"] ++
        ", updated_at = NOW() WHERE id = $5 AND count_id = $6" ++ returning reportColumns)
      [.text (ReportStatus.naming.name r.status), optional .text r.resolution,
        optional .id r.resolvedBy, optional .time r.resolvedAt, .id r.id, .id r.count])

/-- Records an attempt to write back. -/
def addAttempt (a : Attempt) : Client Unit := do
  let _ ← send (insertion attemptColumns "sync_history") (attemptColumns.parameters a)

/-- The attempts to write back a count, the latest first. -/
def listAttempts (count : Id) : Client (List Attempt) :=
  all attemptColumns
    (selection attemptColumns "sync_history" "count_id = $1 ORDER BY started_at DESC") [.id count]

/-- Answers a call about counts. -/
def answerCounts : (call : CountCall) → Client call.Result
  | .create new => createCount new
  | .get tenant count => getCount tenant count
  | .list tenant status => listCounts tenant status
  | .change tenant count transition => change tenant count transition
  | .delete tenant count allowed => deleteCount tenant count allowed
  | .upsertItem item => upsertItem item
  | .insertItem item => insertItem item
  | .getItem count item => getItem count item
  | .listItems count version => listItems count version
  | .recordItem item report => recordItem item report
  | .listReports count version => listReports count version
  | .getReport count report => getReport count report
  | .saveReport report => saveReport report
  | .addAttempt attempt => addAttempt attempt
  | .listAttempts count => listAttempts count

end Recount.Database
