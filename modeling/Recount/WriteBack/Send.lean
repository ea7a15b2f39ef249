import Recount.Counting.Lifecycle
import Recount.Erp.Session
import Recount.Load.Field

/-!
# Sending what was counted

The items of a completed count that differ are written to the planning system in one session, each
by a statement of its own. The attempt is recorded, and if every item was written the count is
closed.
-/

namespace Recount.WriteBack

/-- Asks for a count to be written back. -/
structure SendRequest where
  strategy : Strategy
  /-- Where to write; by default where the active mapping of stock reads. -/
  target : Option Target
  /-- Over which connection; by default the one of that mapping. -/
  connection : Option Id

/-- What came of an attempt. -/
structure SendOutcome where
  attempt : Attempt
  count : Count

/-- The target of a mapping: its main table and the columns of quantity and code. -/
def targetOfMapping (m : Mapping) : Except InputFault Target := do
  let some quantity := m.sourceFor? "systemQty" | .error .noQuantityField
  let some key := m.sourceFor? "itemCode" | .error .noCodeField
  .ok ⟨m.mainTable, bareColumn quantity, bareColumn key⟩

/-- The target that is given, or that of the mapping of stock. -/
def chooseTarget (given : Option Target) (stock : Option Mapping) : Except InputFault Target :=
  match given, stock with
  | some target, _ => .ok target
  | none, some m => targetOfMapping m
  | none, none => .error .noTarget

/-- Where to write and over which connection. -/
def resolveTarget (tenant : Id) (default : Option Id) (r : SendRequest) :
    Action (Target × Id) := do
  let stock ← Action.mappings (.findActive tenant .stock)
  let target ← Action.check ((chooseTarget r.target stock).mapError .invalid)
  Action.check (Error.ofQuery target.check)
  let some connection := (r.connection.or (stock.map (·.connection))).or default
    | Action.fail (.invalid .noConnection)
  return (target, connection)

/-- The value to write for an item: what was counted, or how it differs. -/
def valueOf? (strategy : Strategy) (i : Item) : Except Overflow (Option Decimal) :=
  match i.countedQty, strategy with
  | some counted, .replace => .ok (some counted)
  | some counted, .add => (counted.sub i.systemQty).map some
  | none, _ => .ok none

/-- The items to write: those that were counted and differ, except where the report was
rejected. -/
def itemsToWrite (items : List Item) (reports : List Report) : List Item :=
  let rejected := (reports.filter (·.status = .rejected)).map (·.item)
  items.filter fun i => i.hasVariance && i.countedQty.isSome && !rejected.contains i.id

/-- What became of the statement for an item. -/
def detailOf (i : Item) (value : Decimal) : Except Error (List Row) → WriteDetail
  | .ok _ => ⟨i.id, i.code, value, true, none⟩
  | .error e => ⟨i.id, i.code, value, false, some e.message⟩

/-- Writes items one after the other. -/
def writeItems (connection : Id) (dialect : Sql.Dialect) (target : Target) (strategy : Strategy) :
    List Item → Action (List WriteDetail)
  | [] => return []
  | i :: items => do
    match ← Action.arithmetic (valueOf? strategy i) with
    | none => writeItems connection dialect target strategy items
    | some value =>
      let statement := target.statement dialect strategy i.code value
      let result ← Action.attempt (Action.erp connection (.query statement))
      return detailOf i value result :: (← writeItems connection dialect target strategy items)

/-- What became of items in a session that could not be held. -/
def failedDetails (strategy : Strategy) (e : Error) : List Item → Except Overflow (List WriteDetail)
  | [] => .ok []
  | i :: items => do
    let value ← valueOf? strategy i
    let others ← failedDetails strategy e items
    .ok (⟨i.id, i.code, value.getD .zero, false, some e.message⟩ :: others)

/-- The record of an attempt. -/
def attemptOf (count : Count) (strategy : Strategy) (details : List WriteDetail) (actor id : Id)
    (started completed : Time) : Attempt :=
  let written := details.countP (·.success)
  let failed := details.length - written
  { id, count := count.id, version := count.currentVersion, status := .ofCounts written failed
    strategy, written, failed, details, milliseconds := started.millisecondsTo completed
    triggeredBy := actor, startedAt := started, completedAt := completed }

/-- Writes a completed count back. -/
def send (connections : Erp.Connections) (default : Option Id) (tenant count : Id)
    (r : SendRequest) (actor : Id) : Action SendOutcome := do
  let seen ← Counting.getCount tenant count
  if seen.status ≠ .completed then
    Action.fail (.wrongState Status.completed.name seen.status.name)
  else
    let (target, connection) ← resolveTarget tenant default r
    let reports ← Action.counts (.listReports count (some seen.currentVersion))
    let stored ← Action.counts (.listItems count (some seen.currentVersion))
    let items := itemsToWrite stored reports
    let started ← Action.now
    let dialect ← Action.check (Erp.dialectOf connections connection)
    let session ← Action.attempt
      (Erp.withSession connection (writeItems connection dialect target r.strategy items))
    let details ← match session with
      | .ok details => pure details
      | .error e => Action.arithmetic (failedDetails r.strategy e items)
    let id ← Action.freshId
    let attempt := attemptOf seen r.strategy details actor id started (← Action.now)
    Action.counts (.addAttempt attempt)
    let _ ← Action.check session
    if attempt.failed = 0 then
      let change := StatusChange.ofCount seen [.completed] .closed actor
      let closed ← Action.counts (.change tenant count
        { change := { change with milestone := some .closed } })
      return ⟨attempt, closed⟩
    else return ⟨attempt, seen⟩

/-- The attempts to write a count back. -/
def listAttempts (tenant count : Id) : Action (List Attempt) := do
  let _ ← Counting.getCount tenant count
  Action.counts (.listAttempts count)

open Json Json.Decode

/-- Decodes a request. -/
def SendRequest.decode : Decoder SendRequest :=
  record (SendRequest.mk <$> field "strategy" Strategy.naming.decode
    <*> fieldWithDefault none "target" (optional Target.decode)
    <*> fieldWithDefault none "erp_connection_id" (optional Id.decode))

/-- What came of an attempt as JSON. -/
def SendOutcome.toJson (o : SendOutcome) : Json :=
  ofMembers [("success", .bool (o.attempt.failed = 0)), ("items_synced", .int o.attempt.written),
    ("items_failed", .int o.attempt.failed), ("history", o.attempt.toJson),
    ("count", o.count.toJson)]

end Recount.WriteBack
