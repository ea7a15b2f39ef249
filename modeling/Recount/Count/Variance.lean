import Recount.Count.Item
import Recount.Decimal.Arithmetic

/-!
# Variances

The variance of an item is the difference between what was counted and what the system knows. An
item that differs has a report, which is approved or rejected once.
-/

namespace Recount

/-- A report of an item that differs from the system quantity. -/
structure Report where
  id : Id
  count : Id
  item : Id
  version : Int
  code : String
  systemQty : Decimal
  countedQty : Decimal
  difference : Decimal
  variancePercent : Decimal
  status : ReportStatus
  resolution : Option String
  resolvedBy : Option Id
  resolvedAt : Option Time
  createdAt : Time
  updatedAt : Time
deriving DecidableEq, Inhabited

/-- The difference in percent of the system quantity, with at most two places. Where the system
knows of nothing, it is zero if nothing was counted and one hundred otherwise. -/
def variancePercent (system counted : Decimal) : Except Overflow Decimal :=
  if system.isZero then .ok (if counted.isZero then .zero else .hundred)
  else do
    let difference ← counted.sub system
    let ratio ← difference.div system
    let percent ← ratio.mul .hundred
    .ok (percent.roundTo 2)

namespace Item

/-- Enters a counted quantity with its variance. -/
def withCounted (i : Item) (counted : Decimal) : Except Overflow Item := do
  let difference ← counted.sub i.systemQty
  let percent ← Recount.variancePercent i.systemQty counted
  .ok { i with
    countedQty := some counted
    difference := some difference
    variancePercent := some percent
    hasVariance := !difference.isZero }

/-- The pending report of an item, if it differs. -/
def report? (i : Item) (id : Id) (now : Time) : Except Overflow (Option Report) :=
  match i.hasVariance, i.countedQty with
  | true, some counted => do
    let difference ← counted.sub i.systemQty
    let percent ← Recount.variancePercent i.systemQty counted
    .ok (some
      { id, count := i.count, item := i.id, version := i.version, code := i.code
        systemQty := i.systemQty, countedQty := counted, difference, variancePercent := percent
        status := .pending, resolution := none, resolvedBy := none, resolvedAt := none
        createdAt := now, updatedAt := now })
  | _, _ => .ok none

/-- Settles an item: what was not counted counts as zero on behalf of the actor, and the item is
approved or at variance. -/
def settle (i : Item) (actor : Id) (now : Time) : Except Overflow Item := do
  let settled ←
    match i.countedQty with
    | some counted => i.withCounted counted
    | none =>
      let i := { i with countedBy := some actor, countedAt := some now }
      i.withCounted .zero
  .ok { settled with status := if settled.hasVariance then .variance else .approved }

/-- Settles items and reports those that differ; each item has a fresh identifier for its
report. -/
def settleAll (actor : Id) (now : Time) :
    List (Item × Id) → Except Overflow (List Item × List Report)
  | [] => .ok ([], [])
  | (i, id) :: rest => do
    let settled ← i.settle actor now
    let report ← settled.report? id now
    let (items, reports) ← settleAll actor now rest
    .ok (settled :: items, report.toList ++ reports)

end Item

namespace Report

open Json

/-- A report as JSON. -/
def toJson (r : Report) : Json :=
  ofMembers [("id", r.id.toJson), ("count_id", r.count.toJson), ("count_item_id", r.item.toJson),
    ("version", .int r.version), ("item_code", .str r.code), ("system_qty", r.systemQty.toJson),
    ("counted_qty", r.countedQty.toJson), ("difference", r.difference.toJson),
    ("variance_percent", r.variancePercent.toJson), ("status", ReportStatus.naming.toJson r.status),
    ("resolution", ofText? r.resolution), ("resolved_by", ofOption Id.toJson r.resolvedBy),
    ("resolved_at", ofOption Time.toJson r.resolvedAt), ("created_at", r.createdAt.toJson),
    ("updated_at", r.updatedAt.toJson)]

end Report
end Recount
