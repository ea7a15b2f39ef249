import Recount.Count.Basic
import Recount.Count.Variance

/-!
# Versions of a count

A recount opens the next version of a count. Items that differ are counted again; the others are
carried over as they are.
-/

namespace Recount

/-- The item of the next version that follows an item. -/
def Item.next (i : Item) (version : Int) (id : Id) (now : Time) : Item :=
  let next := { i with id, version, previousQty := i.countedQty, createdAt := now, updatedAt := now }
  if i.hasVariance then
    { next with
      status := .pending, countedQty := none, difference := none, variancePercent := none
      hasVariance := false, countedBy := none, countedAt := none }
  else { next with status := .completed }

/-- What one version holds. -/
structure VersionSummary where
  version : Int
  items : Nat
  counted : Nat
  pending : Nat
  variances : Nat
  reports : Nat
  netDifference : Decimal

namespace VersionSummary

/-- The summary of a version with its items and the number of its reports. -/
def ofItems (version : Int) (items : List Item) (reports : Nat) : Except Overflow VersionSummary :=
  ((items.filterMap (·.difference)).foldlM Decimal.add .zero).map fun netDifference =>
    { version
      items := items.length
      counted := items.countP (·.countedQty.isSome)
      pending := items.countP (·.status = .pending)
      variances := items.countP (·.hasVariance)
      reports
      netDifference }

/-- Enters a version at its place, once. -/
def insertVersion (version : Int) : List Int → List Int
  | [] => [version]
  | v :: rest =>
    if version < v then version :: v :: rest
    else if version = v then v :: rest
    else v :: insertVersion version rest

/-- The versions of a count in ascending order, those of its items among them. -/
def versions (total : Int) (items : List Item) : List Int :=
  items.foldl (fun versions i => insertVersion i.version versions)
    ((List.range total.toNat).map fun (n : Nat) => (n : Int) + 1)

/-- The summaries of all versions of a count. -/
def ofCount (c : Count) (items : List Item) (reports : List Report) :
    Except Overflow (List VersionSummary) :=
  (versions c.totalVersions items).mapM fun version =>
    ofItems version (items.filter (·.version = version)) (reports.countP (·.version = version))

open Json

/-- A summary as JSON. -/
def toJson (s : VersionSummary) : Json :=
  ofMembers [("version", .int s.version), ("total_items", .nat s.items),
    ("counted_items", .nat s.counted), ("pending_items", .nat s.pending),
    ("variance_items", .nat s.variances), ("variance_reports", .nat s.reports),
    ("net_difference", s.netDifference.toJson)]

end VersionSummary
end Recount
