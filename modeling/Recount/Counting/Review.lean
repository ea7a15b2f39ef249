import Recount.Count.Version
import Recount.Counting.Lifecycle

/-!
# Reviewing a count

The variances of a submitted count are approved or rejected. A recount opens the next version,
in which the items that differ are counted again.
-/

namespace Recount.Counting

/-- What became of the wish for a recount. -/
structure RecountOutcome where
  /-- The version that was opened, unless no item differs. -/
  newVersion : Option Int
  pending : Nat
  carried : Nat
  count : Count

/-- The items of the next version, each with a fresh identifier. -/
def nextItems (version : Int) (time : Time) : List Item → Action (List Item)
  | [] => return []
  | i :: items => do
    let id ← Action.freshId
    return i.next version id time :: (← nextItems version time items)

/-- The stages from which a recount may be opened. -/
def recountable : List Status := [.submitted, .completed]

/-- Opens the next version of a count, if an item differs. -/
def openRecount (tenant count : Id) (actor : Id) : Action RecountOutcome := do
  let seen ← getCount tenant count
  let change := { StatusChange.ofCount seen recountable .active actor with opensVersion := true }
  if !change.expected.contains seen.status then
    Action.fail (.wrongState (Status.alternatives change.expected) seen.status.name)
  else
    let items ← Action.counts (.listItems count (some seen.currentVersion))
    let pending := items.countP (·.hasVariance)
    if pending = 0 then return ⟨none, 0, 0, seen⟩
    else
      let newItems ← nextItems (seen.currentVersion + 1) (← Action.now) items
      let updated ← Action.counts (.change tenant count { change, newItems })
      return ⟨some updated.currentVersion, pending, newItems.length - pending, updated⟩

/-- The versions of a count. -/
structure VersionHistory where
  count : Count
  versions : List VersionSummary

/-- Summarises the versions of a count. -/
def versionHistory (tenant count : Id) : Action VersionHistory := do
  let seen ← getCount tenant count
  let items ← Action.counts (.listItems count none)
  let reports ← Action.counts (.listReports count none)
  return ⟨seen, ← Action.arithmetic (VersionSummary.ofCount seen items reports)⟩

/-- The reports of a count, or of one version of it. -/
def listReports (tenant count : Id) (version : Option Int) : Action (List Report) := do
  let _ ← getCount tenant count
  Action.counts (.listReports count version)

/-- Approves or rejects a pending report. -/
def resolveReport (tenant count report : Id) (r : ResolveReport) (actor : Id) : Action Report := do
  Action.checkFields r.faults
  let seen ← getCount tenant count
  if !recountable.contains seen.status then
    Action.fail (.wrongState (Status.alternatives recountable) seen.status.name)
  else
    let stored ← Action.require (.report report) (← Action.counts (.getReport count report))
    let name := ReportStatus.naming.name
    if stored.status ≠ .pending then
      Action.fail (.wrongState (name .pending) (name stored.status))
    else
      Action.counts (.saveReport { stored with
        status := if r.approve then .approved else .rejected
        resolution := some r.reason
        resolvedBy := some actor
        resolvedAt := some (← Action.now) })

open Json

/-- The outcome of a recount as JSON. -/
def RecountOutcome.toJson (o : RecountOutcome) : Json :=
  ofMembers [("success", .bool true), ("new_version", ofOption .int o.newVersion),
    ("pending_items", .nat o.pending), ("carried_items", .nat o.carried),
    ("count", o.count.toJson)]

/-- The versions of a count as JSON. -/
def VersionHistory.toJson (h : VersionHistory) : Json :=
  ofMembers [("count", h.count.toJson), ("versions", ofList VersionSummary.toJson h.versions)]

end Recount.Counting
