import Recount.Action
import Recount.Count.Request

/-!
# The life of a count

A count is created as a draft, started, paused and resumed, submitted, approved, closed, and may
be cancelled or deleted. Every change is made only from the stages that it is meant for.
-/

namespace Recount.Counting

/-- Creates a count. -/
def createCount (tenant : Id) (r : CreateCount) (actor : Id) : Action Count := do
  Action.checkFields r.faults
  Action.counts (.create ⟨tenant, r.warehouse, r.name, r.notes, actor⟩)

/-- The counts of a tenant. -/
def listCounts (tenant : Id) (status : Option Status) : Action (List Count) :=
  Action.counts (.list tenant status)

/-- The count of a tenant. -/
def getCount (tenant count : Id) : Action Count := do
  Action.require (.count count) (← Action.counts (.get tenant count))

/-- A change of stage that writes no items. -/
structure StageChange where
  expected : List Status
  target : Status
  milestone : Option Milestone := none

namespace StageChange

/-- A draft becomes active. -/
def start : StageChange := ⟨[.draft], .active, some .started⟩

/-- An active count is put on hold. -/
def pause : StageChange := ⟨[.active], .onHold, none⟩

/-- A count on hold becomes active again. -/
def resume : StageChange := ⟨[.onHold], .active, none⟩

/-- A submitted count is approved. -/
def finalize : StageChange := ⟨[.submitted], .completed, some .approved⟩

/-- An approved count is closed. -/
def close : StageChange := ⟨[.completed], .closed, some .closed⟩

/-- A closed count is opened for another attempt to write it back. -/
def reactivate : StageChange := ⟨[.closed], .completed, none⟩

/-- A count that is not closed is given up. -/
def cancel : StageChange :=
  ⟨[.draft, .active, .onHold, .submitted, .completed], .cancelled, some .cancelled⟩

end StageChange

/-- Changes the stage of a count. -/
def changeStage (tenant count : Id) (change : StageChange) (actor : Id) : Action Count := do
  let seen ← getCount tenant count
  let statusChange := StatusChange.ofCount seen change.expected change.target actor
  Action.counts (.change tenant count
    { change := { statusChange with milestone := change.milestone } })

/-- Submits a count: every item of its version is settled. -/
def completeCount (tenant count : Id) (actor : Id) : Action Count := do
  let seen ← getCount tenant count
  let change := StatusChange.ofCount seen [.active, .draft] .submitted actor
  let updated ← Action.counts (.change tenant count
    { change := { change with milestone := some .completed }, settles := true })
  let _ ← Action.counts (.listReports count (some updated.currentVersion))
  return updated

/-- The stages in which a count may be deleted. -/
def deletable : List Status := [.draft, .cancelled]

/-- Deletes a count with all that belongs to it. -/
def deleteCount (tenant count : Id) : Action Unit := do
  let _ ← getCount tenant count
  Action.counts (.delete tenant count deletable)

/-- A count that accepts items. -/
def editableCount (tenant count : Id) : Action Count := do
  let seen ← getCount tenant count
  Action.check seen.checkEditable
  return seen

end Recount.Counting
