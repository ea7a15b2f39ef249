import Recount.Count.Variance
import Recount.Error

/-!
# Transitions of counts

A count changes its stage only if it is still in an expected stage and in the version that was
seen. Items are written only while the count accepts them, and only in its current version.
-/

namespace Recount

/-- A change of the stage of a count. -/
structure StatusChange where
  expected : List Status
  expectedVersion : Int
  target : Status
  actor : Id
  milestone : Option Milestone := none
  /-- Opens the next version. -/
  opensVersion : Bool := false
deriving DecidableEq

namespace StatusChange

/-- A change of the count that was seen. -/
def ofCount (c : Count) (expected : List Status) (target : Status) (actor : Id) : StatusChange where
  expected := expected
  expectedVersion := c.currentVersion
  target := target
  actor := actor

/-- Checks a change against the count as it is. -/
def check (change : StatusChange) (c : Count) : Except Error Unit :=
  if !change.expected.contains c.status then
    .error (.wrongState (Status.alternatives change.expected) c.status.name)
  else if c.currentVersion ≠ change.expectedVersion then
    .error (.clash (.movedVersion c.number c.currentVersion))
  else .ok ()

/-- Makes a change. -/
def apply (change : StatusChange) (c : Count) (now : Time) : Count :=
  let opened := if change.opensVersion then 1 else 0
  let changed := { c with
    status := change.target
    currentVersion := c.currentVersion + opened
    totalVersions := c.totalVersions + opened
    updatedAt := now }
  match change.milestone with
  | some milestone => changed.mark milestone ⟨some change.actor, some now⟩
  | none => changed

end StatusChange

/-- A change of stage with the writes that belong to it, made together or not at all. -/
structure Transition where
  change : StatusChange
  newItems : List Item := []
  reports : List Report := []
  /-- Settles the items of the current version as they are at the moment of the change. -/
  settles : Bool := false

namespace Count

/-- The count accepts items. -/
def checkEditable (c : Count) : Except Error Unit :=
  if c.status.acceptsItems then .ok ()
  else .error (.wrongState (Status.alternatives Status.editable) c.status.name)

/-- The count accepts items in a version. -/
def checkWritable (c : Count) (version : Int) : Except Error Unit := do
  c.checkEditable
  if c.currentVersion ≠ version then
    .error (.clash (.otherVersion version c.number c.currentVersion))
  else .ok ()

end Count
end Recount
