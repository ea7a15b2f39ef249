import Recount.Name

/-!
# Stages of a count

The stages that a count, its items and its variance reports go through.
-/

namespace Recount

/-- The stage of a count. -/
inductive Status where
  | draft
  | active
  | onHold
  | submitted
  | completed
  | closed
  | cancelled
deriving DecidableEq, Repr, Inhabited

namespace Status

/-- The names of the stages. -/
def naming : Naming Status where
  all := [draft, active, onHold, submitted, completed, closed, cancelled]
  name
    | draft => "DRAFT"
    | active => "ACTIVE"
    | onHold => "ON_HOLD"
    | submitted => "SUBMITTED"
    | completed => "COMPLETED"
    | closed => "CLOSED"
    | cancelled => "CANCELLED"

/-- The name of a stage. -/
def name (s : Status) : String := naming.name s

/-- Reads the name of a stage. -/
def parse (given : String) : Except UnknownName Status := naming.parse "Unknown count status" given

/-- An open count occupies its warehouse. -/
def isOpen : Status → Bool
  | active | onHold => true
  | _ => false

/-- Items may be loaded, added and counted. -/
def acceptsItems : Status → Bool
  | draft | active => true
  | _ => false

/-- The stages in which items may be changed. -/
def editable : List Status := [draft, active]

/-- The names of some stages as alternatives. -/
def alternatives (stages : List Status) : String := " or ".intercalate (stages.map name)

theorem mem_editable_iff {s : Status} : s ∈ editable ↔ s.acceptsItems := by
  cases s <;> simp [editable, acceptsItems]

end Status

/-- The stage of an item. -/
inductive ItemStatus where
  /-- Waits to be counted. -/
  | pending
  | counted
  /-- Agreed with the system quantity when its version was settled. -/
  | approved
  /-- Differed from the system quantity when its version was settled. -/
  | variance
  /-- Was carried into a recount without being counted again. -/
  | completed
deriving DecidableEq, Repr, Inhabited

namespace ItemStatus

/-- The names of the stages. -/
def naming : Naming ItemStatus where
  all := [pending, counted, approved, variance, completed]
  name
    | pending => "PENDING"
    | counted => "COUNTED"
    | approved => "APPROVED"
    | variance => "VARIANCE"
    | completed => "COMPLETED"

/-- Reads the name of a stage. -/
def parse (given : String) : Except UnknownName ItemStatus :=
  naming.parse "Unknown count item status" given

end ItemStatus

/-- The stage of a variance report. -/
inductive ReportStatus where
  | pending
  | approved
  | rejected
deriving DecidableEq, Repr, Inhabited

namespace ReportStatus

/-- The names of the stages. -/
def naming : Naming ReportStatus where
  all := [pending, approved, rejected]
  name
    | pending => "PENDING"
    | approved => "APPROVED"
    | rejected => "REJECTED"

/-- Reads the name of a stage. -/
def parse (given : String) : Except UnknownName ReportStatus :=
  naming.parse "Unknown variance status" given

end ReportStatus
end Recount
