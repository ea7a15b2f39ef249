import Recount.Count.Status
import Recount.Id
import Recount.Name
import Recount.Time

/-!
# Counts

A count takes stock of one warehouse of a tenant. It goes through versions: each recount opens a
new one.
-/

namespace Recount

/-- Who did something, and when. -/
structure Mark where
  actor : Option Id
  time : Option Time
deriving DecidableEq, Repr, Inhabited

/-- Nobody did it yet. -/
def Mark.none : Mark := ⟨.none, .none⟩

/-- A step in the life of a count that is remembered with its actor and its time. -/
inductive Milestone where
  | started
  | completed
  | approved
  | closed
  | cancelled
deriving DecidableEq, Repr

/-- The names of the milestones. -/
def Milestone.naming : Naming Milestone where
  all := [started, completed, approved, closed, cancelled]
  name
    | started => "started"
    | completed => "completed"
    | approved => "approved"
    | closed => "closed"
    | cancelled => "cancelled"

/-- A count. -/
structure Count where
  id : Id
  tenant : Id
  warehouse : Id
  sequence : Int
  name : Option String
  notes : Option String
  status : Status
  currentVersion : Int
  totalVersions : Int
  createdBy : Id
  createdAt : Time
  started : Mark
  completed : Mark
  approved : Mark
  closed : Mark
  cancelled : Mark
  updatedAt : Time
deriving DecidableEq, Repr, Inhabited

namespace Count

/-- A sequence number as people refer to it: at least six places, of which a sign takes one. -/
def numberText (sequence : Int) : String :=
  let digits :=
    if sequence < 0 then '-' :: Decimal.padded 5 sequence.natAbs
    else Decimal.padded 6 sequence.natAbs
  "CNT-" ++ String.ofList digits

/-- The number that people refer to a count by. -/
def number (c : Count) : String := numberText c.sequence

/-- Remembers a milestone. -/
def mark (c : Count) (milestone : Milestone) (mark : Mark) : Count :=
  match milestone with
  | .started => { c with started := mark }
  | .completed => { c with completed := mark }
  | .approved => { c with approved := mark }
  | .closed => { c with closed := mark }
  | .cancelled => { c with cancelled := mark }

open Json

/-- The members of a mark under their names. -/
def markMembers (milestone : Milestone) (m : Mark) : List (String × Json) :=
  let name := Milestone.naming.name milestone
  [(name ++ "_by", ofOption Id.toJson m.actor), (name ++ "_at", ofOption Time.toJson m.time)]

/-- A count as JSON. -/
def toJson (c : Count) : Json :=
  ofMembers ([("id", c.id.toJson), ("tenant_id", c.tenant.toJson),
    ("warehouse_id", c.warehouse.toJson), ("sequence_number", .int c.sequence),
    ("name", ofText? c.name), ("notes", ofText? c.notes), ("status", Status.naming.toJson c.status),
    ("current_version", .int c.currentVersion), ("total_versions", .int c.totalVersions),
    ("created_by", c.createdBy.toJson), ("created_at", c.createdAt.toJson),
    ("updated_at", c.updatedAt.toJson)]
    ++ markMembers .started c.started ++ markMembers .completed c.completed
    ++ markMembers .approved c.approved ++ markMembers .closed c.closed
    ++ markMembers .cancelled c.cancelled)

end Count
end Recount
